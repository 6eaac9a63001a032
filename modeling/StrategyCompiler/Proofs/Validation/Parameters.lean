import Mathlib.Data.List.Basic
import StrategyCompiler.Validation.Parameters
/-!
What the parameters of an indicator resolve to: every parameter leaves either its value or one
error, and a rule adds at most one more.
-/

set_option autoImplicit false

namespace StrategyCompiler.Validation

open Catalogue (Parameter Setting Settings Signature)
open Diagnostic (Error)

def complaint? : Except Error Setting → Option Error
  | .ok _ => none
  | .error error => some error

private theorem enter_errors (resolution : Resolution) (parameter : Parameter)
    (settled : Except Error Setting) :
    (resolution.enter parameter settled).errors =
      resolution.errors ++ (complaint? settled).toList := by
  cases settled <;> simp [Resolution.enter, complaint?]

private theorem foldl_enter_errors (signature : Signature) (node : Graph.Node)
    (parameters : List Parameter) (resolution : Resolution) :
    (parameters.foldl (fun resolution parameter =>
        resolution.enter parameter (settle signature node parameter)) resolution).errors =
      resolution.errors ++
        parameters.filterMap fun parameter => complaint? (settle signature node parameter) := by
  induction parameters generalizing resolution with
  | nil => simp
  | cons parameter parameters ih =>
    rw [List.foldl_cons, ih, enter_errors, List.append_assoc, List.filterMap_cons]
    cases complaint? (settle signature node parameter) <;> rfl

theorem settleAll_errors (signature : Signature) (node : Graph.Node) :
    (settleAll signature node).errors =
      signature.parameters.filterMap fun parameter =>
        complaint? (settle signature node parameter) := by
  simpa [settleAll] using foldl_enter_errors signature node signature.parameters {}

def IsParameterError (error : Error) : Prop :=
  (∃ node indicator parameter, error = .missingParameter node indicator parameter) ∨
    (∃ node parameter expected cause, error = .violation node parameter expected cause) ∨
      ∃ node indicator complaint, error = .ruleBroken node indicator complaint

private theorem isParameterError_of_settle {signature : Signature} {node : Graph.Node}
    {parameter : Parameter} {error : Error}
    (failed : settle signature node parameter = .error error) : IsParameterError error := by
  unfold settle at failed
  split at failed
  · rename_i raw _
    cases coerced : parameter.coerce raw with
    | ok value => simp [coerced, Except.mapError] at failed
    | error cause =>
      rw [coerced] at failed
      exact .inr (.inl ⟨_, _, _, _, (Except.error.inj failed).symm⟩)
  · split at failed
    · exact .inl ⟨_, _, _, (Except.error.inj failed).symm⟩
    · exact absurd failed (by simp)

theorem isParameterError_of_mem_resolve {signature : Signature} {node : Graph.Node} {error : Error}
    (member : error ∈ (resolve signature node).errors) : IsParameterError error := by
  have settled : ∀ error ∈ (settleAll signature node).errors, IsParameterError error := by
    intro error member
    rw [settleAll_errors, List.mem_filterMap] at member
    obtain ⟨parameter, -, found⟩ := member
    cases outcome : settle signature node parameter with
    | ok value => simp [outcome, complaint?] at found
    | error failure =>
      obtain rfl : failure = error := by simpa [outcome, complaint?] using found
      exact isParameterError_of_settle outcome
  simp only [resolve] at member
  split at member
  · split at member
    · exact .inr (.inr ⟨_, _, _, List.mem_singleton.1 member⟩)
    · exact settled error member
  · exact settled error member

/-! ### Values -/

def KnownSeries (setting : Setting) : Prop :=
  ∀ series, setting = .source series → series ∈ Script.priceSeries

private theorem mem_insertEntry {name : String} {value : Setting}
    {entries : List (String × Setting)} {entry : String × Setting}
    (member : entry ∈ Settings.insertEntry name value entries) :
    entry = (name, value) ∨ entry ∈ entries := by
  induction entries with
  | nil => exact .inl (List.mem_singleton.1 member)
  | cons first rest ih =>
    rw [Settings.insertEntry] at member
    split at member
    · rcases List.mem_cons.1 member with here | later
      · exact .inl here
      · exact .inr (List.mem_cons_of_mem _ later)
    · rcases List.mem_cons.1 member with here | later
      · exact .inr (List.mem_cons.2 (.inl here))
      · exact (ih later).imp_right (List.mem_cons_of_mem _)

private theorem mem_foldl_enter {signature : Signature} {node : Graph.Node}
    {parameters : List Parameter} {resolution : Resolution} {entry : String × Setting}
    (member : entry ∈ (parameters.foldl (fun resolution parameter =>
      resolution.enter parameter (settle signature node parameter)) resolution).values.entries) :
    entry ∈ resolution.values.entries ∨
      ∃ parameter ∈ parameters, entry.1 = parameter.name ∧
        settle signature node parameter = .ok entry.2 := by
  induction parameters generalizing resolution with
  | nil => exact .inl member
  | cons parameter rest ih =>
    rw [List.foldl_cons] at member
    rcases ih member with old | ⟨found, inside, facts⟩
    · cases settled : settle signature node parameter with
      | error error =>
        rw [settled] at old
        exact .inl old
      | ok value =>
        rw [settled] at old
        rcases mem_insertEntry old with rfl | older
        · exact .inr ⟨parameter, List.mem_cons_self, rfl, settled⟩
        · exact .inl older
    · exact .inr ⟨found, List.mem_cons_of_mem _ inside, facts⟩

theorem resolve_values (signature : Signature) (node : Graph.Node) :
    (resolve signature node).values = (settleAll signature node).values := by
  simp only [resolve]
  split
  · split <;> rfl
  · rfl

theorem mem_resolve_values {signature : Signature} {node : Graph.Node}
    {entry : String × Setting} (member : entry ∈ (resolve signature node).values.entries) :
    ∃ parameter ∈ signature.parameters, entry.1 = parameter.name ∧
      settle signature node parameter = .ok entry.2 := by
  rw [resolve_values] at member
  rcases mem_foldl_enter member with old | settled
  · exact absurd old List.not_mem_nil
  · exact settled

theorem knownSeries_of_convert {parameter : Parameter} {raw : Json.Value} {value : Setting}
    (converted : parameter.convert raw = .ok value) : KnownSeries value := by
  rintro series rfl
  unfold Parameter.convert at converted
  dsimp only at converted
  split at converted
  · split at converted
    · split at converted <;> simp at converted
    · simp at converted
  · split at converted <;> simp at converted
  · simp at converted
  · split at converted <;> simp at converted
  · simp at converted
  · split at converted
    · rename_i known
      have same := Setting.source.inj (Except.ok.inj converted)
      rw [same] at known
      exact List.contains_iff_mem.1 known
    · simp at converted
  · simp at converted

private theorem type_of_convert {parameter : Parameter} {raw : Json.Value} {value : Setting}
    (converted : parameter.convert raw = .ok value) : value.type = parameter.type := by
  unfold Parameter.convert at converted
  dsimp only at converted
  split at converted
  · rename_i isInt
    split at converted
    · split at converted
      · rw [isInt, ← Except.ok.inj converted]
        rfl
      · simp at converted
    · simp at converted
  · rename_i isFloat
    split at converted
    · rw [isFloat, ← Except.ok.inj converted]
      rfl
    · simp at converted
  · rename_i isBool
    rw [isBool, ← Except.ok.inj converted]
    rfl
  · rename_i isBool
    split at converted
    · rw [isBool, ← Except.ok.inj converted]
      rfl
    · simp at converted
  · rename_i isString
    rw [isString, ← Except.ok.inj converted]
    rfl
  · rename_i isSource
    split at converted
    · rw [isSource, ← Except.ok.inj converted]
      rfl
    · simp at converted
  · simp at converted

theorem settle_eq_ok {signature : Signature} {node : Graph.Node} {parameter : Parameter}
    {value : Setting} (settled : settle signature node parameter = .ok value) :
    value = parameter.default ∨ ∃ raw, parameter.convert raw = .ok value := by
  unfold settle at settled
  split at settled
  · rename_i raw _
    refine .inr ⟨raw, ?_⟩
    cases converted : parameter.convert raw with
    | error cause =>
      simp [Parameter.coerce, converted, bind, Except.bind, Except.mapError] at settled
    | ok found =>
      cases checked : parameter.check found with
      | error cause =>
        simp [Parameter.coerce, converted, checked, bind, Except.bind, Except.mapError] at settled
      | ok _ =>
        simpa [Parameter.coerce, converted, checked, bind, Except.bind, Except.mapError,
          pure, Except.pure] using settled
  · split at settled
    · exact absurd settled (by simp)
    · exact .inl (Except.ok.inj settled).symm

theorem knownSeries_of_settle {signature : Signature} {node : Graph.Node}
    {parameter : Parameter} {value : Setting} (default : KnownSeries parameter.default)
    (settled : settle signature node parameter = .ok value) : KnownSeries value := by
  rcases settle_eq_ok settled with rfl | ⟨raw, converted⟩
  · exact default
  · exact knownSeries_of_convert converted

theorem type_of_settle {signature : Signature} {node : Graph.Node} {parameter : Parameter}
    {value : Setting} (own : parameter.default.type = parameter.type)
    (settled : settle signature node parameter = .ok value) : value.type = parameter.type := by
  rcases settle_eq_ok settled with rfl | ⟨raw, converted⟩
  · exact own
  · exact type_of_convert converted

/-! ### Values by name -/

private theorem find?_insertEntry_self (name : String) (value : Setting)
    (entries : List (String × Setting)) :
    (Settings.insertEntry name value entries).find? (fun entry => entry.1 == name) =
      some (name, value) := by
  induction entries with
  | nil => simp [Settings.insertEntry]
  | cons entry rest ih =>
    rw [Settings.insertEntry]
    split
    · simp
    · rename_i other
      rw [List.find?_cons, Bool.eq_false_iff.2 other]
      exact ih

private theorem find?_insertEntry_of_ne {name key : String} (apart : name ≠ key) (value : Setting)
    (entries : List (String × Setting)) :
    (Settings.insertEntry name value entries).find? (fun entry => entry.1 == key) =
      entries.find? fun entry => entry.1 == key := by
  have other : (name == key) = false := beq_eq_false_iff_ne.2 apart
  induction entries with
  | nil => simp [Settings.insertEntry, other]
  | cons entry rest ih =>
    rw [Settings.insertEntry]
    split
    · rename_i same
      rw [List.find?_cons, List.find?_cons, beq_iff_eq.1 same, other]
    · rw [List.find?_cons, List.find?_cons, ih]

private theorem get?_foldl_enter {signature : Signature} {node : Graph.Node}
    {parameters : List Parameter} {key : String} (absent : key ∉ parameters.map Parameter.name)
    (resolution : Resolution) :
    (parameters.foldl (fun resolution parameter =>
        resolution.enter parameter (settle signature node parameter)) resolution).values.get? key =
      resolution.values.get? key := by
  induction parameters generalizing resolution with
  | nil => rfl
  | cons parameter rest ih =>
    rw [List.map_cons, List.mem_cons, not_or] at absent
    rw [List.foldl_cons, ih absent.2]
    cases settle signature node parameter with
    | error error => rfl
    | ok value =>
      exact congrArg (Option.map Prod.snd) (find?_insertEntry_of_ne (Ne.symm absent.1) value _)

theorem get?_resolve_values {signature : Signature} {node : Graph.Node} {parameter : Parameter}
    {value : Setting} (distinct : (signature.parameters.map Parameter.name).Nodup)
    (member : parameter ∈ signature.parameters)
    (settled : settle signature node parameter = .ok value) :
    (resolve signature node).values.get? parameter.name = some value := by
  have run (parameters : List Parameter) (resolution : Resolution)
      (distinct : (parameters.map Parameter.name).Nodup) (member : parameter ∈ parameters) :
      (parameters.foldl (fun resolution parameter => resolution.enter parameter
          (settle signature node parameter)) resolution).values.get? parameter.name =
        some value := by
    induction parameters generalizing resolution with
    | nil => exact absurd member List.not_mem_nil
    | cons first rest ih =>
      rw [List.map_cons, List.nodup_cons] at distinct
      rw [List.foldl_cons]
      rcases List.mem_cons.1 member with rfl | later
      · rw [get?_foldl_enter distinct.1, settled]
        exact congrArg (Option.map Prod.snd) (find?_insertEntry_self parameter.name value _)
      · exact ih _ distinct.2 later
  rw [resolve_values]
  exact run signature.parameters {} distinct member

theorem exists_settle {signature : Signature} {node : Graph.Node} {parameter : Parameter}
    (clean : (resolve signature node).errors = []) (member : parameter ∈ signature.parameters) :
    ∃ value, settle signature node parameter = .ok value := by
  have none : (settleAll signature node).errors = [] := by
    simp only [resolve] at clean
    split at clean
    · rename_i empty
      exact List.isEmpty_iff.1 empty
    · exact clean
  rw [settleAll_errors, List.filterMap_eq_nil_iff] at none
  cases settled : settle signature node parameter with
  | ok value => exact ⟨value, rfl⟩
  | error error =>
    have complaint := none parameter member
    rw [settled] at complaint
    exact absurd complaint (by simp [complaint?])

end StrategyCompiler.Validation
