import StrategyCompiler.Proofs.Catalogue.Builtin
import StrategyCompiler.Proofs.Catalogue.Coercion
import StrategyCompiler.Validation.Node
/-!
The resolution of an indicator's parameters, parameter by parameter.  Each leaves a value or an
error of its own, in declared order, and the rule of the signature judges complete sets of values
only.
-/

set_option autoImplicit false

namespace StrategyCompiler.Validation

open Catalogue (Parameter Setting Settings Signature builtin)
open Diagnostic (Error)
open Number (Double)

variable {signature : Signature} {node : Graph.Node} {parameter : Parameter} {value : Setting}

/-- The entry that a parameter leaves among the values: the configured value that it accepts, or the
default of an optional parameter that is not configured. -/
def setting? (node : Graph.Node) (parameter : Parameter) : Option (String × Setting) :=
  match parameter.configured? node.config with
  | some raw =>
    match parameter.coerce raw with
    | .ok value => some (parameter.name, value)
    | .error _ => none
  | none => if parameter.required then none else some (parameter.name, parameter.default)

/-- The error that a parameter leaves: what is wrong with the configured value, or that a mandatory
parameter is not configured. -/
def fault? (signature : Signature) (node : Graph.Node) (parameter : Parameter) : Option Error :=
  match parameter.configured? node.config with
  | some raw =>
    match parameter.coerce raw with
    | .ok _ => none
    | .error cause => some (.violation node.id parameter.name parameter.type cause)
  | none =>
    if parameter.required then some (.missingParameter node.id signature.name parameter.name)
    else none

/-- The errors that the parameters of a signature leave, in declared order. -/
def faults (signature : Signature) (node : Graph.Node) : List Error :=
  signature.parameters.filterMap (fault? signature node)

theorem settle_eq_ok_iff :
    settle signature node parameter = .ok value ↔
      (∃ raw, parameter.configured? node.config = some raw ∧ parameter.coerce raw = .ok value) ∨
        parameter.configured? node.config = none ∧ parameter.required = false ∧
          parameter.default = value := by
  unfold settle
  cases parameter.configured? node.config with
  | some raw => cases coerced : parameter.coerce raw <;> simp [coerced, Except.mapError]
  | none => cases parameter.required <;> simp

private theorem complaint?_settle : complaint? (settle signature node parameter) =
    fault? signature node parameter := by
  unfold settle fault?
  cases parameter.configured? node.config with
  | some raw => cases coerced : parameter.coerce raw <;> simp [coerced, Except.mapError, complaint?]
  | none => cases parameter.required <;> rfl

private theorem faults_eq : faults signature node = (settleAll signature node).errors := by
  rw [settleAll_errors, faults]
  simp only [complaint?_settle]

/-! ### Values -/

private theorem insertEntry_of_not_mem {name : String} {entries : List (String × Setting)}
    (fresh : name ∉ entries.map Prod.fst) :
    Settings.insertEntry name value entries = entries ++ [(name, value)] := by
  induction entries with
  | nil => rfl
  | cons entry rest ih =>
    rw [List.map_cons, List.mem_cons, not_or] at fresh
    have apart : ¬ (entry.1 == name) = true := fun same => fresh.1 (beq_iff_eq.1 same).symm
    rw [Settings.insertEntry, if_neg apart, ih fresh.2, List.cons_append]

private theorem entries_enter {resolution : Resolution}
    (fresh : parameter.name ∉ resolution.values.entries.map Prod.fst) :
    (resolution.enter parameter (settle signature node parameter)).values.entries =
      resolution.values.entries ++ (setting? node parameter).toList := by
  unfold settle setting?
  cases parameter.configured? node.config with
  | some raw =>
    cases coerced : parameter.coerce raw with
    | ok found =>
      simpa [coerced, Except.mapError, Resolution.enter, Settings.insert] using
        insertEntry_of_not_mem fresh
    | error cause => simp [coerced, Except.mapError, Resolution.enter]
  | none =>
    cases parameter.required with
    | true => simp [Resolution.enter]
    | false => simpa [Resolution.enter, Settings.insert] using insertEntry_of_not_mem fresh

theorem name_of_setting? {entry : String × Setting} (found : setting? node parameter = some entry) :
    entry.1 = parameter.name := by
  unfold setting? at found
  split at found
  · split at found
    · rw [← Option.some.inj found]
    · exact nomatch found
  · split at found
    · exact nomatch found
    · rw [← Option.some.inj found]

private theorem entries_foldl_enter {parameters : List Parameter} {resolution : Resolution}
    (distinct : (parameters.map Parameter.name).Nodup)
    (fresh : ∀ parameter ∈ parameters,
      parameter.name ∉ resolution.values.entries.map Prod.fst) :
    (parameters.foldl (fun resolution parameter =>
        resolution.enter parameter (settle signature node parameter)) resolution).values.entries =
      resolution.values.entries ++ parameters.filterMap (setting? node) := by
  induction parameters generalizing resolution with
  | nil => simp
  | cons parameter rest ih =>
    rw [List.map_cons, List.nodup_cons] at distinct
    have entered : (resolution.enter parameter (settle signature node parameter)).values.entries =
        resolution.values.entries ++ (setting? node parameter).toList :=
      entries_enter (fresh parameter List.mem_cons_self)
    have later : ∀ other ∈ rest, other.name ∉ ((resolution.enter parameter
        (settle signature node parameter)).values.entries).map Prod.fst := by
      intro other member
      rw [entered, List.map_append, List.mem_append, not_or]
      refine ⟨fresh other (List.mem_cons_of_mem _ member), fun found => ?_⟩
      obtain ⟨entry, left, same⟩ := List.mem_map.1 found
      rw [name_of_setting? (Option.mem_toList.1 left)] at same
      exact distinct.1 (same ▸ List.mem_map_of_mem member)
    rw [List.foldl_cons, ih distinct.2 later, entered, List.append_assoc, List.filterMap_cons]
    cases setting? node parameter <;> rfl

theorem entries_resolve (distinct : (signature.parameters.map Parameter.name).Nodup) :
    (resolve signature node).values.entries = signature.parameters.filterMap (setting? node) := by
  rw [resolve_values, settleAll, entries_foldl_enter distinct]
  · rfl
  · intro _ _
    exact List.not_mem_nil

private theorem isSome_setting? :
    (setting? node parameter).isSome = (fault? signature node parameter).isNone := by
  unfold setting? fault?
  cases parameter.configured? node.config with
  | some raw => cases coerced : parameter.coerce raw <;> simp [coerced]
  | none => cases parameter.required <;> rfl

private theorem names_of_faults (clean : faults signature node = []) :
    (signature.parameters.filterMap (setting? node)).map Prod.fst =
      signature.parameters.map Parameter.name := by
  have each : ∀ parameter ∈ signature.parameters,
      (setting? node parameter).map Prod.fst = some parameter.name := by
    intro parameter member
    have left : fault? signature node parameter = none :=
      List.filterMap_eq_nil_iff.1 clean parameter member
    have given : (setting? node parameter).isSome = true :=
      isSome_setting?.trans (by rw [left, Option.isNone_none])
    obtain ⟨entry, found⟩ := Option.isSome_iff_exists.1 given
    rw [found, Option.map_some, name_of_setting? found]
  rw [List.map_filterMap, List.filterMap_congr each, List.filterMap_eq_map']

/-! ### Errors -/

def ruleFault (signature : Signature) (node : Graph.Node) (values : Settings) : List Error :=
  match signature.complaint? values with
  | some complaint => [.ruleBroken node.id signature.name complaint]
  | none => []

private theorem errors_resolve : (resolve signature node).errors =
    if faults signature node = [] then ruleFault signature node (resolve signature node).values
    else faults signature node := by
  rw [resolve_values, faults_eq]
  unfold resolve
  dsimp only
  by_cases clean : (settleAll signature node).errors = []
  · rw [if_pos clean, clean, List.isEmpty_nil, if_pos rfl, ruleFault]
    cases signature.complaint? (settleAll signature node).values with
    | some complaint => rfl
    | none => exact clean
  · rw [if_neg clean, if_neg]
    simpa using clean

private theorem not_ruleBroken_of_mem_faults {error : Error}
    (member : error ∈ faults signature node)
    (id name complaint : String) : error ≠ .ruleBroken id name complaint := by
  rintro rfl
  obtain ⟨parameter, -, found⟩ := List.mem_filterMap.1 member
  unfold fault? at found
  split at found
  · split at found
    · exact nomatch found
    · exact nomatch Option.some.inj found
  · split at found
    · exact nomatch Option.some.inj found
    · exact nomatch found

private theorem ruleBroken_mem_iff {complaint : String} :
    .ruleBroken node.id signature.name complaint ∈ (resolve signature node).errors ↔
      faults signature node = [] ∧
        signature.complaint? (resolve signature node).values = some complaint := by
  rw [errors_resolve]
  by_cases clean : faults signature node = []
  · rw [if_pos clean, ruleFault]
    cases signature.complaint? (resolve signature node).values with
    | some other => simp [clean, eq_comm]
    | none => simp
  · rw [if_neg clean]
    refine ⟨fun member => ?_, fun both => absurd both.1 clean⟩
    exact absurd rfl (not_ruleBroken_of_mem_faults member _ _ _)

/-! ### Fast and slow lengths -/

/-- Whether a parameter is a length that every node gives, from one to 500. -/
def isLength (name : String) (parameter : Parameter) : Bool :=
  parameter.name == name && parameter.type == .int && parameter.required &&
    parameter.min == some (Double.ofInt 1) && parameter.max == some (Double.ofInt 500)

def hasLengths (signature : Signature) : Bool :=
  signature.category != .operator &&
    decide (signature.parameters.map Parameter.name).Nodup &&
      signature.parameters.any (isLength "fastLength") &&
        signature.parameters.any (isLength "slowLength")

private theorem hasLengths_of_name (member : signature ∈ builtin.signatures)
    (named : signature.name = "macd") : hasLengths signature = true := by
  have each : ∀ signature ∈ builtin.signatures,
      (signature.name != "macd" || hasLengths signature) = true :=
    Catalogue.forall_builtin (by decide +kernel)
  have found := each signature member
  rw [named] at found
  simpa using found

private theorem rule_of_name (member : signature ∈ builtin.signatures)
    (named : signature.name = "macd") : signature.rule = some Catalogue.Builtin.fastBelowSlow := by
  have each : ∀ signature ∈ Catalogue.Builtin.windowedSignatures ++
      Catalogue.Builtin.indicatorSignatures ++ Catalogue.Builtin.operatorSignatures,
      signature.name = "macd" → signature.rule = some Catalogue.Builtin.fastBelowSlow := by
    intro signature member named
    rw [List.mem_append, List.mem_append] at member
    rcases member with (windowed | indicator) | operator
    · have other : ∀ signature ∈ Catalogue.Builtin.windowedSignatures,
          signature.name ≠ "macd" := by decide +kernel
      exact absurd named (other signature windowed)
    · obtain ⟨position, found⟩ := List.mem_iff_getElem?.1 indicator
      by_cases second : position = 1
      · have own : Catalogue.Builtin.indicatorSignatures[1]?.map Signature.rule =
            some (some Catalogue.Builtin.fastBelowSlow) := rfl
        rw [← second, found] at own
        exact Option.some.inj own
      · have other : ∀ position < 10, position ≠ 1 →
            Catalogue.Builtin.indicatorSignatures[position]?.map Signature.name ≠
              some "macd" := by decide +kernel
        obtain ⟨inside, -⟩ := List.getElem?_eq_some_iff.1 found
        refine absurd ?_ (other position inside second)
        rw [found, Option.map_some, named]
    · have other : ∀ signature ∈ Catalogue.Builtin.operatorSignatures,
          signature.name ≠ "macd" := by decide +kernel
      exact absurd named (other signature operator)
  exact Catalogue.forall_builtin each signature member named

private theorem exists_length {name : String} (own : isLength name parameter = true)
    (settled : settle signature node parameter = .ok value) :
    ∃ i : Int, value = .int i ∧ 1 ≤ i ∧ i ≤ 500 := by
  simp only [isLength, Bool.and_eq_true, beq_iff_eq] at own
  obtain ⟨⟨⟨⟨-, type⟩, mandatory⟩, min⟩, max⟩ := own
  rcases settle_eq_ok_iff.1 settled with ⟨raw, -, accepted⟩ | ⟨-, optional, -⟩
  · have admits := Parameter.admits_of_coerce accepted
    have least : (Double.ofInt 1).place? = some ((1 : Int) * Number.one) := by
      rw [Double.place?_ofInt, Double.integerPlace_of_lt (by decide)]
    have most : (Double.ofInt 500).place? = some ((500 : Int) * Number.one) := by
      rw [Double.place?_ofInt, Double.integerPlace_of_lt (by decide)]
    have reached : ¬ parameter.MinimumBeyond := by
      rintro ⟨-, bound, given, beyond⟩
      rw [min] at given
      rw [← Option.some.inj given, least] at beyond
      exact absurd (Double.mul_one_inj.1 (Option.some.inj beyond)) (by decide)
    have within := (Parameter.within_of_coerce accepted).2 reached
    cases value with
    | int i =>
      obtain ⟨low, high⟩ := within rfl
      obtain ⟨place, own, above⟩ := low _ min _ least
      obtain ⟨other, same, below⟩ := high _ max _ most
      rw [← Option.some.inj own, Double.mul_one_le_iff] at above
      rw [← Option.some.inj same, Double.mul_one_le_iff] at below
      exact ⟨i, rfl, above, below⟩
    | float _ => exact nomatch admits.type.trans type
    | bool _ => exact nomatch admits.type.trans type
    | string _ => exact nomatch admits.type.trans type
    | source _ => exact nomatch admits.type.trans type
  · rw [mandatory] at optional
    exact nomatch optional

private theorem fastBelowSlow_eq_none_iff {settings : Settings} {fast slow : Int}
    (first : settings.get? "fastLength" = some (.int fast))
    (second : settings.get? "slowLength" = some (.int slow))
    (fastRange : 1 ≤ fast ∧ fast ≤ 500) (slowRange : 1 ≤ slow ∧ slow ≤ 500) :
    Catalogue.Builtin.fastBelowSlow settings = none ↔ fast < slow := by
  have power : 500 < Number.powerOfTwo 53 := by decide
  have small {i : Int} (range : 1 ≤ i ∧ i ≤ 500) : i.natAbs < Number.powerOfTwo 53 := by omega
  have fastNumber : settings.number? "fastLength" = some (Double.ofInt fast) := by
    rw [Settings.number?, first]
    rfl
  have slowNumber : settings.number? "slowLength" = some (Double.ofInt slow) := by
    rw [Settings.number?, second]
    rfl
  have above := Double.lt_ofInt_iff (small slowRange) (small fastRange)
  have equal := Double.same_ofInt_iff (small slowRange) (small fastRange)
  unfold Catalogue.Builtin.fastBelowSlow
  rw [fastNumber, slowNumber]
  dsimp only
  rw [ite_eq_right_iff]
  simp only [Bool.or_eq_true, above, equal, reduceCtorEq, imp_false]
  omega

private theorem nodeErrors_of_lookup? {id : String} (kind : node.kind = .indicator)
    (named : node.indicatorId? = some id) (found : builtin.lookup? id = some signature)
    (category : signature.category ≠ .operator) :
    nodeErrors builtin node = (resolve signature node).errors := by
  have usable : indicator? builtin id = some signature := by
    rw [indicator?, found, Option.filter_some, if_pos]
    exact bne_iff_ne.2 category
  rw [nodeErrors, kind]
  change indicatorErrors builtin node = _
  rw [indicatorErrors, named]
  dsimp only
  rw [usable]

/-- The lengths of the convergence divergence are integers, and it is accepted exactly when the fast
one is below the slow one. -/
private theorem nodeErrors_eq_nil_iff_of_name {id : String} (kind : node.kind = .indicator)
    (named : node.indicatorId? = some id) (found : builtin.lookup? id = some signature)
    (name : signature.name = "macd") (clean : faults signature node = []) :
    ∃ fast slow : Int,
      (resolve signature node).values.get? "fastLength" = some (.int fast) ∧
      (resolve signature node).values.get? "slowLength" = some (.int slow) ∧
      (nodeErrors builtin node = [] ↔ fast < slow) := by
  have member := Catalogue.mem_of_lookup? found
  have lengths := hasLengths_of_name member name
  simp only [hasLengths, Bool.and_eq_true, decide_eq_true_eq, bne_iff_ne] at lengths
  obtain ⟨⟨⟨category, distinct⟩, fastOwn⟩, slowOwn⟩ := lengths
  have value {name : String} (own : signature.parameters.any (isLength name) = true) :
      ∃ i : Int, (resolve signature node).values.get? name = some (.int i) ∧ 1 ≤ i ∧ i ≤ 500 := by
    obtain ⟨parameter, inside, length⟩ := List.any_eq_true.1 own
    have called : parameter.name = name := by
      simp only [isLength, Bool.and_eq_true, beq_iff_eq] at length
      exact length.1.1.1.1
    have silent : complaint? (settle signature node parameter) = none := by
      rw [complaint?_settle]
      exact List.filterMap_eq_nil_iff.1 clean parameter inside
    cases settled : settle signature node parameter with
    | error error =>
      rw [settled] at silent
      exact nomatch silent
    | ok setting =>
      obtain ⟨i, rfl, range⟩ := exists_length length settled
      exact ⟨i, called ▸ get?_resolve_values distinct inside settled, range⟩
  obtain ⟨fast, first, fastRange⟩ := value fastOwn
  obtain ⟨slow, second, slowRange⟩ := value slowOwn
  refine ⟨fast, slow, first, second, ?_⟩
  rw [nodeErrors_of_lookup? kind named found category, errors_resolve, if_pos clean, ruleFault,
    Signature.complaint?, rule_of_name member name, Option.bind_some,
    ← fastBelowSlow_eq_none_iff first second fastRange slowRange]
  cases Catalogue.Builtin.fastBelowSlow (resolve signature node).values with
  | none => simp
  | some complaint => simp

/-- The values and errors of a signature whose parameters have different names: one value or one
error for each parameter in declared order, and an error of the rule exactly when it rejects the
complete values.  The convergence divergence passes when its fast length is below its slow one. -/
theorem resolve_exact (signature : Signature) (node : Graph.Node)
    (distinct : (signature.parameters.map Parameter.name).Nodup) :
    (resolve signature node).values.entries = signature.parameters.filterMap (setting? node) ∧
    (faults signature node = [] →
      (resolve signature node).values.entries.map Prod.fst =
        signature.parameters.map Parameter.name) ∧
    (resolve signature node).errors =
      (if faults signature node = [] then ruleFault signature node (resolve signature node).values
      else faults signature node) ∧
    (∀ complaint, .ruleBroken node.id signature.name complaint ∈ (resolve signature node).errors ↔
      faults signature node = [] ∧
        signature.complaint? (resolve signature node).values = some complaint) ∧
    ∀ id, node.kind = .indicator → node.indicatorId? = some id →
      builtin.lookup? id = some signature → signature.name = "macd" →
      faults signature node = [] →
      ∃ fast slow : Int,
        (resolve signature node).values.get? "fastLength" = some (.int fast) ∧
        (resolve signature node).values.get? "slowLength" = some (.int slow) ∧
        (nodeErrors builtin node = [] ↔ fast < slow) := by
  have entries : (resolve signature node).values.entries = _ := entries_resolve distinct
  refine ⟨entries, fun clean => ?_, errors_resolve, fun _ => ruleBroken_mem_iff, ?_⟩
  · rw [entries, names_of_faults clean]
  · intro id kind named found name clean
    exact nodeErrors_eq_nil_iff_of_name kind named found name clean

/-- A convergence divergence whose fast length is above its slow one. -/
def crossedLengths : Graph.Node where
  id := "trend"
  kind := .indicator
  label := "Trend"
  config := [("fastLength", .integer 30), ("indicatorId", .string "macd"),
    ("signalLength", .string " 9 "), ("slowLength", .integer 26)]

theorem resolve_exact_crossedLengths :
    ∃ signature, builtin.lookup? "macd" = some signature ∧
      (signature.parameters.map Parameter.name).Nodup ∧ faults signature crossedLengths = [] ∧
      (resolve signature crossedLengths).values.entries =
        [("source", .source "close"), ("fastLength", .int 30), ("slowLength", .int 26),
          ("signalLength", .int 9)] ∧
      nodeErrors builtin crossedLengths ≠ [] := by
  have known : (builtin.lookup? "macd").any (fun signature => hasLengths signature &&
      signature.name == "macd" && (faults signature crossedLengths).isEmpty &&
      signature.parameters.filterMap (setting? crossedLengths) ==
        [("source", .source "close"), ("fastLength", .int 30), ("slowLength", .int 26),
          ("signalLength", .int 9)]) = true := by decide +kernel
  obtain ⟨signature, found, facts⟩ := (Option.any_eq_true _ _).1 known
  simp only [hasLengths, Bool.and_eq_true, decide_eq_true_eq, beq_iff_eq, List.isEmpty_iff] at facts
  obtain ⟨⟨⟨⟨⟨⟨-, distinct⟩, -⟩, -⟩, name⟩, clean⟩, entries⟩ := facts
  obtain ⟨values, -, -, -, passes⟩ := resolve_exact signature crossedLengths distinct
  rw [entries] at values
  obtain ⟨fast, slow, first, second, verdict⟩ := passes "macd" rfl rfl found name clean
  refine ⟨signature, found, distinct, clean, values, fun accepted => ?_⟩
  have above := verdict.1 accepted
  rw [Settings.get?, values] at first second
  obtain rfl : 30 = fast := Setting.int.inj (Option.some.inj first)
  obtain rfl : 26 = slow := Setting.int.inj (Option.some.inj second)
  omega

end StrategyCompiler.Validation
