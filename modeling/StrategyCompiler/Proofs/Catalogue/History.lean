import Mathlib.Data.Finset.Card
import Mathlib.Data.Finset.Dedup
import Mathlib.Data.List.Find
import StrategyCompiler.Catalogue.Builtin
import StrategyCompiler.Naming.Table
/-!
What a catalogue holds after any calls that register functions and aliases.  The signatures, the
positions of their names and the aliases answer like a plain record of the calls: a name stands for
the signature registered last under it, and an alias for the name it was given last.
-/

set_option autoImplicit false

namespace StrategyCompiler.Catalogue

inductive Change
  | register (signature : Signature)
  | withAlias (newName name : String)

namespace Change

def name? : Change → Option String
  | register signature => some signature.name
  | withAlias _ _ => none

end Change

def apply (catalogue : Catalogue) : Change → Catalogue
  | .register signature => catalogue.register signature
  | .withAlias newName name => catalogue.withAlias newName name

/-- The calls made on a catalogue that was empty at first, the newest in front. -/
abbrev History := List Change

namespace History

def catalogue : History → Catalogue
  | [] => empty
  | change :: before => (catalogue before).apply change

/-- The names that were registered, in the order in which each came first. -/
def names : History → List String
  | [] => []
  | .register signature :: before =>
    if signature.name ∈ names before then names before else names before ++ [signature.name]
  | .withAlias _ _ :: before => names before

def latest? : History → String → Option Signature
  | [], _ => none
  | .register signature :: before, name =>
    if signature.name = name then some signature else latest? before name
  | .withAlias _ _ :: before, name => latest? before name

/-- The name that an alias was given last, by a call that found the name registered. -/
def target? : History → String → Option String
  | [], _ => none
  | .register _ :: before, key => target? before key
  | .withAlias newName name :: before, key =>
    if Text.lower name ∈ names before ∧ Text.lower newName = key then some (Text.lower name)
    else target? before key

def resolved (history : History) (key : String) : String := (target? history key).getD key

/-- Whether none of some calls, made behind others, gives an alias a name. -/
def Spares (before : History) (key : String) : History → Prop
  | [] => True
  | .register _ :: earlier => Spares before key earlier
  | .withAlias newName name :: earlier =>
    (Text.lower newName = key → Text.lower name ∉ names (earlier ++ before)) ∧
      Spares before key earlier

/-! ### The record of the calls -/

private theorem nodup_names (history : History) : (names history).Nodup := by
  induction history with
  | nil => exact List.nodup_nil
  | cons change before ih =>
    cases change with
    | withAlias newName name => exact ih
    | register signature =>
      rw [names]
      split
      · exact ih
      · rename_i fresh
        exact List.concat_eq_append ▸ ih.concat fresh

private theorem registered_names (signature : Signature) (before : History) :
    (Change.register signature :: before).filterMap Change.name? =
      signature.name :: before.filterMap Change.name? := rfl

private theorem mem_names {history : History} {name : String} :
    name ∈ names history ↔ name ∈ history.filterMap Change.name? := by
  induction history with
  | nil => exact Iff.rfl
  | cons change before ih =>
    cases change with
    | withAlias newName other => exact ih
    | register signature =>
      rw [names, registered_names, List.mem_cons, ← ih]
      split
      · rename_i known
        exact ⟨.inr, Or.rec (fun same => same ▸ known) id⟩
      · rw [List.mem_append, List.mem_singleton, or_comm]

private theorem length_names (history : History) :
    (names history).length = (history.filterMap Change.name?).toFinset.card := by
  rw [← List.toFinset_card_of_nodup (nodup_names history)]
  congr 1
  ext name
  rw [List.mem_toFinset, List.mem_toFinset, mem_names]

private theorem target?_mem {history : History} {key name : String}
    (given : target? history key = some name) : name ∈ names history := by
  induction history with
  | nil => exact absurd given (by simp [target?])
  | cons change before ih =>
    cases change with
    | register signature =>
      have known := ih given
      rw [names]
      split
      · exact known
      · exact List.mem_append_left _ known
    | withAlias newName other =>
      rw [target?] at given
      split at given
      · rename_i accepted
        exact Option.some.inj given ▸ accepted.1
      · exact ih given

private theorem latest?_eq_some {history : History} {name : String} {signature : Signature}
    (found : latest? history name = some signature) :
    signature.name = name ∧ name ∈ names history := by
  induction history with
  | nil => exact absurd found (by simp [latest?])
  | cons change before ih =>
    cases change with
    | withAlias newName other => exact ih found
    | register newest =>
      rw [mem_names, registered_names, List.mem_cons, ← mem_names]
      rw [latest?] at found
      split at found
      · rename_i same
        exact ⟨Option.some.inj found ▸ same, .inl same.symm⟩
      · exact (ih found).imp_right .inr

private theorem target?_append {before later : History} {key : String}
    (spared : Spares before key later) :
    target? (later ++ before) key = target? before key := by
  induction later with
  | nil => rfl
  | cons change earlier ih =>
    cases change with
    | register signature => exact ih spared
    | withAlias newName name =>
      rw [List.cons_append, target?, if_neg fun taken => spared.1 taken.2 taken.1]
      exact ih spared.2

/-! ### The catalogue against the record -/

private theorem getElem?_append_singleton {names : List String} {last name : String}
    {position : Nat} : (names ++ [last])[position]? = some name ↔
      names[position]? = some name ∨ position = names.length ∧ last = name := by
  rw [List.getElem?_append]
  split
  · rename_i inside
    exact ⟨.inl, fun either => either.resolve_right fun ends => absurd ends.1 (Nat.ne_of_lt inside)⟩
  · rename_i outside
    rw [List.getElem?_eq_none (Nat.le_of_not_lt outside), List.getElem?_singleton]
    by_cases last : position = names.length
    · simp [last]
    · have beyond : position - names.length ≠ 0 := by omega
      simp [last, beyond]

structure Holds (history : History) (catalogue : Catalogue) : Prop where
  signatures : catalogue.signatures.map some = (names history).map (latest? history)
  positions : ∀ name position,
    catalogue.position? name = some position ↔ (names history)[position]? = some name
  aliases : ∀ key,
    (catalogue.aliases.find? fun entry => entry.1 == key).map Prod.snd = target? history key
  targets : ∀ entry ∈ catalogue.aliases, entry.2 ∈ names history

namespace Holds

variable {history : History} {catalogue : Catalogue} (holds : Holds history catalogue)
include holds

theorem length : catalogue.signatures.length = (names history).length := by
  simpa using congrArg List.length holds.signatures

private theorem getElem? {name : String} {position : Nat}
    (stands : (names history)[position]? = some name) :
    ∃ signature, catalogue.signatures[position]? = some signature ∧
      latest? history name = some signature := by
  have both := congrArg (fun slots => slots[position]?) holds.signatures
  simp only [List.getElem?_map, stands, Option.map_some] at both
  obtain ⟨signature, found, same⟩ := Option.map_eq_some_iff.1 both
  exact ⟨signature, found, same.symm⟩

private theorem names_eq : catalogue.signatures.map Signature.name = names history := by
  refine List.ext_getElem? fun position => ?_
  cases stands : (names history)[position]? with
  | none => simpa [holds.length] using stands
  | some name =>
    obtain ⟨signature, found, latest⟩ := holds.getElem? stands
    rw [List.getElem?_map, found, Option.map_some, (latest?_eq_some latest).1]

private theorem position?_isSome {name : String} :
    (catalogue.position? name).isSome = true ↔ name ∈ names history := by
  rw [Option.isSome_iff_exists, List.mem_iff_getElem?]
  exact exists_congr fun position => holds.positions name position

theorem defines {name : String} :
    catalogue.defines name = true ↔ Text.lower name ∈ names history :=
  holds.position?_isSome

theorem resolveAlias (key : String) : catalogue.resolveAlias key = resolved history key := by
  rw [Catalogue.resolveAlias, resolved, ← holds.aliases key]
  cases catalogue.aliases.find? fun entry => entry.1 == key <;> rfl

theorem find (name : String) :
    ((catalogue.position? name).bind fun position => catalogue.signatures[position]?) =
      latest? history name := by
  cases entered : catalogue.position? name with
  | some position =>
    obtain ⟨signature, found, latest⟩ := holds.getElem? ((holds.positions name position).1 entered)
    rw [Option.bind_some, found, latest]
  | none =>
    cases latest : latest? history name with
    | none => rfl
    | some signature =>
      have known := holds.position?_isSome.2 (latest?_eq_some latest).2
      rw [entered] at known
      exact absurd known (by simp)

theorem lookup? (text : String) :
    catalogue.lookup? text = latest? history (resolved history (Text.lower (Text.trim text))) := by
  rw [Catalogue.lookup?, holds.resolveAlias, holds.find]

end Holds

theorem Holds.empty : Holds [] empty where
  signatures := rfl
  positions name position := by simp [Catalogue.empty, position?, names]
  aliases key := rfl
  targets entry member := absurd member List.not_mem_nil

private theorem latest?_register_self (signature : Signature) (history : History) :
    latest? (.register signature :: history) signature.name = some signature := if_pos rfl

private theorem latest?_register_of_ne {signature : Signature} {name : String}
    (other : signature.name ≠ name) (history : History) :
    latest? (.register signature :: history) name = latest? history name := if_neg other

section Registered

variable {history : History} {catalogue : Catalogue} (holds : Holds history catalogue)
  {signature : Signature}
include holds

theorem Holds.replaced {position : Nat}
    (entered : catalogue.position? signature.name = some position) :
    Holds (.register signature :: history)
      { catalogue with signatures := catalogue.signatures.set position signature } := by
  have stands := (holds.positions _ _).1 entered
  have same : names (.register signature :: history) = names history :=
    if_pos (List.mem_of_getElem? stands)
  refine ⟨?_, same ▸ holds.positions, holds.aliases, same ▸ holds.targets⟩
  refine List.ext_getElem? fun place => ?_
  have old := congrArg (fun slots => slots[place]?) holds.signatures
  simp only [List.getElem?_map] at old
  rw [same, List.getElem?_map, List.getElem?_map, List.getElem?_set]
  by_cases here : position = place
  · have inside : position < catalogue.signatures.length :=
      holds.length ▸ (List.getElem?_eq_some_iff.1 stands).1
    rw [if_pos here, if_pos inside, ← here, stands, Option.map_some, Option.map_some,
      latest?_register_self]
  · rw [if_neg here, old]
    cases found : (names history)[place]? with
    | none => rfl
    | some name =>
      have other : signature.name ≠ name := by
        rintro rfl
        refine here ((List.getElem?_inj ?_ (nodup_names history)).1 (stands.trans found.symm))
        exact (List.getElem?_eq_some_iff.1 stands).1
      rw [Option.map_some, Option.map_some, latest?_register_of_ne other]

private theorem Holds.appended (entered : catalogue.position? signature.name = none) :
    Holds (.register signature :: history)
      { catalogue with
        signatures := catalogue.signatures ++ [signature]
        positions := (signature.name, catalogue.signatures.length) :: catalogue.positions } := by
  have fresh : signature.name ∉ names history := fun known => by
    have defined := holds.position?_isSome.2 known
    rw [entered] at defined
    exact absurd defined (by simp)
  have longer : names (.register signature :: history) = names history ++ [signature.name] :=
    if_neg fresh
  refine ⟨?_, fun name position => ?_, holds.aliases, fun entry member => ?_⟩
  · rw [longer, List.map_append, List.map_append, holds.signatures, List.map_singleton,
      List.map_singleton, latest?_register_self]
    congr 1
    refine List.map_congr_left fun name member => (latest?_register_of_ne ?_ history).symm
    rintro rfl
    exact fresh member
  · rw [longer, getElem?_append_singleton, ← holds.positions name position, ← holds.length,
      position?, List.find?_cons]
    by_cases own : signature.name = name
    · subst own
      simp [entered, eq_comm]
    · simp [beq_eq_false_iff_ne.2 own, own, position?]
  · rw [longer]
    exact List.mem_append_left _ (holds.targets entry member)

theorem Holds.register (signature : Signature) :
    Holds (.register signature :: history) (catalogue.register signature) := by
  rw [Catalogue.register]
  cases entered : catalogue.position? signature.name with
  | some position => exact holds.replaced entered
  | none => exact holds.appended entered

end Registered

theorem Holds.withAlias {history : History} {catalogue : Catalogue}
    (holds : Holds history catalogue) (newName name : String) :
    Holds (.withAlias newName name :: history) (catalogue.withAlias newName name) := by
  by_cases known : Text.lower name ∈ names history
  · have changed : catalogue.withAlias newName name =
        { catalogue with
          aliases := (Text.lower newName, Text.lower name) ::
            catalogue.aliases.filter fun entry => entry.1 != Text.lower newName } :=
      if_pos (holds.defines.2 known)
    rw [changed]
    refine ⟨holds.signatures, holds.positions, fun key => ?_, fun entry member => ?_⟩
    · rw [target?, List.find?_cons]
      by_cases own : Text.lower newName = key
      · simp [own, known]
      · rw [beq_eq_false_iff_ne.2 own, if_neg fun both => own both.2, ← holds.aliases key,
          List.find?_filter]
        refine congrArg (Option.map Prod.snd) (List.find?_congr fun entry _ => ?_)
        by_cases this : entry.1 = key
        · simp [this, Ne.symm own]
        · simp [this]
    · rcases List.mem_cons.1 member with rfl | old
      · exact known
      · exact holds.targets entry (List.mem_of_mem_filter old)
  · have same : catalogue.withAlias newName name = catalogue :=
      if_neg fun defined => known (holds.defines.1 defined)
    rw [same]
    exact ⟨holds.signatures, holds.positions,
      fun key => (holds.aliases key).trans (if_neg fun both => known both.1).symm, holds.targets⟩

private theorem holds_catalogue (history : History) : Holds history (catalogue history) := by
  induction history with
  | nil => exact Holds.empty
  | cons change before ih =>
    cases change with
    | register signature => exact ih.register signature
    | withAlias newName name => exact ih.withAlias newName name

/-! ### What a catalogue answers -/

private theorem exists_latest {history : History} {name : String} (known : name ∈ names history) :
    ∃ signature, latest? history name = some signature := by
  have holds := holds_catalogue history
  obtain ⟨position, stands⟩ := List.mem_iff_getElem?.1 known
  obtain ⟨signature, -, latest⟩ := holds.getElem? stands
  exact ⟨signature, latest⟩

/-- A catalogue answers as the calls that led to it say: its names are distinct and stand where the
positions say, in the order in which they were first registered, each with its last signature; an
alias names a registered function, and keeps its name until a call gives it another one. -/
structure Faithful (history : History) : Prop where
  distinct : ((catalogue history).signatures.map Signature.name).Nodup
  positions : ∀ name position, (catalogue history).position? name = some position ↔
    ((catalogue history).signatures.map Signature.name)[position]? = some name
  size : (catalogue history).size = (history.filterMap Change.name?).toFinset.card
  signatures : (catalogue history).signatures.map some = (names history).map (latest? history)
  targets : ∀ entry ∈ (catalogue history).aliases,
    entry.2 ∈ (catalogue history).signatures.map Signature.name
  accepted : ∀ name, (catalogue history).defines name = true ↔
    Text.lower name ∈ history.filterMap Change.name?
  rejected : ∀ newName name, (catalogue history).defines name = false →
    (catalogue history).withAlias newName name = catalogue history
  found : ∀ text, (catalogue history).lookup? text =
    latest? history (resolved history (Text.lower (Text.trim text)))
  kept : ∀ later before newName name, history = later ++ .withAlias newName name :: before →
    Text.trim newName = newName → (catalogue before).defines name = true →
    Spares (.withAlias newName name :: before) (Text.lower newName) later →
    ∃ signature, (catalogue history).lookup? newName = some signature ∧
      latest? history (Text.lower name) = some signature

private theorem lookup?_alias {later before : History} {newName name : String}
    (bare : Text.trim newName = newName) (accepted : (catalogue before).defines name = true)
    (spared : Spares (.withAlias newName name :: before) (Text.lower newName) later) :
    ∃ signature,
      (catalogue (later ++ .withAlias newName name :: before)).lookup? newName = some signature ∧
        latest? (later ++ .withAlias newName name :: before) (Text.lower name) =
          some signature := by
  have known : Text.lower name ∈ names before := (holds_catalogue before).defines.1 accepted
  have given : target? (later ++ .withAlias newName name :: before) (Text.lower newName) =
      some (Text.lower name) := by
    rw [target?_append spared, target?, if_pos ⟨known, rfl⟩]
  obtain ⟨signature, latest⟩ := exists_latest (target?_mem given)
  refine ⟨signature, ?_, latest⟩
  rw [(holds_catalogue _).lookup?, bare, resolved, given, Option.getD_some, latest]

theorem faithful (history : History) : Faithful history := by
  have holds := holds_catalogue history
  refine
    { distinct := holds.names_eq ▸ nodup_names history
      positions := fun name position => holds.names_eq ▸ holds.positions name position
      size := ?_
      signatures := holds.signatures
      targets := fun entry member => holds.names_eq ▸ holds.targets entry member
      accepted := fun name => holds.defines.trans mem_names
      rejected := fun newName name unknown => if_neg (by rw [unknown]; exact Bool.false_ne_true)
      found := holds.lookup?
      kept := ?_ }
  · rw [Catalogue.size, holds.length, length_names]
  · rintro later before newName name rfl bare accepted spared
    exact lookup?_alias bare accepted spared

/-! ### Registered functions that an alias hides -/

def builtin : History :=
  (Builtin.aliases.map fun entry => Change.withAlias entry.1 entry.2).reverse ++
    (Builtin.windowedSignatures ++ Builtin.indicatorSignatures ++
      Builtin.operatorSignatures).reverse.map Change.register

private theorem catalogue_append (later before : History) :
    catalogue (later ++ before) = later.reverse.foldl Catalogue.apply (catalogue before) := by
  induction later with
  | nil => rfl
  | cons change earlier ih =>
    rw [List.cons_append, catalogue, ih, List.reverse_cons, List.foldl_append, List.foldl_cons,
      List.foldl_nil]

private theorem catalogue_builtin : catalogue builtin = Catalogue.builtin := by
  have registered (signatures : List Signature) :
      catalogue (signatures.reverse.map Change.register) =
        signatures.foldl Catalogue.register empty := by
    rw [← List.append_nil (List.map _ _), catalogue_append, ← List.map_reverse,
      List.reverse_reverse, List.foldl_map]
    rfl
  rw [builtin, catalogue_append, registered, List.reverse_reverse, List.foldl_map]
  rfl

/-- A function is found under its name right after it was registered, and selected by the nodes that
give the name, exactly when the name is no alias of another one. -/
theorem registered_found_iff (history : History) (signature : Signature)
    (lowered : Text.lower signature.name = signature.name)
    (bare : Text.trim signature.name = signature.name) :
    ((catalogue (.register signature :: history)).lookup? signature.name = some signature ∧
      ∀ node : Graph.Node, node.kind = .indicator → node.indicatorId? = some signature.name →
        Naming.signatureOf? (catalogue (.register signature :: history)) node = some signature) ↔
    resolved history signature.name = signature.name := by
  have found := (holds_catalogue (.register signature :: history)).lookup? signature.name
  have same : resolved (.register signature :: history) signature.name =
      resolved history signature.name := rfl
  rw [bare, lowered, same] at found
  constructor
  · rintro ⟨looked, -⟩
    exact (latest?_eq_some (found.symm.trans looked)).1.symm
  · intro stands
    have looked : (catalogue (.register signature :: history)).lookup? signature.name =
        some signature := by
      rw [found, stands, latest?_register_self]
    refine ⟨looked, fun node kind selects => ?_⟩
    rw [Naming.signatureOf?, if_pos (beq_iff_eq.2 kind), selects, Option.bind_some, looked]

/-- An average of one's own, under a name that is an alias from the start. -/
def ownAverage : Signature := Signature.ofCall "ma" .movingAverage "own.average"

/-- An oscillator of one's own, under a name that is free at the start. -/
def ownOscillator : Signature := Signature.ofCall "tsi" .oscillator "own.oscillator"

theorem registered_found_iff_ownOscillator :
    Text.lower ownOscillator.name = ownOscillator.name ∧
      Text.trim ownOscillator.name = ownOscillator.name ∧
      (Catalogue.builtin.register ownOscillator).lookup? ownOscillator.name =
        some ownOscillator := by
  have lowered : Text.lower ownOscillator.name = ownOscillator.name := by decide +kernel
  have bare : Text.trim ownOscillator.name = ownOscillator.name := by decide +kernel
  have free : resolved builtin ownOscillator.name = ownOscillator.name := by decide +kernel
  have found := ((registered_found_iff builtin ownOscillator lowered bare).2 free).1
  rw [catalogue, catalogue_builtin] at found
  exact ⟨lowered, bare, found⟩

/-- The alias known from the start hides a function that is registered under its name, also from the
nodes that give the name. -/
theorem ownAverage_hidden :
    ((Catalogue.builtin.register ownAverage).lookup? ownAverage.name).map Signature.name =
        some "sma" ∧
      (Catalogue.builtin.register ownAverage).lookup? ownAverage.name ≠ some ownAverage ∧
      (Naming.signatureOf? (Catalogue.builtin.register ownAverage)
        { id := "average", kind := .indicator, label := "Average",
          config := [("indicatorId", .string "ma")] }).map Signature.name = some "sma" := by
  have leads : ((Catalogue.builtin.register ownAverage).lookup? ownAverage.name).map
      Signature.name = some "sma" := by decide +kernel
  refine ⟨leads, fun found => ?_, by decide +kernel⟩
  rw [found] at leads
  exact absurd leads (by decide +kernel)

end History

end StrategyCompiler.Catalogue
