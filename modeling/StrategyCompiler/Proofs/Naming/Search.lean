import Mathlib.Data.List.Dedup
import StrategyCompiler.Proofs.Naming.Table
/-!
The search for free names as a loop without a bound.  It always ends, and rejects no more numbers
than there are taken names; what it ends with depends on the set of taken names alone.  Nodes that
are named one after the other leave exactly their names taken.
-/

set_option autoImplicit false

namespace StrategyCompiler.Naming

open Catalogue (Signature)
open StrategyCompiler.Graph (Node Placed)

/-! ### The loop -/

/-- The stem that numbers are put behind: the base, with the fragment of the node's id if it has
one. -/
def numberedFront (base fragment : String) : String :=
  if fragment = "" then base else base ++ "_" ++ fragment

section Loop

variable (taken outputs : List String)

def IsFree (stem : String) : Prop := ∀ name ∈ expand outputs stem, name ∉ taken

inductive Counts (front : String) : Nat → Nat → Prop
  | accept {number : Nat} : IsFree taken outputs (numbered front number) →
      Counts front number number
  | reject {number found : Nat} : ¬ IsFree taken outputs (numbered front number) →
      Counts front (number + 1) found → Counts front number found

/-- How a stem is claimed, and how many numbers are rejected before: it is the base, or else the
base with the fragment, or else the last of these with a number from two on. -/
inductive Claims (base fragment : String) : String → Nat → Prop
  | base : IsFree taken outputs base → Claims base fragment base 0
  | front : ¬ IsFree taken outputs base → IsFree taken outputs (numberedFront base fragment) →
      Claims base fragment (numberedFront base fragment) 0
  | number {rejected : Nat} : ¬ IsFree taken outputs base →
      ¬ IsFree taken outputs (numberedFront base fragment) →
      Counts taken outputs (numberedFront base fragment) 2 (rejected + 2) →
      Claims base fragment (numbered (numberedFront base fragment) (rejected + 2)) rejected

/-- The loop ends with a stem and with no other, after as many rejected numbers as there are taken
names, or fewer. -/
structure Ends (base fragment stem : String) : Prop where
  claims : ∃ rejected ≤ taken.dedup.length, Claims taken outputs base fragment stem rejected
  only : ∀ other rejected, Claims taken outputs base fragment other rejected → other = stem

end Loop

section Facts

variable {taken outputs : List String} {base fragment front stem : String}

private theorem areFree_expand_iff :
    areFree taken (expand outputs stem) = true ↔ IsFree taken outputs stem :=
  areFree_iff

private theorem areFree_expand_eq_false_iff :
    areFree taken (expand outputs stem) = false ↔ ¬ IsFree taken outputs stem := by
  rw [← areFree_expand_iff, Bool.not_eq_true]

private theorem counts_iff {start found : Nat} :
    Counts taken outputs front start found ↔
      start ≤ found ∧ IsFree taken outputs (numbered front found) ∧
        ∀ number, start ≤ number → number < found →
          ¬ IsFree taken outputs (numbered front number) := by
  constructor
  · intro counts
    induction counts with
    | accept free =>
      refine ⟨Nat.le_refl _, free, ?_⟩
      intro number lower upper
      omega
    | @reject number found blocked _ ih =>
      obtain ⟨lower, free, before⟩ := ih
      refine ⟨by omega, free, ?_⟩
      intro other above below
      by_cases here : other = number
      · exact here ▸ blocked
      · exact before other (by omega) below
  · rintro ⟨lower, free, before⟩
    obtain ⟨steps, rfl⟩ := Nat.exists_eq_add_of_le lower
    induction steps generalizing start with
    | zero => exact .accept free
    | succ steps ih =>
      have blocked := before start (Nat.le_refl _) (by omega)
      have same : start + 1 + steps = start + (steps + 1) := by omega
      refine .reject blocked (same ▸ ih (by omega) (same ▸ free) ?_)
      intro number above below
      exact before number (by omega) (by omega)

theorem Counts.unique {start found other : Nat} (first : Counts taken outputs front start found)
    (second : Counts taken outputs front start other) : found = other := by
  obtain ⟨lower, free, before⟩ := counts_iff.1 first
  obtain ⟨low, clear, earlier⟩ := counts_iff.1 second
  by_contra different
  rcases Nat.lt_or_gt_of_ne different with less | more
  · exact earlier found lower less free
  · exact before other low more clear

theorem Claims.unique {other : String} {rejected count : Nat}
    (first : Claims taken outputs base fragment stem rejected)
    (second : Claims taken outputs base fragment other count) : other = stem := by
  cases first with
  | base free =>
    cases second with
    | base _ => rfl
    | front blocked _ => exact absurd free blocked
    | number blocked _ _ => exact absurd free blocked
  | front blocked free =>
    cases second with
    | base clear => exact absurd clear blocked
    | front _ _ => rfl
    | number _ closed _ => exact absurd free closed
  | number blocked closed counts =>
    cases second with
    | base clear => exact absurd clear blocked
    | front _ clear => exact absurd clear closed
    | number _ _ again => rw [counts.unique again]

/-! ### The end of the loop -/

private theorem nodeStem_zero (base fragment : String) : nodeStem base fragment 0 = base := by
  unfold nodeStem numberedStem
  split <;> rfl

private theorem nodeStem_front (nonempty : fragment ≠ "") (base : String) :
    nodeStem base fragment 1 = numberedFront base fragment := by
  rw [nodeStem, if_neg (by simpa using nonempty), numberedFront, if_neg nonempty]
  rfl

private theorem nodeStem_number (nonempty : fragment ≠ "") (base : String) (index : Nat) :
    nodeStem base fragment (index + 2) =
      numbered (numberedFront base fragment) (index + 2) := by
  rw [nodeStem, if_neg (by simpa using nonempty), numberedFront, if_neg nonempty]
  rfl

private theorem separate_numbered (front : String) (outputs : List String) :
    Separate 2 fun number => expand outputs (numbered front number) := by
  intro i j left right name own other
  simp only [expand_eq, List.mem_map] at own other
  obtain ⟨first, member, rfl⟩ := own
  obtain ⟨second, other, equal⟩ := other
  exact (numbered_append_inj (endsNumber_of_mem_endings other)
    (endsNumber_of_mem_endings member) equal).symm

private theorem Claims.rejected_le {rejected : Nat}
    (claims : Claims taken outputs base fragment stem rejected) :
    rejected ≤ taken.dedup.length := by
  cases claims with
  | base _ => exact Nat.zero_le _
  | front _ _ => exact Nat.zero_le _
  | number _ _ counts =>
    apply blocked_le taken (separate_numbered _ outputs)
    intro offset inside
    apply areFree_expand_eq_false_iff.2
    exact (counts_iff.1 counts).2.2 (2 + offset) (by omega) (by omega)

private theorem claims_freshStem (taken outputs : List String) (base fragment : String) :
    ∃ rejected, Claims taken outputs base fragment (freshStem taken base fragment outputs)
      rejected := by
  have free := freshStem_not_mem taken base fragment outputs
  have before : ∀ index, index < firstFree taken (fun index =>
      expand outputs (nodeStem base fragment index)) →
      ¬ IsFree taken outputs (nodeStem base fragment index) := fun index earlier =>
    areFree_expand_eq_false_iff.1 (not_areFree_of_lt_firstFree taken earlier)
  unfold freshStem at free ⊢
  generalize firstFree taken _ = last at free before ⊢
  cases last with
  | zero =>
    rw [nodeStem_zero] at free ⊢
    exact ⟨0, .base free⟩
  | succ last =>
    have blocked := before 0 (Nat.succ_pos last)
    rw [nodeStem_zero] at blocked
    by_cases empty : fragment = ""
    · subst empty
      have counts : Counts taken outputs (numberedFront base "") 2 (last + 2) := by
        refine counts_iff.2 ⟨by omega, free, fun number lower upper => ?_⟩
        obtain ⟨index, rfl⟩ := Nat.exists_eq_add_of_le' lower
        exact before (index + 1) (by omega)
      exact ⟨last, .number blocked blocked counts⟩
    · cases last with
      | zero =>
        rw [nodeStem_front empty] at free ⊢
        exact ⟨0, .front blocked free⟩
      | succ last =>
        have closed := before 1 (by omega)
        rw [nodeStem_front empty] at closed
        rw [nodeStem_number empty] at free ⊢
        refine ⟨last, .number blocked closed (counts_iff.2 ⟨by omega, free, ?_⟩)⟩
        intro number lower upper
        obtain ⟨index, rfl⟩ := Nat.exists_eq_add_of_le' lower
        exact nodeStem_number empty base index ▸ before (index + 2) (by omega)

private theorem ends_freshStem (taken outputs : List String) (base fragment : String) :
    Ends taken outputs base fragment (freshStem taken base fragment outputs) := by
  obtain ⟨rejected, claims⟩ := claims_freshStem taken outputs base fragment
  exact ⟨⟨rejected, claims.rejected_le, claims⟩, fun _ _ other => claims.unique other⟩

private theorem freshName_eq_freshStem (taken : List String) (base : String) :
    freshName taken base = freshStem taken base "" [] := rfl

/-! ### Taken names as a set -/

theorem Claims.congr {other : List String} (same : ∀ name, name ∈ taken ↔ name ∈ other)
    {rejected : Nat} (claims : Claims taken outputs base fragment stem rejected) :
    Claims other outputs base fragment stem rejected := by
  have free {stem : String} : IsFree taken outputs stem ↔ IsFree other outputs stem := by
    unfold IsFree
    simp only [same]
  cases claims with
  | base clear => exact .base (free.1 clear)
  | front blocked clear => exact .front (mt free.2 blocked) (free.1 clear)
  | number blocked closed counts =>
    refine .number (mt free.2 blocked) (mt free.2 closed) ?_
    rw [counts_iff] at counts ⊢
    simp only [← free]
    exact counts

private theorem freshStem_congr {other : List String} (same : ∀ name, name ∈ taken ↔ name ∈ other)
    (base fragment : String) (outputs : List String) :
    freshStem taken base fragment outputs = freshStem other base fragment outputs := by
  obtain ⟨rejected, claims⟩ := claims_freshStem taken outputs base fragment
  exact (ends_freshStem other outputs base fragment).only _ _ (claims.congr same)

end Facts

section Nodes

variable (catalogue : Catalogue)

def takenBehind (taken : List String) (order : List Placed) : List String :=
  (nameNodes catalogue taken order).flatMap (fun entry => entry.2.identifiers) ++ taken

variable {catalogue} {placed : Placed}

private theorem nameNodes_cons_of_unnamed (named : namedOutputs? catalogue placed.node = none)
    (taken : List String) (order : List Placed) :
    nameNodes catalogue taken (placed :: order) = nameNodes catalogue taken order := by
  rw [nameNodes, named]

private theorem nameNodes_cons_of_named {outputs : List String}
    (named : namedOutputs? catalogue placed.node = some outputs) (taken : List String)
    (order : List Placed) :
    nameNodes catalogue taken (placed :: order) =
      (placed.position, bindNode taken placed.node outputs) ::
        nameNodes catalogue ((bindNode taken placed.node outputs).identifiers ++ taken) order := by
  rw [nameNodes, named]

private theorem nameNodes_congr {taken other : List String}
    (same : ∀ name, name ∈ taken ↔ name ∈ other)
    (order : List Placed) : nameNodes catalogue taken order = nameNodes catalogue other order := by
  induction order generalizing taken other with
  | nil => rfl
  | cons placed rest ih =>
    cases named : namedOutputs? catalogue placed.node with
    | none =>
      rw [nameNodes_cons_of_unnamed named, nameNodes_cons_of_unnamed named]
      exact ih same
    | some outputs =>
      have binding : bindNode taken placed.node outputs = bindNode other placed.node outputs := by
        unfold bindNode
        rw [freshStem_congr same]
      rw [nameNodes_cons_of_named named, nameNodes_cons_of_named named, binding]
      congr 1
      apply ih
      intro name
      rw [List.mem_append, List.mem_append, same name]

/-- Nodes that come later find the names of earlier ones taken, and no others besides those that
were taken at first. -/
private theorem nameNodes_append (taken : List String) (front back : List Placed) :
    nameNodes catalogue taken (front ++ back) =
      nameNodes catalogue taken front ++
        nameNodes catalogue (takenBehind catalogue taken front) back := by
  induction front generalizing taken with
  | nil => rfl
  | cons placed rest ih =>
    rw [takenBehind, List.cons_append]
    cases named : namedOutputs? catalogue placed.node with
    | none =>
      rw [nameNodes_cons_of_unnamed named, nameNodes_cons_of_unnamed named]
      exact ih taken
    | some outputs =>
      rw [nameNodes_cons_of_named named, nameNodes_cons_of_named named, List.cons_append, ih]
      congr 2
      apply nameNodes_congr
      intro name
      rw [takenBehind]
      simp only [List.flatMap_cons, List.mem_append]
      tauto

end Nodes

/-- The search for the names of nodes and of inputs ends with the first candidate whose names are
all free.  Then the names that were given, and no others, are taken in addition. -/
theorem search_exact (taken : List String) (base : String) :
    (∀ id outputs, Ends taken outputs base (idFragment id)
      (freshStem taken base (idFragment id) outputs)) ∧
    Ends taken [] base "" (freshName taken base) ∧
    (∀ node outputs, (bindNode taken node outputs).identifiers =
      expand outputs (freshStem taken (nodeBase node) (idFragment node.id) outputs)) ∧
    (∀ catalogue front back, nameNodes catalogue taken (front ++ back) =
      nameNodes catalogue taken front ++
        nameNodes catalogue (takenBehind catalogue taken front) back) ∧
    ∀ signature parameters name, name ∈ (nameInputs signature taken parameters).2 ↔
      name ∈ (nameInputs signature taken parameters).1.map Input.name ∨ name ∈ taken := by
  refine ⟨fun id outputs => ends_freshStem taken outputs base (idFragment id), ?_,
    identifiers_bindNode taken, fun _ => nameNodes_append taken,
    fun signature => nameInputs_taken signature taken⟩
  rw [freshName_eq_freshStem]
  exact ends_freshStem taken [] base ""

end StrategyCompiler.Naming
