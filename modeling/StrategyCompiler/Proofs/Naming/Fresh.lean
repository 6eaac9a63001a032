import Mathlib.Data.List.Dedup
import Mathlib.Data.List.Nodup
import Mathlib.Data.List.Perm.Subperm
import Mathlib.Data.Nat.Basic
import StrategyCompiler.Naming.Fresh
/-!
The search for free names always finds one.  From the second candidate on, candidates carry
different numbers and so have no name in common; each taken name rules out one of them at most.
-/

set_option autoImplicit false

namespace StrategyCompiler.Naming

theorem areFree_iff {taken names : List String} :
    areFree taken names = true ↔ ∀ name ∈ names, name ∉ taken := by
  simp [areFree]

private theorem areFree_eq_false_iff {taken names : List String} :
    areFree taken names = false ↔ ∃ name ∈ names, name ∈ taken := by
  simp [areFree]

/-- From an index on, no two candidates share a name. -/
def Separate (first : Nat) (candidate : Nat → List String) : Prop :=
  ∀ i j, first ≤ i → first ≤ j → ∀ name, name ∈ candidate i → name ∈ candidate j → i = j

section Search

variable (taken : List String) {candidate : Nat → List String}

/-- Candidates before the result are not free, and the result is unless all that were allowed have
been tried. -/
private theorem firstFreeFrom_spec (candidate : Nat → List String) (fuel start : Nat) :
    start ≤ firstFreeFrom taken candidate fuel start ∧
      (∀ index, start ≤ index → index < firstFreeFrom taken candidate fuel start →
        areFree taken (candidate index) = false) ∧
      (firstFreeFrom taken candidate fuel start = start + fuel ∨
        firstFreeFrom taken candidate fuel start < start + fuel ∧
          areFree taken (candidate (firstFreeFrom taken candidate fuel start)) = true) := by
  induction fuel generalizing start with
  | zero =>
    refine ⟨Nat.le_refl _, ?_, .inl rfl⟩
    intro index lower upper
    exact absurd upper (Nat.not_lt.2 lower)
  | succ fuel ih =>
    rw [firstFreeFrom]
    split
    · rename_i free
      refine ⟨Nat.le_refl _, ?_, .inr ⟨by omega, free⟩⟩
      intro index lower upper
      exact absurd upper (Nat.not_lt.2 lower)
    · rename_i blocked
      obtain ⟨above, before, result⟩ := ih (start + 1)
      refine ⟨by omega, ?_, ?_⟩
      · intro index lower upper
        by_cases here : index = start
        · subst here
          simpa using blocked
        · exact before index (by omega) upper
      · rcases result with full | ⟨inside, free⟩
        · exact .inl (by omega)
        · exact .inr ⟨by omega, free⟩

theorem not_areFree_of_lt_firstFree {index : Nat} (earlier : index < firstFree taken candidate) :
    areFree taken (candidate index) = false :=
  (firstFreeFrom_spec taken candidate (taken.length + 2) 0).2.1 index (Nat.zero_le _) earlier

theorem blocked_le {first count : Nat} (separate : Separate first candidate)
    (blocked : ∀ offset < count, areFree taken (candidate (first + offset)) = false) :
    count ≤ taken.dedup.length := by
  have ruledOut : ∀ offset, ∃ name, offset < count →
      name ∈ candidate (first + offset) ∧ name ∈ taken := by
    intro offset
    by_cases inside : offset < count
    · obtain ⟨name, own, member⟩ := areFree_eq_false_iff.1 (blocked offset inside)
      exact ⟨name, fun _ => ⟨own, member⟩⟩
    · exact ⟨"", fun h => absurd h inside⟩
  choose blocker blocks using ruledOut
  have nodup : ((List.range count).map blocker).Nodup := by
    refine List.Nodup.map_on ?_ List.nodup_range
    intro i left j right equal
    have own := (blocks i (List.mem_range.1 left)).1
    have other := (blocks j (List.mem_range.1 right)).1
    have := separate (first + i) (first + j) (by omega) (by omega) _ own (equal ▸ other)
    omega
  have subset : (List.range count).map blocker ⊆ taken.dedup := by
    intro name member
    obtain ⟨offset, inside, rfl⟩ := List.mem_map.1 member
    exact List.mem_dedup.2 (blocks offset (List.mem_range.1 inside)).2
  have := (nodup.subperm subset).length_le
  rwa [List.length_map, List.length_range] at this

private theorem exists_free {first : Nat} (separate : Separate first candidate) :
    ∃ index, first ≤ index ∧ index ≤ first + taken.length ∧
      areFree taken (candidate index) = true := by
  by_contra blockedAll
  push Not at blockedAll
  have count : taken.length + 1 ≤ taken.dedup.length := by
    apply blocked_le taken separate
    intro offset inside
    simpa using blockedAll (first + offset) (by omega) (by omega)
  have := (List.dedup_sublist taken).length_le
  omega

private theorem areFree_firstFree (separate : Separate 2 candidate) :
    areFree taken (candidate (firstFree taken candidate)) = true := by
  obtain ⟨-, -, full | ⟨-, free⟩⟩ :=
    firstFreeFrom_spec taken candidate (taken.length + 2) 0
  · obtain ⟨index, -, upper, free⟩ := exists_free taken separate
    by_cases last : index = firstFree taken candidate
    · rwa [last] at free
    · have earlier : index < firstFree taken candidate := by
        unfold firstFree at last ⊢
        omega
      have blocked := not_areFree_of_lt_firstFree taken earlier
      simp [free] at blocked
  · exact free

end Search

/-! ### Numbered names -/

private theorem toList_numbered (base : String) (number : Nat) :
    (numbered base number).toList = base.toList ++ '_' :: Nat.toDigits 10 number := by
  simp [numbered]

theorem isDigit_of_mem_toDigits {number : Nat} {c : Char} (member : c ∈ Nat.toDigits 10 number) :
    c.isDigit = true :=
  Nat.isDigit_of_mem_toDigits (by decide) (by decide) member

/-- A text that goes on with something else than a digit. -/
def EndsNumber (tail : List Char) : Prop := ∀ c ∈ tail.head?, c.isDigit = false

private theorem takeWhile_toDigits_append {tail : List Char} (ends : EndsNumber tail)
    (number : Nat) :
    (Nat.toDigits 10 number ++ tail).takeWhile Char.isDigit = Nat.toDigits 10 number := by
  rw [List.takeWhile_append_of_pos fun c member => isDigit_of_mem_toDigits member]
  cases tail with
  | nil => simp
  | cons c tail => simp [ends c rfl]

private theorem toDigits_append_inj {i j : Nat} {left right : List Char}
    (leftEnds : EndsNumber left)
    (rightEnds : EndsNumber right)
    (equal : Nat.toDigits 10 i ++ left = Nat.toDigits 10 j ++ right) : i = j := by
  have digits := congrArg (List.takeWhile Char.isDigit) equal
  rw [takeWhile_toDigits_append leftEnds, takeWhile_toDigits_append rightEnds] at digits
  simpa using congrArg (Nat.ofDigitChars 10 · 0) digits

theorem numbered_append_inj {base : String} {i j : Nat} {left right : String}
    (leftEnds : EndsNumber left.toList) (rightEnds : EndsNumber right.toList)
    (equal : numbered base i ++ left = numbered base j ++ right) : i = j := by
  have chars := congrArg String.toList equal
  simp only [String.toList_append, toList_numbered, List.append_assoc, List.cons_append] at chars
  exact toDigits_append_inj leftEnds rightEnds (List.cons.inj (List.append_cancel_left chars)).2

/-! ### Names of inputs and nodes -/

def endings (outputs : List String) : List String :=
  if outputs.isEmpty then [""] else outputs.map fun output => "_" ++ sanitize output

theorem expand_eq (outputs : List String) (stem : String) :
    expand outputs stem = (endings outputs).map (stem ++ ·) := by
  unfold expand endings
  split
  · simp
  · simp [String.append_assoc]

theorem endsNumber_of_mem_endings {outputs : List String} {ending : String}
    (member : ending ∈ endings outputs) : EndsNumber ending.toList := by
  unfold endings at member
  split at member
  · obtain rfl := List.mem_singleton.1 member
    simp [EndsNumber]
  · obtain ⟨output, -, rfl⟩ := List.mem_map.1 member
    intro c first
    obtain rfl : '_' = c := by simpa using first
    rfl

private theorem numberedStem_of_pos (base : String) {index : Nat} (positive : 0 < index) :
    numberedStem base index = numbered base (index + 1) := by
  simp [numberedStem, Nat.pos_iff_ne_zero.1 positive]

private theorem exists_numbered_nodeStem (base fragment : String) :
    ∃ front shift, ∀ index, 2 ≤ index →
      nodeStem base fragment index = numbered front (index + shift) := by
  by_cases empty : fragment = ""
  · refine ⟨base, 1, fun index lower => ?_⟩
    simp [nodeStem, empty, numberedStem_of_pos base (show 0 < index by omega)]
  · refine ⟨base ++ "_" ++ fragment, 0, fun index lower => ?_⟩
    have positive : 0 < index - 1 := by omega
    have nonzero : index ≠ 0 := by omega
    rw [nodeStem, if_neg (by simpa using empty), if_neg (by simpa using nonzero),
      numberedStem_of_pos _ positive]
    congr 1
    omega

private theorem separate_nodeStem (base fragment : String) (outputs : List String) :
    Separate 2 fun index => expand outputs (nodeStem base fragment index) := by
  obtain ⟨front, shift, stems⟩ := exists_numbered_nodeStem base fragment
  intro i j left right name own other
  simp only [expand_eq, List.mem_map] at own other
  obtain ⟨first, member, rfl⟩ := own
  obtain ⟨second, other, equal⟩ := other
  rw [stems i left, stems j right] at equal
  have := numbered_append_inj (endsNumber_of_mem_endings other)
    (endsNumber_of_mem_endings member) equal
  omega

private theorem separate_numberedStem (base : String) :
    Separate 1 fun index => [numberedStem base index] := by
  intro i j left right name own other
  have equal : numbered base (i + 1) ++ "" = numbered base (j + 1) ++ "" := by
    rw [← numberedStem_of_pos base left, ← numberedStem_of_pos base right,
      ← List.mem_singleton.1 own, ← List.mem_singleton.1 other]
  have := numbered_append_inj (by simp [EndsNumber]) (by simp [EndsNumber]) equal
  omega

theorem Separate.mono {first later : Nat} {candidate : Nat → List String}
    (separate : Separate first candidate) (le : first ≤ later) : Separate later candidate :=
  fun i j left right => separate i j (Nat.le_trans le left) (Nat.le_trans le right)

theorem freshName_not_mem (taken : List String) (base : String) : freshName taken base ∉ taken :=
  areFree_iff.1 (areFree_firstFree taken ((separate_numberedStem base).mono (by omega))) _
    (List.mem_singleton_self _)

theorem freshStem_not_mem (taken : List String) (base fragment : String) (outputs : List String) :
    ∀ name ∈ expand outputs (freshStem taken base fragment outputs), name ∉ taken :=
  areFree_iff.1 (areFree_firstFree taken (separate_nodeStem base fragment outputs))

end StrategyCompiler.Naming
