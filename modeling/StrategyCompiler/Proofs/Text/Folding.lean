import Mathlib.Data.List.DropRight
import StrategyCompiler.Proofs.Naming.Identifier
import StrategyCompiler.Text.Words
/-!
Texts that were folded.  A text that was trimmed and put in lower case, or a name in snake case,
does not change when it is folded again.
-/

set_option autoImplicit false

namespace StrategyCompiler.Text

/-! ### Characters -/

theorem isUpper_iff_toNat {c : Char} : c.isUpper = true ↔ 65 ≤ c.toNat ∧ c.toNat ≤ 90 := by
  simp [Naming.isUpper_eq, UInt32.le_iff_toNat_le, ← Char.toNat_val]

theorem toLower_of_not_isUpper {c : Char} (other : c.isUpper = false) : c.toLower = c := by
  rw [Naming.isUpper_eq, decide_eq_false_iff_not] at other
  exact dif_neg other

private theorem toNat_toLower {c : Char} (upper : c.isUpper = true) :
    c.toLower.toNat = c.toNat + 32 := by
  have range := isUpper_iff_toNat.1 upper
  rw [Naming.isUpper_eq, decide_eq_true_eq] at upper
  have shifted : c.toLower.toNat = (c.val + 32).toNat := congrArg Char.toNat (dif_pos upper)
  rw [← Char.toNat_val] at range
  rw [shifted, UInt32.toNat_add, ← Char.toNat_val]
  have offset : (32 : UInt32).toNat = 32 := rfl
  rw [offset]
  exact Nat.mod_eq_of_lt (by omega)

private theorem isUpper_toLower (c : Char) : c.toLower.isUpper = false := by
  cases upper : c.isUpper with
  | false => rw [toLower_of_not_isUpper upper, upper]
  | true =>
    have range := isUpper_iff_toNat.1 upper
    rw [Bool.eq_false_iff, Ne, isUpper_iff_toNat, toNat_toLower upper]
    omega

theorem toLower_toLower (c : Char) : c.toLower.toLower = c.toLower :=
  toLower_of_not_isUpper (isUpper_toLower c)

private theorem isSpace_toLower (c : Char) : isSpace c.toLower = isSpace c := by
  cases upper : c.isUpper with
  | false => rw [toLower_of_not_isUpper upper]
  | true =>
    have range := isUpper_iff_toNat.1 upper
    have none {other : Char} (low : 65 ≤ other.toNat) (high : other.toNat ≤ 122) :
        isSpace other = false := by
      simp only [isSpace, Bool.or_eq_false_iff, Bool.and_eq_false_iff, decide_eq_false_iff_not,
        beq_eq_false_iff_ne]
      omega
    rw [none range.1 (by omega), none] <;> rw [toNat_toLower upper] <;> omega

/-! ### Trimmed texts in lower case -/

private theorem trimChars_eq (cs : List Char) :
    trimChars cs = (cs.dropWhile isSpace).rdropWhile isSpace := rfl

private theorem trimChars_trimChars (cs : List Char) : trimChars (trimChars cs) = trimChars cs := by
  have front : (trimChars cs).dropWhile isSpace = trimChars cs := by
    have starts := List.head?_dropWhile_not isSpace cs
    obtain ⟨rest, split⟩ := List.rdropWhile_prefix isSpace (cs.dropWhile isSpace)
    rw [← trimChars_eq] at split
    cases shape : trimChars cs with
    | nil => rfl
    | cons c tail =>
      rw [← split, shape] at starts
      rw [List.dropWhile_cons, if_neg]
      simpa using starts
  rw [trimChars_eq (trimChars cs), front, trimChars_eq, List.rdropWhile_idempotent]

theorem trim_trim (text : String) : trim (trim text) = trim text := by
  rw [trim, trim, String.toList_ofList, trimChars_trimChars]

theorem trim_eq_empty_iff {text : String} : trim text = "" ↔ isBlank text = true := by
  rw [trim, ← String.toList_inj, String.toList_ofList, isBlank, List.all_eq_true, trimChars_eq,
    String.toList_empty, List.rdropWhile_eq_nil_iff, ← List.dropWhile_eq_nil_iff,
    List.dropWhile_idempotent, List.dropWhile_eq_nil_iff]

private theorem trim_lower (text : String) : trim (lower text) = lower (trim text) := by
  have spaces : isSpace ∘ Char.toLower = isSpace := funext isSpace_toLower
  have folded (cs : List Char) : trimChars (cs.map Char.toLower) =
      (trimChars cs).map Char.toLower := by
    rw [trimChars, trimChars, List.dropWhile_map, spaces, ← List.map_reverse, List.dropWhile_map,
      spaces, List.map_reverse]
  rw [trim, lower, lower, trim, String.toList_ofList, String.toList_ofList, folded]

private theorem lower_lower (text : String) : lower (lower text) = lower text := by
  have same : Char.toLower ∘ Char.toLower = Char.toLower := funext toLower_toLower
  rw [lower, lower, String.toList_ofList, List.map_map, same]

theorem lower_trim_lower_trim (text : String) :
    lower (trim (lower (trim text))) = lower (trim text) := by
  rw [trim_lower, lower_lower, trim_trim]

/-! ### Names in snake case -/

private theorem snakeChar_of_not_isUpper {c : Char} (other : c.isUpper = false) : snakeChar c =
    [c] := by
  rw [snakeChar, other]
  rfl

private theorem not_isUpper_of_mem_snakeChars {cs : List Char} {c : Char}
    (member : c ∈ snakeChars cs) :
    c.isUpper = false := by
  cases cs with
  | nil => exact absurd member List.not_mem_nil
  | cons head tail =>
    rcases List.mem_cons.1 member with rfl | later
    · exact isUpper_toLower head
    · obtain ⟨letter, -, inside⟩ := List.mem_flatMap.1 later
      cases upper : letter.isUpper with
      | false =>
        rw [snakeChar_of_not_isUpper upper, List.mem_singleton] at inside
        exact inside ▸ upper
      | true =>
        rw [snakeChar, if_pos upper, List.mem_cons, List.mem_singleton] at inside
        rcases inside with rfl | rfl
        · rfl
        · exact isUpper_toLower letter

private theorem snakeChars_of_not_isUpper {cs : List Char} (none : ∀ c ∈ cs, c.isUpper = false) :
    snakeChars cs = cs := by
  cases cs with
  | nil => rfl
  | cons head tail =>
    obtain ⟨first, rest⟩ := List.forall_mem_cons.1 none
    have kept : tail.flatMap snakeChar = tail.flatMap fun c => [c] :=
      List.flatMap_congr fun c member => snakeChar_of_not_isUpper (rest c member)
    rw [snakeChars, toLower_of_not_isUpper first, kept, List.flatMap_singleton']

theorem snake_snake (name : String) : snake (snake name) = snake name := by
  rw [snake, snake, String.toList_ofList,
    snakeChars_of_not_isUpper fun _ => not_isUpper_of_mem_snakeChars]

theorem snake_ne {name other : String} (letter : name.toList.any Char.isUpper = true) :
    snake other ≠ name := by
  rintro rfl
  obtain ⟨c, member, upper⟩ := List.any_eq_true.1 letter
  rw [snake, String.toList_ofList] at member
  rw [not_isUpper_of_mem_snakeChars member] at upper
  exact Bool.false_ne_true upper

end StrategyCompiler.Text
