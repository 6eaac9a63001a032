import Mathlib.Data.List.TakeWhile
import StrategyCompiler.Naming.Identifier
/-!
The form of the identifiers made from free text: lower-case letters, digits and underscores, with a
letter in front that one underscore may precede.
-/

set_option autoImplicit false

namespace StrategyCompiler.Naming

def isNameChar (c : Char) : Bool := c.isLower || c.isDigit || c == '_'

/-- Whether the characters are a letter and then characters of identifiers. -/
def isWordChars : List Char → Bool
  | [] => false
  | head :: tail => head.isLower && tail.all isNameChar

def isIdentifierChars : List Char → Bool
  | '_' :: rest => isWordChars rest
  | cs => isWordChars cs

def isIdentifier (name : String) : Bool := isIdentifierChars name.toList

/-! ### Classes of characters -/

theorem isUpper_eq (c : Char) :
    c.isUpper = decide ('A'.val ≤ c.val ∧ c.val ≤ 'Z'.val) := rfl

theorem isLower_eq (c : Char) :
    c.isLower = (decide ('a'.val ≤ c.val) && decide (c.val ≤ 'z'.val)) := rfl

theorem isAlpha_eq (c : Char) : c.isAlpha = (c.isUpper || c.isLower) := rfl

private theorem isLower_underscore : '_'.isLower = false := rfl

theorem isAlphanum_of_isLower {c : Char} (lower : c.isLower = true) : c.isAlphanum = true := by
  simp [Char.isAlphanum, isAlpha_eq, lower]

theorem isAlphanum_of_isDigit {c : Char} (digit : c.isDigit = true) : c.isAlphanum = true := by
  simp [Char.isAlphanum, digit]

theorem isLower_or_isDigit_toLower {c : Char} (alphanum : c.isAlphanum = true) :
    c.toLower.isLower = true ∨ c.toLower.isDigit = true := by
  unfold Char.toLower
  simp only [Char.isAlphanum, isAlpha_eq, isUpper_eq, isLower_eq, Char.isDigit,
    Bool.or_eq_true, Bool.and_eq_true, decide_eq_true_eq, UInt32.le_iff_toNat_le] at alphanum ⊢
  split
  · rename_i upper
    simp at alphanum upper ⊢
    omega
  · rename_i other
    simp at alphanum other ⊢
    omega

theorem isAlphanum_toLower {c : Char} (alphanum : c.isAlphanum = true) :
    c.toLower.isAlphanum = true := by
  rcases isLower_or_isDigit_toLower alphanum with lower | digit
  · exact isAlphanum_of_isLower lower
  · exact isAlphanum_of_isDigit digit

/-! ### Identifiers -/

private theorem isIdentifierChars_of_isWordChars {cs : List Char} (word : isWordChars cs = true) :
    isIdentifierChars cs = true := by
  unfold isIdentifierChars
  split
  · simp [isWordChars, isLower_underscore] at word
  · exact word

private theorem isWordChars_append {cs tail : List Char} (word : isWordChars cs = true)
    (names : tail.all isNameChar = true) : isWordChars (cs ++ tail) = true := by
  cases cs with
  | nil => simp [isWordChars] at word
  | cons head rest =>
    simp only [isWordChars, Bool.and_eq_true, List.cons_append, List.all_append] at word ⊢
    exact ⟨word.1, word.2, names⟩

private theorem isIdentifierChars_append {cs tail : List Char}
    (identifier : isIdentifierChars cs = true)
    (names : tail.all isNameChar = true) : isIdentifierChars (cs ++ tail) = true := by
  unfold isIdentifierChars at identifier
  split at identifier
  · exact isWordChars_append identifier names
  · exact isIdentifierChars_of_isWordChars (isWordChars_append identifier names)

theorem isIdentifier_append {name tail : String} (identifier : isIdentifier name = true)
    (names : tail.toList.all isNameChar = true) : isIdentifier (name ++ tail) = true := by
  unfold isIdentifier
  rw [String.toList_append]
  exact isIdentifierChars_append identifier names

theorem all_isNameChar_of_isIdentifier {name : String} (identifier : isIdentifier name = true) :
    name.toList.all isNameChar = true := by
  have ofWord : ∀ cs, isWordChars cs = true → cs.all isNameChar = true := by
    intro cs word
    cases cs with
    | nil => rfl
    | cons head tail =>
      simp only [isWordChars, Bool.and_eq_true] at word
      simp [isNameChar, word.1, word.2]
  unfold isIdentifier isIdentifierChars at identifier
  split at identifier
  · rename_i rest shape
    rw [shape, List.all_cons, ofWord rest identifier]
    rfl
  · exact ofWord _ identifier

/-! ### Text made into an identifier -/

private theorem isNameChar_toLower {c : Char} (alphanum : c.isAlphanum = true) :
    isNameChar c.toLower = true := by
  rcases isLower_or_isDigit_toLower alphanum with lower | digit
  · simp [isNameChar, lower]
  · simp [isNameChar, digit]

private theorem all_isNameChar_joinWords (gap : Bool) (text : List Char) :
    (joinWords gap text).all isNameChar = true := by
  induction text generalizing gap with
  | nil => rfl
  | cons c rest ih =>
    rw [joinWords]
    split
    · rename_i alphanum
      rw [List.all_append, ih, Bool.and_true]
      have underscore : isNameChar '_' = true := by decide
      cases gap <;> simp [isNameChar_toLower alphanum, underscore]
    · exact ih true

private theorem sanitizeChars_cases (text : List Char) :
    (sanitizeChars text = [] ∧ text.any Char.isAlphanum = false) ∨
      (isIdentifierChars (sanitizeChars text) = true ∧ text.any Char.isAlphanum = true) := by
  unfold sanitizeChars
  have heads := List.head?_dropWhile_not (fun c : Char => !c.isAlphanum) text
  cases words : text.dropWhile fun c => !c.isAlphanum with
  | nil =>
    refine .inl ⟨rfl, ?_⟩
    rw [List.dropWhile_eq_nil_iff] at words
    simpa using words
  | cons c rest =>
    rw [words] at heads
    have alphanum : c.isAlphanum = true := by simpa using heads
    have member : c ∈ text := by
      have : c ∈ text.dropWhile fun c => !c.isAlphanum := by simp [words]
      exact (List.dropWhile_sublist _).subset this
    refine .inr ⟨?_, List.any_eq_true.2 ⟨c, member, alphanum⟩⟩
    have tail := all_isNameChar_joinWords false rest
    simp only [joinWords, alphanum, if_true, Bool.false_eq_true, if_false, List.singleton_append,
      guardDigit]
    split
    · rename_i digit
      simp [isIdentifierChars, isWordChars, isNameChar, digit, tail]
    · rename_i notDigit
      refine isIdentifierChars_of_isWordChars ?_
      rcases isLower_or_isDigit_toLower alphanum with lower | digit
      · simp [isWordChars, lower, tail]
      · exact absurd digit notDigit

theorem toList_sanitize (text : String) : (sanitize text).toList = sanitizeChars text.toList := by
  simp [sanitize]

theorem isIdentifier_sanitize {text : String} (word : text.toList.any Char.isAlphanum = true) :
    isIdentifier (sanitize text) = true := by
  rw [isIdentifier, toList_sanitize]
  rcases sanitizeChars_cases text.toList with ⟨-, none⟩ | ⟨identifier, -⟩
  · simp [word] at none
  · exact identifier

theorem sanitize_ne {text : String} (word : text.toList.any Char.isAlphanum = true) :
    sanitize text ≠ "" := fun empty => by
  have identifier := isIdentifier_sanitize word
  rw [empty] at identifier
  exact absurd identifier (by decide)

theorem isIdentifier_sanitize_of_ne {text : String} (nonempty : sanitize text ≠ "") :
    isIdentifier (sanitize text) = true := by
  rw [isIdentifier, toList_sanitize]
  rcases sanitizeChars_cases text.toList with ⟨empty, -⟩ | ⟨identifier, -⟩
  · exact absurd (by rw [sanitize, empty]) nonempty
  · exact identifier

private theorem all_isNameChar_sanitizeChars (text : List Char) :
    (sanitizeChars text).all isNameChar = true := by
  rcases sanitizeChars_cases text with ⟨empty, -⟩ | ⟨identifier, -⟩
  · rw [empty]
    rfl
  · have named : isIdentifier (String.ofList (sanitizeChars text)) = true := by
      rwa [isIdentifier, String.toList_ofList]
    have names := all_isNameChar_of_isIdentifier named
    rwa [String.toList_ofList] at names

theorem all_isNameChar_sanitize (text : String) :
    (sanitize text).toList.all isNameChar = true := by
  rw [toList_sanitize]
  exact all_isNameChar_sanitizeChars _

private theorem mem_of_mem_splitOn {c separator : Char} {cs piece : List Char}
    (isPiece : piece ∈ cs.splitOn separator) (member : c ∈ piece) : c ∈ cs := by
  induction cs generalizing piece with
  | nil =>
    rw [List.splitOn_nil, List.mem_singleton] at isPiece
    exact isPiece ▸ member
  | cons first rest ih =>
    rw [List.splitOn_cons_eq_if_modifyHead] at isPiece
    split at isPiece
    · rcases List.mem_cons.1 isPiece with rfl | later
      · exact absurd member List.not_mem_nil
      · exact List.mem_cons_of_mem _ (ih later member)
    · cases pieces : rest.splitOn separator with
      | nil => exact absurd pieces (List.splitOn_ne_nil _ _)
      | cons head more =>
        rw [pieces] at isPiece ih
        rcases List.mem_cons.1 isPiece with rfl | later
        · rcases List.mem_cons.1 member with rfl | inside
          · exact List.mem_cons_self
          · exact List.mem_cons_of_mem _ (ih List.mem_cons_self inside)
        · exact List.mem_cons_of_mem _ (ih (List.mem_cons_of_mem _ later) member)

theorem all_isNameChar_idFragment (id : String) :
    (idFragment id).toList.all isNameChar = true := by
  rw [idFragment, String.toList_ofList, List.all_eq_true]
  intro c member
  cases found : ((sanitizeChars id.toList).splitOn '_').reverse.find? fun piece =>
      !piece.isEmpty with
  | none => simp [found] at member
  | some piece =>
    rw [found] at member
    have isPiece := List.mem_reverse.1 (List.mem_of_find?_eq_some found)
    exact List.all_eq_true.1 (all_isNameChar_sanitizeChars _) c
      (mem_of_mem_splitOn isPiece member)

end StrategyCompiler.Naming
