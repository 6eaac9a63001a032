import Mathlib.Data.List.Chain
import StrategyCompiler.Proofs.Catalogue.Template
import StrategyCompiler.Proofs.Script.Words
/-!
Words of filled templates.  Where the placeholders of a template touch neither words nor one
another, a word of the filled text is one of the template's own, or it belongs to what is put in.
-/

set_option autoImplicit false

namespace StrategyCompiler.Script

private theorem wordsOf_append_of_head (left : List Char) {right : List Char}
    (breaks : ∀ c ∈ right.head?, isWordChar c = false) :
    wordsOf (left ++ right) = wordsOf left ++ wordsOf right := by
  cases right with
  | nil =>
    have empty : wordsOf [] = [] := by decide
    rw [List.append_nil, empty, List.append_nil]
  | cons c rest =>
    have between : isWordChar c = false := breaks c rfl
    rw [wordsOf_append_cons _ _ between, ← List.singleton_append,
      wordsOf_append_breaks (List.forall_mem_singleton.2 between)]

private theorem wordsOf_append_of_last {left : List Char} (right : List Char)
    (breaks : ∀ c ∈ left.getLast?, isWordChar c = false) :
    wordsOf (left ++ right) = wordsOf left ++ wordsOf right := by
  rcases left.eq_nil_or_concat with rfl | ⟨front, c, rfl⟩
  · rfl
  · have between : isWordChar c = false := breaks c (by simp)
    have empty : wordsOf [] = [] := by decide
    rw [List.concat_eq_append, List.append_assoc, List.singleton_append,
      wordsOf_append_cons _ _ between, wordsOf_append_cons _ _ between, empty, List.append_nil]

end StrategyCompiler.Script

namespace StrategyCompiler.Catalogue.Template

open Script (isWordChar wordsOf)

/-- Characters next to one another in a template whose placeholders stand apart: none opens behind a
word or behind another one, and no word follows directly on one. -/
def KeepsApart (c d : Char) : Prop :=
  (d = '{' → isWordChar c = false ∧ c ≠ '}') ∧ (c = '}' → isWordChar d = false)

instance : DecidableRel KeepsApart := fun c d =>
  inferInstanceAs (Decidable ((d = '{' → isWordChar c = false ∧ c ≠ '}') ∧
    (c = '}' → isWordChar d = false)))

/-- The placeholders of a template touch neither words nor one another. -/
def StandsApart (template : String) : Prop := template.toList.IsChain KeepsApart

/-- A template with a blank in place of each placeholder that has a value. -/
def hollow (template : String) (resolve : String → Option String) : String :=
  fill template fun key => (resolve key).map fun _ => " "

namespace Pieces

private theorem head?_fill {pieces : Pieces} (other : pieces.write.toList.head? ≠ some '{')
    (resolve : String → Option String) :
    (pieces.fill resolve).toList.head? = pieces.write.toList.head? := by
  cases pieces with
  | bare | unclosed => rfl
  | placeholder text key plain closed rest =>
    rw [toList_write_placeholder] at other ⊢
    cases shape : text.toList with
    | nil =>
      rw [shape] at other
      exact absurd rfl other
    | cons c tail => simp [fill, shape]

theorem mem_wordsOf_fill (pieces : Pieces) (resolve : String → Option String) {word : String}
    (apart : pieces.write.toList.IsChain KeepsApart)
    (member : word ∈ wordsOf (pieces.fill resolve).toList) :
    word ∈ wordsOf (pieces.fill fun key => (resolve key).map fun _ => " ").toList ∨
      ∃ key value, resolve key = some value ∧ word ∈ wordsOf value.toList := by
  induction pieces with
  | bare | unclosed => exact .inl member
  | placeholder text key plain closed rest ih =>
    rw [toList_write_placeholder] at apart
    obtain ⟨-, brace, opens⟩ := List.isChain_append.1 apart
    obtain ⟨-, later, -⟩ := List.isChain_append.1 brace.tail
    have front : ∀ c ∈ text.toList.getLast?, isWordChar c = false :=
      fun c last => ((opens c last '{' rfl).1 rfl).1
    have next : ∀ c ∈ rest.write.toList.head?, isWordChar c = false ∧ c ≠ '{' := by
      intro c first
      have pair := List.isChain_cons.1 later
      refine ⟨(pair.1 c first).2 rfl, ?_⟩
      rintro rfl
      exact ((pair.1 _ first).1 rfl).2 rfl
    have unopened : rest.write.toList.head? ≠ some '{' := fun first => (next _ first).2 rfl
    -- What is put in is cut off from the texts on both sides of it.
    have cut (own : String → Option String) (value : String) :
        wordsOf (text ++ value ++ rest.fill own).toList =
          wordsOf text.toList ++ (wordsOf value.toList ++ wordsOf (rest.fill own).toList) := by
      have behind : ∀ c ∈ (rest.fill own).toList.head?, isWordChar c = false := by
        rw [head?_fill unopened]
        exact fun c first => (next c first).1
      rw [String.toList_append, String.toList_append, List.append_assoc,
        Script.wordsOf_append_of_last _ front, Script.wordsOf_append_of_head _ behind]
    rw [fill, cut, List.mem_append, List.mem_append] at member
    rw [fill, cut, List.mem_append, List.mem_append]
    rcases member with here | inside | there
    · exact .inl (.inl here)
    · cases value : resolve key with
      | none =>
        rw [value] at inside
        exact .inl (.inr (.inl inside))
      | some text =>
        rw [value] at inside
        exact .inr ⟨key, text, value, inside⟩
    · rcases ih later.tail there with own | given
      · exact .inl (.inr (.inr own))
      · exact .inr given

end Pieces

theorem mem_wordsOf_fill {template word : String} {resolve : String → Option String}
    (apart : StandsApart template) (member : word ∈ wordsOf (fill template resolve).toList) :
    word ∈ wordsOf (hollow template resolve).toList ∨
      ∃ key value, resolve key = some value ∧ word ∈ wordsOf value.toList := by
  obtain ⟨pieces, chars⟩ := Pieces.exists_write template.toList
  obtain rfl := String.toList_inj.1 chars
  rw [fill_write] at member
  rw [hollow, fill_write]
  exact pieces.mem_wordsOf_fill resolve apart member

end StrategyCompiler.Catalogue.Template
