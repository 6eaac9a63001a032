import Mathlib.Data.Set.Function
import StrategyCompiler.Proofs.Script.Nesting
import StrategyCompiler.Proofs.Script.Token
/-!
String literals as a code.  The scan of a line is inside of a literal up to the quote that closes it
and outside from there on, whatever text the literal was made from; so what stands behind a literal
is told apart from it, and its value is read back, line breaks being spaces.
-/

set_option autoImplicit false

namespace StrategyCompiler.Script

/-- A text on one line that is scanned as one literal: cut short anywhere it is not closed yet, and
what stands behind it is scanned from outside of literals. -/
structure SelfDelimiting (written : List Char) : Prop extends Clean written where
  unclosed : ∀ line opened front, front <+: written → front ≠ [] → front ≠ written →
    scan line none opened front = .error (.unterminated line)

/-! ### Inside of a literal -/

private theorem scan_front {quote : Char} {inside front : List Char} (quoted : Quoted quote inside)
    (cut : front <+: inside) (line : Nat) (opened : List Opening) :
    scan line (some quote) opened front = .error (.unterminated line) := by
  induction quoted generalizing front with
  | nil => rw [List.prefix_nil.1 cut, scan]
  | escape more ih =>
    cases front with
    | nil => rw [scan]
    | cons c front =>
      obtain ⟨rfl, behind⟩ := List.cons_prefix_cons.1 cut
      cases front with
      | nil => rw [scan]
      | cons taken front => rw [scan, ih (List.cons_prefix_cons.1 behind).2]
  | plain other bare more ih =>
    cases front with
    | nil => rw [scan]
    | cons c front =>
      obtain ⟨rfl, behind⟩ := List.cons_prefix_cons.1 cut
      rw [scan, if_neg (by simpa using other), ih behind]
      · exact fun same _ => bare same
      · exact fun _ _ same _ => bare same

/-! ### Literals -/

private theorem toList_literal (text : String) :
    (literal text).toList = '"' :: (text.toList.flatMap literalChar ++ ['"']) :=
  String.toList_ofList

private theorem selfDelimiting_literal (text : String) : SelfDelimiting (literal text).toList where
  toClean := Clean.literal text
  unclosed := by
    intro line opened front cut nonempty short
    rw [toList_literal] at cut short
    cases front with
    | nil => exact absurd rfl nonempty
    | cons c front =>
      obtain ⟨rfl, behind⟩ := List.cons_prefix_cons.1 cut
      have inside : front <+: text.toList.flatMap literalChar := by
        refine (List.prefix_concat_iff.1 behind).resolve_left ?_
        rintro rfl
        exact short rfl
      have opens : scan line none opened ('"' :: front) = scan line (some '"') opened front := by
        rw [scan]
        · exact if_pos rfl
        · simp
      rw [opens, scan_front (quoted_flatMap _) inside]

private theorem literal_flatten (text : String) : literal (Page.flatten text) = literal text := by
  have written (c : Char) :
      literalChar (if c == '\n' || c == '\r' then ' ' else c) = literalChar c := by
    split
    · rename_i broken
      simp only [Bool.or_eq_true, beq_iff_eq] at broken
      rcases broken with rfl | rfl <;> rfl
    · rfl
  rw [literal, literal, literalChars, literalChars, Page.flatten, String.toList_ofList,
    List.flatMap_map]
  simp only [written]

private theorem unquote?_literal (text rest : String) :
    ∃ behind, (literal text ++ rest).toList = '"' :: behind ∧
      unquote? behind = some ((Page.flatten text).toList, rest.toList) := by
  refine ⟨_, ?_, unquote?_flatMap text rest.toList⟩
  simp [toList_literal]

private theorem literal_append_eq_iff {text other rest more : String} :
    literal text ++ rest = literal other ++ more ↔
      Page.flatten text = Page.flatten other ∧ rest = more := by
  constructor
  · intro same
    obtain ⟨behind, shape, read⟩ := unquote?_literal text rest
    obtain ⟨others, shape', read'⟩ := unquote?_literal other more
    rw [same, shape'] at shape
    rw [← (List.cons.inj shape).2, read'] at read
    obtain ⟨values, rests⟩ := Prod.mk.inj (Option.some.inj read)
    exact ⟨(String.toList_inj.1 values).symm, (String.toList_inj.1 rests).symm⟩
  · rintro ⟨values, rfl⟩
    rw [← literal_flatten text, values, literal_flatten]

/-- A literal is scanned as one piece and read back as the text it was made from, line breaks being
spaces; two texts have the same literal only if they differ in line breaks alone. -/
theorem literal_delimited :
    (∀ text, SelfDelimiting (literal text).toList ∧
      ∃ inside, (literal text).toList = '"' :: (inside ++ ['"']) ∧
        ∀ rest, unquote? (inside ++ '"' :: rest) = some ((Page.flatten text).toList, rest)) ∧
    (∀ text other rest more, literal text ++ rest = literal other ++ more ↔
      Page.flatten text = Page.flatten other ∧ rest = more) ∧
    Set.InjOn literal {text | Flat text.toList} := by
  refine ⟨fun text => ⟨selfDelimiting_literal text, ?_⟩, ?_, ?_⟩
  · exact ⟨_, toList_literal text, unquote?_flatMap text⟩
  · exact fun _ _ _ _ => literal_append_eq_iff
  · intro text flat other flat' same
    have values := (@literal_append_eq_iff text other "" "").1 (congrArg (· ++ "") same)
    rw [Page.flatten_of_flat flat, Page.flatten_of_flat flat'] at values
    exact values.1

end StrategyCompiler.Script
