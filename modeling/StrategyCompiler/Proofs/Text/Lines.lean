import Mathlib.Data.List.Basic
import StrategyCompiler.Text.Lines
/-!
The lines of a text: a text is cut at its line feeds, in one way.
-/

set_option autoImplicit false

namespace StrategyCompiler.Text

/-- The lines of a text.  A line feed ends a line, together with a carriage return right before it;
what stands behind the last line feed is a line unless it is empty. -/
inductive Cut : List Char → List (List Char) → Prop
  | nil : Cut [] []
  | last {line : List Char} (nonempty : line ≠ []) (whole : '\n' ∉ line) : Cut line [line]
  | feed {line rest : List Char} {lines : List (List Char)} (whole : '\n' ∉ line)
      (bare : line.getLast? ≠ some '\r') (more : Cut rest lines) :
      Cut (line ++ '\n' :: rest) (line :: lines)
  | returned {line rest : List Char} {lines : List (List Char)} (whole : '\n' ∉ line)
      (more : Cut rest lines) : Cut (line ++ '\r' :: '\n' :: rest) (line :: lines)

private theorem lineChars_cons_of_head {c : Char} {rest : List Char} (lineFeed : c ≠ '\n')
    (apart : c = '\r' → rest.head? ≠ some '\n') :
    lineChars (c :: rest) =
      match lineChars rest with
      | [] => [[c]]
      | line :: more => (c :: line) :: more := by
  refine (lineChars.eq_4 c rest lineFeed ?_).trans rfl
  rintro later rfl rfl
  exact apart rfl rfl

private theorem lineChars_last {line : List Char} (nonempty : line ≠ []) (whole : '\n' ∉ line) :
    lineChars line = [line] := by
  induction line with
  | nil => exact absurd rfl nonempty
  | cons c rest ih =>
    rw [List.mem_cons, not_or] at whole
    have apart : c = '\r' → rest.head? ≠ some '\n' := fun _ head =>
      whole.2 (List.mem_of_mem_head? head)
    rw [lineChars_cons_of_head (Ne.symm whole.1) apart]
    cases rest with
    | nil => rfl
    | cons next more => rw [ih (by simp) whole.2]

private theorem lineChars_front {line rest : List Char} {lines : List (List Char)}
    (whole : '\n' ∉ line) (bare : line.getLast? = some '\r' → rest.head? ≠ some '\n')
    (ends : lineChars rest = [] :: lines) :
    lineChars (line ++ rest) = line :: lines := by
  induction line with
  | nil => exact ends
  | cons c line ih =>
    rw [List.mem_cons, not_or] at whole
    have later : lineChars (line ++ rest) = line :: lines := by
      refine ih whole.2 fun last => bare ?_
      rw [List.getLast?_cons, last, Option.getD_some]
    have apart : c = '\r' → (line ++ rest).head? ≠ some '\n' := by
      rintro rfl
      cases line with
      | nil => exact bare rfl
      | cons next more => exact fun head => whole.2 (List.mem_of_mem_head? head)
    rw [List.cons_append, lineChars_cons_of_head (Ne.symm whole.1) apart, later]

private theorem lineChars_of_cut {text : List Char} {lines : List (List Char)}
    (cut : Cut text lines) : lineChars text = lines := by
  induction cut with
  | nil => rfl
  | last nonempty whole => exact lineChars_last nonempty whole
  | feed whole bare more ih =>
    exact lineChars_front whole (fun last => absurd last bare) (by rw [lineChars, ih])
  | returned whole more ih =>
    exact lineChars_front whole (fun _ => by simp) (by rw [lineChars, ih])

private theorem cut_cons {c : Char} {rest line : List Char} {lines : List (List Char)}
    (lineFeed : c ≠ '\n') (apart : ∀ later, c = '\r' → rest = '\n' :: later → False)
    (cut : Cut rest (line :: lines)) : Cut (c :: rest) ((c :: line) :: lines) := by
  cases cut with
  | last nonempty whole => exact .last (List.cons_ne_nil _ _) (by simp [lineFeed.symm, whole])
  | feed whole bare more =>
    rw [← List.cons_append]
    refine .feed (by simp [lineFeed.symm, whole]) ?_ more
    cases line with
    | nil =>
      intro last
      exact apart _ (Option.some.inj last) rfl
    | cons next later => rwa [List.getLast?_cons_cons]
  | returned whole more =>
    rw [← List.cons_append]
    exact .returned (by simp [lineFeed.symm, whole]) more

theorem cut_iff {text : List Char} {lines : List (List Char)} :
    Cut text lines ↔ lines = lineChars text := by
  refine ⟨fun cut => (lineChars_of_cut cut).symm, ?_⟩
  rintro rfl
  fun_induction lineChars text with
  | case1 => exact .nil
  | case2 rest ih =>
    rw [← List.nil_append ('\n' :: rest)]
    exact .feed List.not_mem_nil (by simp) ih
  | case3 rest ih =>
    rw [← List.nil_append ('\r' :: '\n' :: rest)]
    exact .returned List.not_mem_nil ih
  | case4 c rest lineFeed apart none ih =>
    rw [none] at ih
    cases ih
    exact .last (List.cons_ne_nil _ _) (by simpa using Ne.symm lineFeed)
  | case5 c rest lineFeed apart line more found ih =>
    rw [found] at ih
    exact cut_cons lineFeed apart ih

end StrategyCompiler.Text
