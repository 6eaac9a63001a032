import Mathlib.Computability.Language
import StrategyCompiler.Proofs.Script.Token
import StrategyCompiler.Proofs.Text.Folding
/-!
Identifiers made from free text, run by run.  The letters and digits of a text fall into runs in one
way, and these runs are all that its identifier is made of; so its form is a regular expression, and
an identifier that needed no mark in front of a digit is its own identifier.
-/

set_option autoImplicit false

namespace StrategyCompiler.Naming

open scoped Computability

/-! ### Runs -/

/-- The runs of a text: its pieces of letters and digits from left to right, none of which can be
made longer. -/
inductive Runs : List Char → List (List Char) → Prop
  | none {gap : List Char} (outside : ∀ c ∈ gap, c.isAlphanum = false) : Runs gap []
  | run {gap run rest : List Char} {runs : List (List Char)}
      (outside : ∀ c ∈ gap, c.isAlphanum = false) (nonempty : run ≠ [])
      (inside : ∀ c ∈ run, c.isAlphanum = true)
      (ends : ∀ c ∈ rest.head?, c.isAlphanum = false) (more : Runs rest runs) :
      Runs (gap ++ (run ++ rest)) (run :: runs)

def lowered (runs : List (List Char)) : List (List Char) :=
  runs.map fun run => run.map Char.toLower

/-- Runs in lower case, joined by underscores, and `_v` before a digit in front. -/
def joined (runs : List (List Char)) : List Char :=
  let body := ['_'].intercalate (lowered runs)
  if body.head?.any Char.isDigit then '_' :: 'v' :: body else body

private theorem span_gap {gap run : List Char} (outside : ∀ c ∈ gap, c.isAlphanum = false)
    (nonempty : run ≠ []) (inside : ∀ c ∈ run, c.isAlphanum = true) (rest : List Char) :
    (gap ++ (run ++ rest)).dropWhile (fun c => !c.isAlphanum) = run ++ rest := by
  refine (Script.span_append ?_ ?_).2
  · simpa using outside
  · intro c first
    rw [List.head?_append_of_ne_nil _ nonempty] at first
    simpa using inside c (List.mem_of_mem_head? first)

theorem Runs.unique {text : List Char} {runs others : List (List Char)} (row : Runs text runs)
    (other : Runs text others) : runs = others := by
  induction row generalizing others with
  | none outside =>
    cases other with
    | none => rfl
    | @run gap run rest runs _ nonempty inside =>
      obtain ⟨c, more, rfl⟩ := List.exists_cons_of_ne_nil nonempty
      have own := inside c List.mem_cons_self
      rw [outside c (by simp)] at own
      exact absurd own Bool.false_ne_true
  | @run gap run rest runs outside nonempty inside ends more ih =>
    generalize whole : gap ++ (run ++ rest) = text at other
    cases other with
    | none foreign =>
      obtain ⟨c, more, rfl⟩ := List.exists_cons_of_ne_nil nonempty
      have own := inside c List.mem_cons_self
      rw [foreign c (by simp [← whole])] at own
      exact absurd own Bool.false_ne_true
    | run outside' nonempty' inside' ends' more' =>
      have behind := congrArg (List.dropWhile fun c => !c.isAlphanum) whole
      rw [span_gap outside nonempty inside, span_gap outside' nonempty' inside'] at behind
      obtain ⟨taken, dropped⟩ := Script.span_append (List.all_eq_true.2 inside) ends
      obtain ⟨taken', dropped'⟩ := Script.span_append (List.all_eq_true.2 inside') ends'
      obtain rfl : run = _ := by rw [← taken, behind, taken']
      obtain rfl : rest = _ := by rw [← dropped, behind, dropped']
      rw [ih more']

theorem Runs.front {run rest : List Char} {runs : List (List Char)} (nonempty : run ≠ [])
    (inside : ∀ c ∈ run, c.isAlphanum = true) (ends : ∀ c ∈ rest.head?, c.isAlphanum = false)
    (more : Runs rest runs) : Runs (run ++ rest) (run :: runs) :=
  @Runs.run [] run rest runs (by simp) nonempty inside ends more

private theorem exists_runs (text : List Char) : ∃ runs, Runs text runs := by
  induction text with
  | nil => exact ⟨[], .none (by simp)⟩
  | cons c text ih =>
    obtain ⟨runs, row⟩ := ih
    cases alphanum : c.isAlphanum with
    | false =>
      cases row with
      | none outside => exact ⟨_, .none (List.forall_mem_cons.2 ⟨alphanum, outside⟩)⟩
      | run outside nonempty inside ends more =>
        rw [← List.cons_append]
        exact ⟨_, .run (List.forall_mem_cons.2 ⟨alphanum, outside⟩) nonempty inside ends more⟩
    | true =>
      have single : [c] ≠ [] ∧ ∀ d ∈ [c], d.isAlphanum = true := by simpa using alphanum
      cases row with
      | none outside =>
        have ends : ∀ d ∈ text.head?, d.isAlphanum = false := fun d first =>
          outside d (List.mem_of_mem_head? first)
        exact ⟨_, Runs.front single.1 single.2 ends (.none outside)⟩
      | @run gap run rest runs outside nonempty inside ends more =>
        cases gap with
        | nil =>
          rw [List.nil_append, ← List.cons_append]
          exact ⟨_, Runs.front (List.cons_ne_nil c run)
            (List.forall_mem_cons.2 ⟨alphanum, inside⟩) ends more⟩
        | cons d gap =>
          have apart : ∀ e ∈ (d :: gap ++ (run ++ rest)).head?, e.isAlphanum = false := by
            rintro _ ⟨⟩
            exact outside d List.mem_cons_self
          exact ⟨_, Runs.front single.1 single.2 apart (.run outside nonempty inside ends more)⟩

def AreRuns (runs : List (List Char)) : Prop :=
  ∀ run ∈ runs, run ≠ [] ∧ ∀ c ∈ run, c.isAlphanum = true

private theorem Runs.areRuns {text : List Char} {runs : List (List Char)} (row : Runs text runs) :
    AreRuns runs := by
  induction row with
  | none => exact fun _ member => absurd member List.not_mem_nil
  | run _ nonempty inside _ _ ih => exact List.forall_mem_cons.2 ⟨⟨nonempty, inside⟩, ih⟩

private theorem Runs.eq_nil_iff {text : List Char} {runs : List (List Char)}
    (row : Runs text runs) :
    runs = [] ↔ ∀ c ∈ text, c.isAlphanum = false := by
  constructor
  · rintro rfl
    cases row with
    | none outside => exact outside
  · exact fun outside => row.unique (.none outside)

/-- Runs behind the underscores that join them to what stands in front. -/
def trailing (runs : List (List Char)) : List Char := runs.flatMap fun run => '_' :: run

private theorem not_isAlphanum_of_head?_trailing (runs : List (List Char)) :
    ∀ c ∈ (trailing runs).head?, c.isAlphanum = false := by
  cases runs with
  | nil => simp [trailing]
  | cons run runs =>
    rintro _ ⟨⟩
    rfl

private theorem runs_trailing {runs : List (List Char)} (own : AreRuns runs) :
    Runs (trailing runs) runs := by
  induction runs with
  | nil => exact .none (by simp [trailing])
  | cons run runs ih =>
    obtain ⟨⟨nonempty, inside⟩, later⟩ := List.forall_mem_cons.1 own
    have underscore : ∀ c ∈ ['_'], c.isAlphanum = false := List.forall_mem_singleton.2 rfl
    exact .run underscore nonempty inside (not_isAlphanum_of_head?_trailing runs) (ih later)

private theorem runs_append_trailing {run : List Char} {runs : List (List Char)}
    (own : AreRuns (run :: runs)) : Runs (run ++ trailing runs) (run :: runs) := by
  obtain ⟨⟨nonempty, inside⟩, later⟩ := List.forall_mem_cons.1 own
  exact .front nonempty inside (not_isAlphanum_of_head?_trailing runs) (runs_trailing later)

/-! ### Identifiers -/

private theorem intercalate_eq_trailing (run : List Char) (runs : List (List Char)) :
    ['_'].intercalate (run :: runs) = run ++ trailing runs := by
  induction runs generalizing run with
  | nil => simp [trailing]
  | cons next runs ih =>
    rw [List.intercalate_cons_cons, ih next]
    simp [trailing]

private theorem areRuns_lowered {runs : List (List Char)} (own : AreRuns runs) :
    AreRuns (lowered runs) := by
  intro run member
  obtain ⟨old, inside, rfl⟩ := List.mem_map.1 member
  obtain ⟨nonempty, alphanum⟩ := own old inside
  refine ⟨by simpa using nonempty, List.forall_mem_map.2 fun c within => ?_⟩
  exact isAlphanum_toLower (alphanum c within)

private theorem lowered_lowered (runs : List (List Char)) : lowered
    (lowered runs) = lowered runs := by
  have same : Char.toLower ∘ Char.toLower = Char.toLower := funext Text.toLower_toLower
  simp [lowered, same]

private theorem joined_lowered (runs : List (List Char)) : joined (lowered runs) = joined runs := by
  rw [joined, lowered_lowered]
  rfl

private theorem guardDigit_eq (body : List Char) :
    guardDigit body = if body.head?.any Char.isDigit then '_' :: 'v' :: body else body := by
  cases body with
  | nil => rfl
  | cons c body => rfl

private theorem joined_nil : joined [] = [] := rfl

private theorem joined_cons (run : List Char) (runs : List (List Char)) :
    joined (run :: runs) =
      guardDigit (run.map Char.toLower ++ trailing (lowered runs)) := by
  rw [guardDigit_eq, ← intercalate_eq_trailing]
  rfl

private theorem joinWords_gap {gap : List Char} (outside : ∀ c ∈ gap, c.isAlphanum = false)
    (rest : List Char) : joinWords true (gap ++ rest) = joinWords true rest := by
  induction gap with
  | nil => rfl
  | cons c gap ih =>
    obtain ⟨here, later⟩ := List.forall_mem_cons.1 outside
    rw [List.cons_append, joinWords, here, ih later]
    rfl

private theorem joinWords_run {run : List Char} (inside : ∀ c ∈ run, c.isAlphanum = true)
    (rest : List Char) :
    joinWords false (run ++ rest) = run.map Char.toLower ++ joinWords false rest := by
  induction run with
  | nil => rfl
  | cons c run ih =>
    obtain ⟨here, later⟩ := List.forall_mem_cons.1 inside
    rw [List.cons_append, joinWords, here, ih later]
    rfl

private theorem joinWords_of_head? {rest : List Char}
    (ends : ∀ c ∈ rest.head?, c.isAlphanum = false) :
    joinWords false rest = joinWords true rest := by
  cases rest with
  | nil => rfl
  | cons c rest => rw [joinWords, joinWords, ends c rfl, if_neg Bool.false_ne_true,
      if_neg Bool.false_ne_true]

private theorem joinWords_true_of_isAlphanum {c : Char} (alphanum : c.isAlphanum = true)
    (rest : List Char) : joinWords true (c :: rest) = '_' :: joinWords false (c :: rest) := by
  rw [joinWords, joinWords, alphanum]
  rfl

private theorem joinWords_of_runs {text : List Char} {runs : List (List Char)}
    (row : Runs text runs) :
    joinWords true text = trailing (lowered runs) := by
  induction row with
  | @none gap outside =>
    have all := joinWords_gap outside []
    rwa [List.append_nil] at all
  | @run gap run rest runs outside nonempty inside ends more ih =>
    have whole : joinWords true (run ++ rest) = '_' :: joinWords false (run ++ rest) := by
      obtain ⟨c, later, rfl⟩ := List.exists_cons_of_ne_nil nonempty
      exact joinWords_true_of_isAlphanum (inside c List.mem_cons_self) _
    rw [joinWords_gap outside, whole, joinWords_run inside, joinWords_of_head? ends, ih]
    rfl

private theorem sanitizeChars_of_runs {text : List Char} {runs : List (List Char)}
    (row : Runs text runs) : sanitizeChars text = joined runs := by
  unfold sanitizeChars
  cases row with
  | none outside =>
    have all : text.dropWhile (fun c => !c.isAlphanum) = [] := by
      simpa [List.dropWhile_eq_nil_iff] using outside
    rw [all, joined_nil]
    rfl
  | run outside nonempty inside ends more =>
    rw [span_gap outside nonempty inside, joinWords_run inside, joinWords_of_head? ends,
      joinWords_of_runs more, joined_cons]

/-! ### The form of identifiers -/

def oneOf (own : Char → Bool) : Language Char := {text | ∃ c, own c = true ∧ text = [c]}

def letter : Language Char := oneOf Char.isLower

def letterOrDigit : Language Char := oneOf fun c => c.isLower || c.isDigit

def identifiers : Language Char :=
  (1 + {['_']}) * letter * letterOrDigit∗ * ({['_']} * (letterOrDigit * letterOrDigit∗))∗

private theorem mem_kstar_oneOf {own : Char → Bool} {text : List Char}
    (all : ∀ c ∈ text, own c = true) :
    text ∈ (oneOf own)∗ := by
  refine Language.mem_kstar.2 ⟨text.map fun c => [c], (List.flatMap_singleton' text).symm, ?_⟩
  exact List.forall_mem_map.2 fun c member => ⟨c, all c member, rfl⟩

private theorem mem_letterOrDigit {run : List Char} (nonempty : run ≠ [])
    (own : ∀ c ∈ run, (c.isLower || c.isDigit) = true) :
    run ∈ letterOrDigit * letterOrDigit∗ := by
  obtain ⟨c, more, rfl⟩ := List.exists_cons_of_ne_nil nonempty
  obtain ⟨here, later⟩ := List.forall_mem_cons.1 own
  exact Language.append_mem_mul (a := [c]) ⟨c, here, rfl⟩ (mem_kstar_oneOf later)

private theorem isLower_or_isDigit_of_mem_lowered {runs : List (List Char)} (own : AreRuns runs)
    {run : List Char} (member : run ∈ lowered runs) :
    ∀ c ∈ run, (c.isLower || c.isDigit) = true := by
  obtain ⟨old, inside, rfl⟩ := List.mem_map.1 member
  refine List.forall_mem_map.2 fun c within => ?_
  rw [Bool.or_eq_true]
  exact isLower_or_isDigit_toLower ((own old inside).2 c within)

private theorem trailing_lowered_mem {runs : List (List Char)} (own : AreRuns runs) :
    trailing (lowered runs) ∈ ({['_']} * (letterOrDigit * letterOrDigit∗) : Language Char)∗ := by
  refine Language.mem_kstar.2 ⟨(lowered runs).map fun run => '_' :: run, rfl, ?_⟩
  refine List.forall_mem_map.2 fun run member => ?_
  have letters := isLower_or_isDigit_of_mem_lowered own member
  exact Language.append_mem_mul (a := ['_']) rfl
    (mem_letterOrDigit (areRuns_lowered own run member).1 letters)

/-- The runs of a text make an identifier: its first character is a letter, or a digit behind the
letter of the mark. -/
private theorem joined_mem_identifiers {run : List Char} {runs : List (List Char)}
    (own : AreRuns (run :: runs)) : joined (run :: runs) ∈ identifiers := by
  obtain ⟨⟨nonempty, -⟩, later⟩ := List.forall_mem_cons.1 own
  have letters := isLower_or_isDigit_of_mem_lowered own List.mem_cons_self
  have behind := trailing_lowered_mem later
  obtain ⟨c, more, rfl⟩ := List.exists_cons_of_ne_nil nonempty
  rw [joined_cons]
  obtain ⟨here, rest⟩ := List.forall_mem_cons.1 letters
  cases digit : c.toLower.isDigit with
  | true =>
    have guarded : guardDigit ((c :: more).map Char.toLower ++ trailing (lowered runs)) =
        ['_'] ++ ['v'] ++ (c :: more).map Char.toLower ++ trailing (lowered runs) := if_pos digit
    rw [guarded]
    refine Language.append_mem_mul (Language.append_mem_mul (Language.append_mem_mul ?_ ?_) ?_)
      behind
    · exact .inr rfl
    · exact ⟨'v', rfl, rfl⟩
    · exact mem_kstar_oneOf letters
  | false =>
    have unguarded : guardDigit ((c :: more).map Char.toLower ++ trailing (lowered runs)) =
        [] ++ [c.toLower] ++ more.map Char.toLower ++ trailing (lowered runs) :=
      if_neg (by simp [digit])
    rw [unguarded]
    refine Language.append_mem_mul (Language.append_mem_mul (Language.append_mem_mul ?_ ?_) ?_)
      behind
    · exact .inl rfl
    · exact ⟨c.toLower, by simpa [digit] using here, rfl⟩
    · exact mem_kstar_oneOf rest

private theorem sanitizeChars_marked (body : List Char) :
    sanitizeChars ('_' :: 'v' :: body) = 'v' :: joinWords false body := rfl

private theorem sanitizeChars_joined_iff {runs : List (List Char)} (own : AreRuns runs) :
    sanitizeChars (joined runs) = joined runs ↔ (joined runs).head? ≠ some '_' := by
  cases runs with
  | nil => exact ⟨fun _ => by simp [joined_nil], fun _ => rfl⟩
  | cons run runs =>
    have again : sanitizeChars (run.map Char.toLower ++ trailing (lowered runs)) =
        joined (lowered (run :: runs)) :=
      sanitizeChars_of_runs (runs_append_trailing (areRuns_lowered own))
    have letters : ∀ c ∈ run.map Char.toLower, (c.isLower || c.isDigit) = true :=
      isLower_or_isDigit_of_mem_lowered own List.mem_cons_self
    have nonempty := (own run List.mem_cons_self).1
    rw [joined_lowered, joined_cons] at again
    rw [joined_cons]
    obtain ⟨c, more, rfl⟩ := List.exists_cons_of_ne_nil nonempty
    rw [List.map_cons, List.cons_append] at again ⊢
    cases digit : c.toLower.isDigit with
    | true =>
      rw [guardDigit, if_pos digit, sanitizeChars_marked]
      simp
    | false =>
      have other : c.toLower ≠ '_' := by
        intro same
        have own := letters c.toLower List.mem_cons_self
        rw [same] at own
        exact absurd own (by decide)
      rw [guardDigit, if_neg (by simp [digit])] at again ⊢
      simp [again, other]

/-- The identifier of a text is made of its runs.  It is empty when there are none, else it has the
form of an identifier, and unless it begins with the mark it is its own identifier. -/
theorem sanitize_exact (text : String) :
    (∃ runs, (∀ others, Runs text.toList others ↔ others = runs) ∧
      (sanitize text).toList = joined runs) ∧
    (sanitize text = "" ↔ ∀ c ∈ text.toList, c.isAlphanum = false) ∧
    (sanitize text ≠ "" → (sanitize text).toList ∈ identifiers) ∧
    (sanitize (sanitize text) = sanitize text ↔ (sanitize text).toList.head? ≠ some '_') := by
  obtain ⟨runs, row⟩ := exists_runs text.toList
  have own := row.areRuns
  have chars : (sanitize text).toList = joined runs := by
    rw [toList_sanitize, sanitizeChars_of_runs row]
  have empty : sanitize text = "" ↔ runs = [] := by
    constructor
    · intro none
      refine row.eq_nil_iff.2 fun c member => ?_
      by_contra alphanum
      exact sanitize_ne (List.any_eq_true.2 ⟨c, member, by simpa using alphanum⟩) none
    · rintro rfl
      exact String.toList_inj.1 chars
  refine ⟨⟨runs, ?_, chars⟩, ?_, ?_, ?_⟩
  · exact fun others => ⟨fun other => other.unique row, fun same => same ▸ row⟩
  · rw [empty, row.eq_nil_iff]
  · intro nonempty
    rw [chars]
    obtain ⟨run, more, rfl⟩ := List.exists_cons_of_ne_nil (mt empty.2 nonempty)
    exact joined_mem_identifiers own
  · rw [← String.toList_inj, toList_sanitize, chars]
    exact sanitizeChars_joined_iff own

end StrategyCompiler.Naming
