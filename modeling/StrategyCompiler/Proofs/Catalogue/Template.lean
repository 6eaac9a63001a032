import Mathlib.Data.List.TakeWhile
import StrategyCompiler.Catalogue.Template
/-!
Filled templates, piece by piece: a text without an opening brace stays, and a placeholder becomes
its replacement.  Each template is cut into such pieces in one way only, so that filling it is one
substitution in all placeholders together.
-/

set_option autoImplicit false

namespace StrategyCompiler.Catalogue.Template

variable (resolve : List Char → Option (List Char))

theorem fillChars_nil : fillChars resolve [] = [] := by
  rw [fillChars]

theorem fillChars_text {text : List Char} (plain : '{' ∉ text) (rest : List Char) :
    fillChars resolve (text ++ rest) = text ++ fillChars resolve rest := by
  induction text with
  | nil => rfl
  | cons c text ih =>
    rw [List.mem_cons, not_or] at plain
    have other : (c == '{') = false := by simpa using Ne.symm plain.1
    rw [List.cons_append, fillChars, other, ih plain.2]
    rfl

theorem fillChars_placeholder {key : List Char} (closed : '}' ∉ key) (rest : List Char) :
    fillChars resolve ('{' :: (key ++ '}' :: rest)) =
      replacement resolve key ++ fillChars resolve rest := by
  have inside : ∀ c ∈ key, (c != '}') = true := by
    intro c member
    refine bne_iff_ne.2 ?_
    rintro rfl
    exact closed member
  have cut : (key ++ '}' :: rest).dropWhile (fun c => c != '}') = '}' :: rest := by
    rw [List.dropWhile_append_of_pos inside]
    rfl
  have taken : (key ++ '}' :: rest).takeWhile (fun c => c != '}') = key := by
    rw [List.takeWhile_append_of_pos inside]
    simp
  rw [fillChars]
  simp only [beq_self_eq_true, if_true]
  split
  · rename_i none
    rw [cut] at none
    exact absurd none (by simp)
  · rename_i more found
    rw [cut] at found
    rw [taken, (List.cons.inj found).2]

theorem forall_mem_fillChars {allowed : Char → Prop} {template : List Char}
    (braces : allowed '{' ∧ allowed '}') (own : ∀ c ∈ template, allowed c)
    (given : ∀ key value, resolve key = some value → ∀ c ∈ value, allowed c) :
    ∀ c ∈ fillChars resolve template, allowed c := by
  fun_induction fillChars resolve template with
  | case1 => simp
  | case2 => exact own
  | case3 c rest isOpen d after cut ih =>
    obtain ⟨-, later⟩ := List.forall_mem_cons.1 own
    have key : ∀ c ∈ rest.takeWhile fun d => d != '}', allowed c := fun c inside =>
      later c ((List.takeWhile_prefix _).subset inside)
    have behind : ∀ c ∈ after, allowed c := fun c inside =>
      later c ((List.dropWhile_suffix _).subset (cut ▸ List.mem_cons_of_mem d inside))
    refine List.forall_mem_append.2 ⟨?_, ih behind⟩
    unfold replacement
    split
    · rename_i value found
      exact given _ value found
    · rw [List.forall_mem_cons, List.forall_mem_append, List.forall_mem_singleton]
      exact ⟨braces.1, key, braces.2⟩
  | case4 c rest other ih =>
    obtain ⟨here, later⟩ := List.forall_mem_cons.1 own
    exact List.forall_mem_cons.2 ⟨here, ih later⟩

/-! ### Pieces -/

def braced (key : String) : String := String.singleton '{' ++ key ++ String.singleton '}'

private theorem toList_braced (key : String) :
    (braced key).toList = '{' :: (key.toList ++ ['}']) := by
  simp [braced]

/-- A template cut at its placeholders.  A placeholder starts at the first brace behind what was cut
off before, and its key goes up to the next closing brace. -/
inductive Pieces
  /-- A text without a brace that opens a placeholder. -/
  | bare (text : String) (plain : '{' ∉ text.toList)
  /-- A text and behind it a brace that is never closed. -/
  | unclosed (text tail : String) (plain : '{' ∉ text.toList) (never : '}' ∉ tail.toList)
  /-- A text, the key of a placeholder behind it, and the pieces behind that. -/
  | placeholder (text key : String) (plain : '{' ∉ text.toList) (closed : '}' ∉ key.toList)
      (rest : Pieces)

namespace Pieces

def write : Pieces → String
  | bare text _ => text
  | unclosed text tail _ _ => text ++ String.singleton '{' ++ tail
  | placeholder text key _ _ rest => text ++ braced key ++ rest.write

/-- The pieces with a value in place of each placeholder that has one. -/
def fill (resolve : String → Option String) : Pieces → String
  | bare text _ => text
  | unclosed text tail _ _ => text ++ String.singleton '{' ++ tail
  | placeholder text key _ _ rest => text ++ (resolve key).getD (braced key) ++ rest.fill resolve

private theorem fill_none (pieces : Pieces) : pieces.fill (fun _ => none) = pieces.write := by
  induction pieces with
  | bare => rfl
  | unclosed => rfl
  | placeholder text key plain closed rest ih => rw [fill, ih, write, Option.getD_none]

private theorem toList_write_unclosed {text tail : String} (plain : '{' ∉ text.toList)
    (never : '}' ∉ tail.toList) :
    (unclosed text tail plain never).write.toList = text.toList ++ '{' :: tail.toList := by
  simp [write]

theorem toList_write_placeholder {text key : String} (plain : '{' ∉ text.toList)
    (closed : '}' ∉ key.toList) (rest : Pieces) :
    (placeholder text key plain closed rest).write.toList =
      text.toList ++ '{' :: (key.toList ++ '}' :: rest.write.toList) := by
  simp [write, toList_braced]

/-! #### Cutting -/

/-- Every template can be cut: at its first brace, at the brace that closes it, and then behind. -/
theorem exists_write (template : List Char) : ∃ pieces : Pieces, pieces.write.toList = template := by
  induction length : template.length using Nat.strong_induction_on generalizing template with
  | _ n ih =>
    by_cases opens : '{' ∈ template
    · obtain ⟨before, behind, rfl, plain⟩ := List.eq_append_cons_of_mem opens
      rw [← String.toList_ofList (l := before)] at plain ⊢
      by_cases closes : '}' ∈ behind
      · obtain ⟨key, after, rfl, closed⟩ := List.eq_append_cons_of_mem closes
        rw [← String.toList_ofList (l := key)] at closed ⊢
        have shorter : after.length < n := by
          simp only [List.length_append, List.length_cons] at length
          omega
        obtain ⟨rest, rfl⟩ := ih after.length shorter after rfl
        exact ⟨placeholder _ _ plain closed rest, toList_write_placeholder plain closed rest⟩
      · rw [← String.toList_ofList (l := behind)] at closes ⊢
        exact ⟨unclosed _ _ plain closes, toList_write_unclosed plain closes⟩
    · rw [← String.toList_ofList (l := template)] at opens ⊢
      exact ⟨bare _ opens, rfl⟩

private theorem ne_append_mark {mark : Char} {text before rest : List Char} (plain : mark ∉ text) :
    text ≠ before ++ mark :: rest := by
  rintro rfl
  exact plain (List.mem_append_right _ List.mem_cons_self)

/-- What stands before the first of some marks, and what stands behind it, are read off the whole. -/
private theorem append_mark_inj {mark : Char} {before other rest more : List Char}
    (plain : mark ∉ before)
    (clean : mark ∉ other) (same : before ++ mark :: rest = other ++ mark :: more) :
    before = other ∧ rest = more := by
  rcases List.append_eq_append_iff.1 same with ⟨gap, rfl, behind⟩ | ⟨gap, rfl, behind⟩
  · cases gap with
    | nil => exact ⟨(List.append_nil before).symm, (List.cons.inj behind).2⟩
    | cons c gap =>
      obtain ⟨rfl, -⟩ := List.cons.inj behind
      exact absurd (List.mem_append_right _ List.mem_cons_self) clean
  · cases gap with
    | nil => exact ⟨List.append_nil other, (List.cons.inj behind).2.symm⟩
    | cons c gap =>
      obtain ⟨rfl, -⟩ := List.cons.inj behind
      exact absurd (List.mem_append_right _ List.mem_cons_self) plain

private theorem write_injective : Function.Injective write := by
  intro pieces
  induction pieces with
  | bare text plain =>
    intro other same
    have chars := congrArg String.toList same
    cases other with
    | bare found _ =>
      obtain rfl : text = found := same
      rfl
    | unclosed _ _ clean never =>
      rw [toList_write_unclosed] at chars
      exact absurd chars (ne_append_mark plain)
    | placeholder _ _ clean closed rest =>
      rw [toList_write_placeholder] at chars
      exact absurd chars (ne_append_mark plain)
  | unclosed text tail plain never =>
    intro other same
    have chars := congrArg String.toList same
    rw [toList_write_unclosed] at chars
    cases other with
    | bare _ clean => exact absurd chars.symm (ne_append_mark clean)
    | unclosed found rest clean _ =>
      rw [toList_write_unclosed] at chars
      obtain ⟨texts, tails⟩ := append_mark_inj plain clean chars
      obtain rfl := String.toList_inj.1 texts
      obtain rfl := String.toList_inj.1 tails
      rfl
    | placeholder found key clean closed rest =>
      rw [toList_write_placeholder] at chars
      obtain ⟨-, tails⟩ := append_mark_inj plain clean chars
      exact absurd tails (ne_append_mark never)
  | placeholder text key plain closed rest ih =>
    intro other same
    have chars := congrArg String.toList same
    rw [toList_write_placeholder] at chars
    cases other with
    | bare _ clean => exact absurd chars.symm (ne_append_mark clean)
    | unclosed found tail clean never =>
      rw [toList_write_unclosed] at chars
      obtain ⟨-, tails⟩ := append_mark_inj plain clean chars
      exact absurd tails.symm (ne_append_mark never)
    | placeholder found name clean ends more =>
      rw [toList_write_placeholder] at chars
      obtain ⟨texts, tails⟩ := append_mark_inj plain clean chars
      obtain ⟨keys, behind⟩ := append_mark_inj closed ends tails
      obtain rfl := String.toList_inj.1 texts
      obtain rfl := String.toList_inj.1 keys
      obtain rfl := ih (String.toList_inj.1 behind)
      rfl

end Pieces

/-! #### Filling -/

private theorem fillChars_unclosed {tail : List Char} (never : '}' ∉ tail) :
    fillChars resolve ('{' :: tail) = '{' :: tail := by
  have inside : ∀ c ∈ tail, (c != '}') = true := by
    intro c member
    refine bne_iff_ne.2 ?_
    rintro rfl
    exact never member
  have cut : tail.dropWhile (fun c => c != '}') = [] := List.dropWhile_eq_nil_iff.2 inside
  rw [fillChars]
  simp only [beq_self_eq_true, if_true]
  split
  · rfl
  · rename_i found
    rw [cut] at found
    exact absurd found (by simp)

theorem fill_write (pieces : Pieces) (resolve : String → Option String) :
    fill pieces.write resolve = pieces.fill resolve := by
  rw [← String.toList_inj, fill, String.toList_ofList]
  induction pieces with
  | bare text plain =>
    have whole := fillChars_text (fun key => (resolve (String.ofList key)).map String.toList)
      plain []
    rwa [fillChars_nil, List.append_nil] at whole
  | unclosed text tail plain never =>
    rw [Pieces.toList_write_unclosed, fillChars_text _ plain, fillChars_unclosed _ never]
    exact (Pieces.toList_write_unclosed plain never).symm
  | placeholder text key plain closed rest ih =>
    have filled : replacement (fun key => (resolve (String.ofList key)).map String.toList)
        key.toList = ((resolve key).getD (braced key)).toList := by
      unfold replacement
      simp only [String.ofList_toList]
      cases resolve key with
      | none => exact (toList_braced key).symm
      | some value => rfl
    rw [Pieces.toList_write_placeholder, fillChars_text _ plain, fillChars_placeholder _ closed,
      ih, filled, Pieces.fill, String.toList_append, String.toList_append, List.append_assoc]

/-- A template is cut into pieces in exactly one way, and whatever values its placeholders have, it
is filled by putting these in between the pieces; without any values it stays as it is. -/
theorem fill_together (template : String) :
    ∃ pieces : Pieces, (∀ other : Pieces, other.write = template ↔ other = pieces) ∧
      (∀ resolve, fill template resolve = pieces.fill resolve) ∧
      fill template (fun _ => none) = template := by
  obtain ⟨pieces, chars⟩ := Pieces.exists_write template.toList
  obtain rfl := String.toList_inj.1 chars
  refine ⟨pieces, fun other => ?_, fill_write pieces, ?_⟩
  · exact Pieces.write_injective.eq_iff
  · rw [fill_write, Pieces.fill_none]

end StrategyCompiler.Catalogue.Template
