import Mathlib.Data.List.Basic
import StrategyCompiler.Script.Check
import StrategyCompiler.Script.Layout
import StrategyCompiler.Script.Literal
/-!
Texts that leave the check of brackets and literals as they found it.  They are closed under
everything that expressions are written with: plain characters, string literals, brackets around
such texts, and rows of them.
-/

set_option autoImplicit false

namespace StrategyCompiler.Script

/-- A text on one line. -/
def Flat (cs : List Char) : Prop := ∀ c ∈ cs, c ≠ '\n' ∧ c ≠ '\r'

instance (cs : List Char) : Decidable (Flat cs) :=
  List.decidableBAll (fun c => c ≠ '\n' ∧ c ≠ '\r') cs

def specials : List Char := ['"', '\'', '(', ')', '[', ']', '/', '\n', '\r']

/-- Whether the character means nothing to the check and ends no line. -/
def isPlain (c : Char) : Bool := !specials.contains c

/-- A text on one line that can stand anywhere outside of literals. -/
structure Clean (cs : List Char) : Prop where
  flat : Flat cs
  passes : ∀ line opened rest, scan line none opened (cs ++ rest) = scan line none opened rest

theorem Flat.append {left right : List Char} (leftFlat : Flat left) (rightFlat : Flat right) :
    Flat (left ++ right) :=
  List.forall_mem_append.2 ⟨leftFlat, rightFlat⟩

theorem Page.flat_flatten (text : String) : Flat (flatten text).toList := by
  intro c member
  rw [flatten, String.toList_ofList] at member
  obtain ⟨d, -, rfl⟩ := List.mem_map.1 member
  split
  · decide
  · rename_i other
    simpa using other

theorem Page.flatten_of_flat {text : String} (flat : Flat text.toList) : flatten text = text := by
  have kept : text.toList.map (fun c => if c == '\n' || c == '\r' then ' ' else c) =
      text.toList.map id := by
    refine List.map_congr_left fun c member => if_neg ?_
    simpa using flat c member
  rw [flatten, kept, List.map_id, String.ofList_toList]

private theorem scan_plain {c : Char} (plain : isPlain c = true) (line : Nat)
    (opened : List Opening)
    (rest : List Char) : scan line none opened (c :: rest) = scan line none opened rest := by
  simp only [isPlain, specials, List.contains_cons, List.contains_nil, Bool.or_false, Bool.not_or,
    Bool.and_eq_true, Bool.not_eq_true', beq_eq_false_iff_ne] at plain
  obtain ⟨double, single, round, closing, square, closing', slash, -, -⟩ := plain
  rw [scan]
  · simp [double, single, round, closing, square, closing', partner?]
  · rintro tail rfl
    exact absurd rfl slash

private theorem scan_slash {c : Char} (other : c ≠ '/') (line : Nat) (opened : List Opening)
    (rest : List Char) :
    scan line none opened ('/' :: c :: rest) = scan line none opened (c :: rest) := by
  rw [scan]
  · simp [partner?]
  · rintro tail - same
    exact absurd (List.cons.inj same).1 other

theorem scan_comment (line : Nat) (opened : List Opening) (rest : List Char) :
    scan line none opened ('/' :: '/' :: rest) = .ok opened := by
  rw [scan]

theorem isPlain_of_apart {own : Char → Bool} {c : Char}
    (apart : specials.all fun special => !own special) (member : own c = true) :
    isPlain c = true := by
  rw [isPlain, Bool.not_eq_true', ← Bool.not_eq_true, List.contains_iff_mem]
  intro special
  have foreign := List.all_eq_true.1 apart c special
  rw [member] at foreign
  exact absurd foreign (by decide)

theorem isPlain_of_isDigit {c : Char} (digit : c.isDigit = true) : isPlain c = true :=
  isPlain_of_apart (by decide) digit

/-! ### Inside of a literal -/

/-- What can stand between two quotes of a kind: a backslash takes the next character with it, and
the quote does not stand on its own. -/
inductive Quoted (quote : Char) : List Char → Prop
  | nil : Quoted quote []
  | escape {taken : Char} {rest : List Char} (more : Quoted quote rest) :
      Quoted quote ('\\' :: taken :: rest)
  | plain {c : Char} {rest : List Char} (other : c ≠ quote) (bare : c ≠ '\\')
      (more : Quoted quote rest) : Quoted quote (c :: rest)

theorem scan_quoted {quote : Char} {inside : List Char} (quoted : Quoted quote inside)
    (bare : quote ≠ '\\') (line : Nat) (opened : List Opening) (rest : List Char) :
    scan line (some quote) opened (inside ++ quote :: rest) = scan line none opened rest := by
  induction quoted with
  | nil =>
    rw [List.nil_append, scan]
    · rw [if_pos (beq_self_eq_true quote)]
    · exact fun same _ => bare same
    · exact fun _ _ same _ => bare same
  | escape more ih =>
    rw [List.cons_append, List.cons_append, scan, ih]
  | plain other own more ih =>
    rw [List.cons_append, scan, if_neg (by simpa using other), ih]
    · exact fun same _ => own same
    · exact fun _ _ same _ => own same

theorem Quoted.literalChar (c : Char) {rest : List Char} (more : Quoted '"' rest) :
    Quoted '"' (literalChar c ++ rest) := by
  unfold Script.literalChar
  split
  · exact .escape more
  · rename_i unescaped
    simp only [Bool.or_eq_true, beq_iff_eq, not_or] at unescaped
    split
    · exact .plain (by decide) (by decide) more
    · exact .plain unescaped.2 unescaped.1 more

theorem quoted_flatMap (cs : List Char) : Quoted '"' (cs.flatMap literalChar) := by
  induction cs with
  | nil => exact .nil
  | cons c cs ih =>
    rw [List.flatMap_cons]
    exact ih.literalChar c

/-! ### Clean texts -/

namespace Clean

theorem nil : Clean [] := ⟨by simp [Flat], fun _ _ _ => rfl⟩

theorem append {left right : List Char} (leftClean : Clean left) (rightClean : Clean right) :
    Clean (left ++ right) where
  flat := leftClean.flat.append rightClean.flat
  passes := by
    intro line opened rest
    rw [List.append_assoc, leftClean.passes, rightClean.passes]

theorem ofPlain {cs : List Char} (plain : cs.all isPlain = true) : Clean cs where
  flat := by
    intro c member
    have := List.all_eq_true.1 plain c member
    simp only [isPlain, specials, List.contains_cons, List.contains_nil, Bool.or_false, Bool.not_or,
      Bool.and_eq_true, Bool.not_eq_true', beq_eq_false_iff_ne] at this
    exact this.2.2.2.2.2.2.2
  passes := by
    intro line opened rest
    induction cs with
    | nil => rfl
    | cons c cs ih =>
      rw [List.all_cons, Bool.and_eq_true] at plain
      rw [List.cons_append, scan_plain plain.1, ih plain.2]

theorem cons {c : Char} {cs : List Char} (plain : isPlain c = true) (clean : Clean cs) :
    Clean (c :: cs) := by
  have single : Clean [c] := ofPlain (by simpa using plain)
  exact single.append clean

theorem division : Clean [' ', '/', ' '] where
  flat := by simp [Flat]
  passes := by
    intro line opened rest
    rw [List.cons_append, scan_plain (by decide), List.cons_append, List.cons_append,
      scan_slash (by decide), scan_plain (by decide)]
    rfl

private theorem flat_literalChar (c : Char) : Flat (literalChar c) := by
  unfold literalChar
  split
  · rename_i escaped
    simp only [Bool.or_eq_true, beq_iff_eq] at escaped
    rcases escaped with rfl | rfl <;> simp [Flat]
  · split
    · simp [Flat]
    · rename_i flat
      simpa [Flat] using flat

theorem literal (text : String) : Clean (literal text).toList := by
  rw [Script.literal, String.toList_ofList, literalChars]
  constructor
  · intro c member
    simp only [List.mem_cons, List.mem_append, List.mem_flatMap, List.not_mem_nil,
      or_false] at member
    rcases member with rfl | ⟨d, -, inside⟩ | rfl
    · simp
    · exact flat_literalChar d c inside
    · simp
  · intro line opened rest
    rw [List.cons_append, List.append_assoc, scan]
    · exact scan_quoted (quoted_flatMap text.toList) (by decide) line opened rest
    · simp

private theorem bracketed {opening closing : Char} {cs : List Char}
    (pair : opening = '(' ∧ closing = ')' ∨ opening = '[' ∧ closing = ']') (clean : Clean cs) :
    Clean (opening :: (cs ++ [closing])) where
  flat := by
    intro c member
    simp only [List.mem_cons, List.mem_append, List.not_mem_nil, or_false] at member
    rcases member with rfl | inside | rfl
    · rcases pair with ⟨rfl, -⟩ | ⟨rfl, -⟩ <;> simp
    · exact clean.flat c inside
    · rcases pair with ⟨-, rfl⟩ | ⟨-, rfl⟩ <;> simp
  passes := by
    intro line opened rest
    rw [List.cons_append, List.append_assoc, List.singleton_append]
    have opens : scan line none opened (opening :: (cs ++ closing :: rest)) =
        scan line none (⟨opening, line⟩ :: opened) (closing :: rest) := by
      rcases pair with ⟨rfl, -⟩ | ⟨rfl, -⟩ <;>
      · rw [scan]
        · simp [clean.passes]
        · simp
    rw [opens]
    rcases pair with ⟨rfl, rfl⟩ | ⟨rfl, rfl⟩ <;>
    · rw [scan]
      · simp [partner?, close]
      · simp

theorem round {cs : List Char} (clean : Clean cs) : Clean ('(' :: (cs ++ [')'])) :=
  bracketed (.inl ⟨rfl, rfl⟩) clean

theorem square {cs : List Char} (clean : Clean cs) : Clean ('[' :: (cs ++ [']'])) :=
  bracketed (.inr ⟨rfl, rfl⟩) clean

theorem intercalate (separator : String) {texts : List String} (between : Clean separator.toList)
    (each : ∀ text ∈ texts, Clean text.toList) : Clean (separator.intercalate texts).toList := by
  induction texts with
  | nil => exact nil
  | cons text rest ih =>
    have later := ih fun other member => each other (List.mem_cons_of_mem _ member)
    have here := each text List.mem_cons_self
    cases rest with
    | nil => rwa [String.intercalate_singleton]
    | cons next more =>
      rw [String.intercalate_cons_cons, String.toList_append, String.toList_append]
      exact (here.append between).append later

end Clean

end StrategyCompiler.Script
