import Mathlib.Data.List.Forall2
import StrategyCompiler.Proofs.Script.Layout
import StrategyCompiler.Proofs.Text.Lines
/-!
The language of the structure check.  A text passes exactly when it names the version and the
declaration, the string literals of each line end on it, and the brackets outside of literals and
comments, taken over all lines, are a well-nested word.
-/

set_option autoImplicit false

namespace StrategyCompiler.Script

/-! ### The language -/

def quotes : List Char := ['"', '\'']

def brackets : List Char := ['(', ')', '[', ']']

/-- A line on which all literals are closed, with the brackets that stand outside of them and in
front of its comment. -/
inductive OuterBrackets : List Char → List Char → Prop
  | nil : OuterBrackets [] []
  | comment (text : List Char) : OuterBrackets ('/' :: '/' :: text) []
  | literal {quote : Char} {inside rest word : List Char} (opens : quote ∈ quotes)
      (quoted : Quoted quote inside) (more : OuterBrackets rest word) :
      OuterBrackets (quote :: (inside ++ quote :: rest)) word
  | bracket {c : Char} {rest word : List Char} (own : c ∈ brackets)
      (more : OuterBrackets rest word) : OuterBrackets (c :: rest) (c :: word)
  | other {c : Char} {rest word : List Char} (unquoted : c ∉ quotes) (unbracketed : c ∉ brackets)
      (uncommented : c = '/' → rest.head? ≠ some '/') (more : OuterBrackets rest word) :
      OuterBrackets (c :: rest) word

/-- The brackets of a text, a word for each of its lines, all of which close their literals. -/
def OuterWords (text : List Char) (words : List (List Char)) : Prop :=
  ∃ lines, Text.Cut text lines ∧ List.Forall₂ OuterBrackets lines words

inductive WellNested : List Char → Prop
  | nil : WellNested []
  | round {inside rest : List Char} (inner : WellNested inside) (more : WellNested rest) :
      WellNested ('(' :: (inside ++ ')' :: rest))
  | square {inside rest : List Char} (inner : WellNested inside) (more : WellNested rest) :
      WellNested ('[' :: (inside ++ ']' :: rest))

/-! ### Brackets of a line -/

private theorem Quoted.ends {quote : Char} (bare : quote ≠ '\\') {inside other : List Char}
    (quoted : Quoted quote inside) (others : Quoted quote other) {rest more : List Char}
    (same : inside ++ quote :: rest = other ++ quote :: more) : rest = more := by
  induction quoted generalizing other with
  | nil =>
    cases others with
    | nil => exact (List.cons.inj same).2
    | escape => exact absurd (List.cons.inj same).1 bare
    | plain differs => exact absurd (List.cons.inj same).1.symm differs
  | escape _ ih =>
    cases others with
    | nil => exact absurd (List.cons.inj same).1.symm bare
    | escape later => exact ih later (List.cons.inj (List.cons.inj same).2).2
    | plain _ differs => exact absurd (List.cons.inj same).1.symm differs
  | plain differs own _ ih =>
    cases others with
    | nil => exact absurd (List.cons.inj same).1 differs
    | escape => exact absurd (List.cons.inj same).1 own
    | plain _ _ later => exact ih later (List.cons.inj same).2

private theorem ne_of_mem_quotes {quote : Char} (opens : quote ∈ quotes) :
    quote ≠ '\\' ∧ quote ≠ '/' := by
  rcases List.mem_pair.1 opens with rfl | rfl <;> decide

private theorem ne_of_mem_brackets {c : Char} (own : c ∈ brackets) : c ∉ quotes ∧ c ≠ '/' := by
  simp only [brackets, List.mem_cons, List.not_mem_nil, or_false] at own
  rcases own with rfl | rfl | rfl | rfl <;> simp [quotes]

theorem OuterBrackets.unique {text word other : List Char} (outer : OuterBrackets text word)
    (others : OuterBrackets text other) : word = other := by
  induction outer generalizing other with
  | nil => cases others; rfl
  | comment text =>
    generalize whole : '/' :: text = tail at others
    cases others with
    | comment => rfl
    | literal opens => exact absurd rfl (ne_of_mem_quotes opens).2
    | bracket own => exact absurd rfl (ne_of_mem_brackets own).2
    | other _ _ uncommented => exact absurd (whole ▸ rfl) (uncommented rfl)
  | @literal quote inside rest word opens quoted more ih =>
    generalize whole : inside ++ quote :: rest = text at others
    cases others with
    | comment => exact absurd rfl (ne_of_mem_quotes opens).2
    | literal _ later behind =>
      obtain rfl := quoted.ends (ne_of_mem_quotes opens).1 later whole
      exact ih behind
    | bracket own => exact absurd opens (ne_of_mem_brackets own).1
    | other unquoted => exact absurd opens unquoted
  | bracket own more ih =>
    cases others with
    | comment => exact absurd rfl (ne_of_mem_brackets own).2
    | literal opens => exact absurd opens (ne_of_mem_brackets own).1
    | bracket _ later => rw [ih later]
    | other _ unbracketed => exact absurd own unbracketed
  | other unquoted unbracketed uncommented more ih =>
    cases others with
    | comment => exact absurd rfl (uncommented rfl)
    | literal opens => exact absurd opens unquoted
    | bracket own => exact absurd own unbracketed
    | other _ _ _ later => exact ih later

/-- What is open behind one more bracket, unless it closes what was not opened last. -/
def meet (opened : List Char) (c : Char) : Option (List Char) :=
  match partner? c, opened with
  | none, opened => some (c :: opened)
  | some partner, last :: before => if last = partner then some before else none
  | some _, [] => none

def nest (opened word : List Char) : Option (List Char) := word.foldlM meet opened

private theorem nest_nil (opened : List Char) : nest opened [] = some opened := rfl

private theorem nest_cons (opened word : List Char) (c : Char) :
    nest opened (c :: word) = (meet opened c).bind fun opened => nest opened word := by
  rw [nest, List.foldlM_cons]
  rfl

private theorem nest_append (opened left right : List Char) :
    nest opened (left ++ right) = (nest opened left).bind fun opened => nest opened right := by
  rw [nest, List.foldlM_append]
  rfl

private theorem meet_of_opening {c : Char} (opening : partner? c = none) (opened : List Char) :
    meet opened c = some (c :: opened) := by
  unfold meet
  rw [opening]

private theorem meet_of_closing {c partner : Char} (closing : partner? c = some partner)
    (opened rest : List Char) :
    meet opened c = some rest ↔ opened = partner :: rest := by
  unfold meet
  rw [closing]
  cases opened with
  | nil => simp
  | cons last before =>
    dsimp only
    split
    · rename_i same
      simp [same]
    · rename_i differ
      simp [differ]

def kinds (opened : List Opening) : List Char := opened.map Opening.bracket

private theorem close_eq_ok_iff {line : Nat} {c partner : Char} {opened rest : List Opening} :
    close line c partner opened = .ok rest ↔
      ∃ opening, opened = opening :: rest ∧ opening.bracket = partner := by
  cases opened with
  | nil => simp [close]
  | cons opening before =>
    rw [close]
    split
    · rename_i same
      simp_all
    · rename_i differ
      simp_all

private theorem mem_quotes_iff {c : Char} : c ∈ quotes ↔ (c == '"' || c == '\'') = true := by
  simp [quotes]

private theorem partner?_eq_some_iff {c partner : Char} :
    partner? c = some partner ↔ c = ')' ∧ partner = '(' ∨ c = ']' ∧ partner = '[' := by
  unfold partner?
  split
  · rename_i round
    rw [beq_iff_eq] at round
    simp [round, eq_comm]
  · split
    · rename_i round square
      rw [beq_iff_eq] at square
      simp [square, eq_comm]
    · rename_i round square
      simp_all

private theorem mem_brackets_iff {c : Char} :
    c ∈ brackets ↔ (c == '(' || c == '[') = true ∨ ∃ partner, partner? c = some partner := by
  simp only [partner?_eq_some_iff, brackets, List.mem_cons, List.not_mem_nil, or_false,
    Bool.or_eq_true, beq_iff_eq]
  constructor
  · rintro (rfl | rfl | rfl | rfl)
    · exact .inl (.inl rfl)
    · exact .inr ⟨_, .inl ⟨rfl, rfl⟩⟩
    · exact .inl (.inr rfl)
    · exact .inr ⟨_, .inr ⟨rfl, rfl⟩⟩
  · rintro ((rfl | rfl) | ⟨partner, ⟨rfl, -⟩ | ⟨rfl, -⟩⟩) <;> simp

/-- What a scan has still to read outside of literals, or behind the opening quote of one. -/
def Resumes : Option Char → List Char → List Char → Prop
  | none, text, word => OuterBrackets text word
  | some quote, text, word => ∃ inside rest,
      text = inside ++ quote :: rest ∧ Quoted quote inside ∧ OuterBrackets rest word

private theorem resumes_bracket {c : Char} {rest : List Char} {opened next result : List Opening}
    (own : c ∈ brackets) (met : meet (kinds opened) c = some (kinds next))
    (later : ∃ word, Resumes none rest word ∧ nest (kinds next) word = some (kinds result)) :
    ∃ word, Resumes none (c :: rest) word ∧ nest (kinds opened) word = some (kinds result) := by
  obtain ⟨word, more, nested⟩ := later
  refine ⟨c :: word, .bracket own more, ?_⟩
  rw [nest_cons, met, Option.bind_some, nested]

/-- A scan that ends well has read a line with closed literals, and keeps the brackets that are left
open. -/
private theorem resumes_of_scan {line : Nat} {state : Option Char} {opened result : List Opening}
    {text : List Char} (scanned : scan line state opened text = .ok result) :
    ∃ word, Resumes state text word ∧ nest (kinds opened) word = some (kinds result) := by
  -- The induction goes through literals as well: their characters are gathered one by one and put
  -- together where the scan has met the opening quote.
  fun_induction scan line state opened text with
  | case1 opened =>
    obtain rfl := Except.ok.inj scanned
    exact ⟨[], .nil, rfl⟩
  | case2 opened text =>
    obtain rfl := Except.ok.inj scanned
    exact ⟨[], .comment text, rfl⟩
  | case3 opened c rest _ opens ih =>
    obtain ⟨word, ⟨inside, later, rfl, quoted, more⟩, nested⟩ := ih scanned
    exact ⟨word, .literal (mem_quotes_iff.2 opens) quoted more, nested⟩
  | case4 opened c rest _ _ opening ih =>
    have foreign : partner? c = none := by
      rw [Bool.or_eq_true, beq_iff_eq, beq_iff_eq] at opening
      rcases opening with rfl | rfl <;> rfl
    exact resumes_bracket (mem_brackets_iff.2 (.inl opening)) (meet_of_opening foreign _)
      (ih scanned)
  | case5 opened c rest _ _ _ partner closing next closed ih =>
    obtain ⟨opening, rfl, rfl⟩ := close_eq_ok_iff.1 closed
    exact resumes_bracket (mem_brackets_iff.2 (.inr ⟨_, closing⟩))
      ((meet_of_closing closing _ _).2 rfl) (ih scanned)
  | case6 | case8 | case9 => exact absurd scanned (by simp)
  | case7 opened c rest uncommented unquoted unopened unclosed ih =>
    obtain ⟨word, more, nested⟩ := ih scanned
    refine ⟨word, .other (mt mem_quotes_iff.1 unquoted) ?_ ?_ more, nested⟩
    · rw [mem_brackets_iff, not_or]
      exact ⟨unopened, by simp [unclosed]⟩
    · rintro rfl head
      obtain ⟨tail, rfl⟩ := List.head?_eq_some_iff.1 head
      exact uncommented tail rfl rfl
  | case10 quote opened taken rest ih =>
    obtain ⟨word, ⟨inside, later, rfl, quoted, more⟩, nested⟩ := ih scanned
    exact ⟨word, ⟨'\\' :: taken :: inside, later, rfl, .escape quoted, more⟩, nested⟩
  | case11 quote opened c rest _ _ closes ih =>
    obtain ⟨word, more, nested⟩ := ih scanned
    exact ⟨word, ⟨[], rest, by rw [beq_iff_eq.1 closes, List.nil_append], .nil, more⟩, nested⟩
  | case12 quote opened c rest trailing escaping other ih =>
    obtain ⟨word, ⟨inside, later, rfl, quoted, more⟩, nested⟩ := ih scanned
    refine ⟨word, ⟨c :: inside, later, rfl, .plain (by simpa using other) ?_ quoted, more⟩, nested⟩
    rintro rfl
    cases inside with
    | nil => exact escaping quote later rfl rfl
    | cons next front => exact escaping next (front ++ quote :: later) rfl rfl

private theorem scan_cons {c : Char} {rest : List Char}
    (uncommented : c = '/' → rest.head? ≠ some '/') (line : Nat) (opened : List Opening) :
    scan line none opened (c :: rest) =
      if c == '"' || c == '\'' then scan line (some c) opened rest
      else if c == '(' || c == '[' then scan line none (⟨c, line⟩ :: opened) rest
      else
        match partner? c with
        | some partner =>
          match close line c partner opened with
          | .ok opened => scan line none opened rest
          | .error fault => .error fault
        | none => scan line none opened rest := by
  refine (scan.eq_3 line opened c rest ?_).trans rfl
  rintro tail rfl rfl
  exact uncommented rfl rfl

private theorem scan_bracket {c : Char} {rest : List Char} {opened : List Opening}
    {left : List Char} (own : c ∈ brackets) (line : Nat)
    (met : meet (kinds opened) c = some left) :
    ∃ next, scan line none opened (c :: rest) = scan line none next rest ∧ kinds next = left := by
  obtain ⟨unquoted, uncommented⟩ := ne_of_mem_brackets own
  rw [scan_cons (fun slash => absurd slash uncommented), if_neg (mt mem_quotes_iff.2 unquoted)]
  cases closing : partner? c with
  | none =>
    have opening : (c == '(' || c == '[') = true := by
      refine (mem_brackets_iff.1 own).resolve_right ?_
      rintro ⟨partner, found⟩
      exact absurd (closing.symm.trans found) (by simp)
    rw [if_pos opening]
    rw [meet_of_opening closing] at met
    exact ⟨_, rfl, Option.some.inj met⟩
  | some partner =>
    have unopened : ¬ (c == '(' || c == '[') = true := by
      rw [partner?_eq_some_iff] at closing
      rcases closing with ⟨rfl, -⟩ | ⟨rfl, -⟩ <;> decide
    obtain ⟨opening, next, rfl, rfl, rfl⟩ :=
      List.map_eq_cons_iff.1 ((meet_of_closing closing _ _).1 met)
    have closed : close line c opening.bracket (opening :: next) = .ok next :=
      close_eq_ok_iff.2 ⟨opening, rfl, rfl⟩
    refine ⟨next, ?_, rfl⟩
    rw [if_neg unopened]
    simp only [closed]

/-- A line with closed literals is scanned to its end, when its brackets close what was opened
last. -/
private theorem scan_of_outerBrackets {text word : List Char} (outer : OuterBrackets text word)
    (line : Nat) {opened : List Opening} {left : List Char}
    (nested : nest (kinds opened) word = some left) :
    ∃ result, scan line none opened text = .ok result ∧ kinds result = left := by
  induction outer generalizing opened with
  | nil => exact ⟨opened, by rw [scan], Option.some.inj nested⟩
  | comment text => exact ⟨opened, scan_comment line opened text, Option.some.inj nested⟩
  | @literal quote inside rest word opens quoted more ih =>
    obtain ⟨result, scanned, same⟩ := ih nested
    obtain ⟨bare, uncommented⟩ := ne_of_mem_quotes opens
    refine ⟨result, ?_, same⟩
    rw [scan_cons (fun slash => absurd slash uncommented), if_pos (mem_quotes_iff.1 opens),
      scan_quoted quoted bare, scanned]
  | bracket own more ih =>
    obtain ⟨left, met, nested⟩ := Option.bind_eq_some_iff.1 ((nest_cons _ _ _).symm.trans nested)
    obtain ⟨next, scanned, rfl⟩ := scan_bracket own line met
    rw [scanned]
    exact ih nested
  | other unquoted unbracketed uncommented more ih =>
    obtain ⟨unopened, unclosed⟩ := not_or.1 (mt mem_brackets_iff.2 unbracketed)
    have unpaired : partner? _ = none :=
      Option.eq_none_iff_forall_ne_some.2 fun partner found => unclosed ⟨partner, found⟩
    rw [scan_cons uncommented, if_neg (mt mem_quotes_iff.2 unquoted), if_neg unopened, unpaired]
    exact ih nested

/-- The lines are scanned to the end exactly when their literals are closed and their brackets close
what was opened last. -/
private theorem scanLines_eq_ok_iff (lines : List (List Char)) (number : Nat)
    (opened : List Opening)
    (left : List Char) :
    (∃ result, scanLines number opened lines = .ok result ∧ kinds result = left) ↔
      ∃ words, List.Forall₂ OuterBrackets lines words ∧
        nest (kinds opened) words.flatten = some left := by
  induction lines generalizing number opened with
  | nil => simp [scanLines, nest_nil]
  | cons line rest ih =>
    rw [scanLines]
    constructor
    · rintro ⟨result, scanned, same⟩
      split at scanned
      · rename_i next first
        obtain ⟨word, outer, nested⟩ := resumes_of_scan first
        obtain ⟨words, others, later⟩ := (ih _ next).1 ⟨result, scanned, same⟩
        refine ⟨word :: words, .cons outer others, ?_⟩
        rw [List.flatten_cons, nest_append, nested, Option.bind_some, later]
      · exact absurd scanned (by simp)
    · rintro ⟨_, _ | ⟨outer, others⟩, nested⟩
      rw [List.flatten_cons, nest_append] at nested
      obtain ⟨_, first, later⟩ := Option.bind_eq_some_iff.1 nested
      obtain ⟨next, scanned, rfl⟩ := scan_of_outerBrackets outer number first
      rw [scanned]
      exact (ih _ next).2 ⟨_, others, later⟩

/-! ### Well-nested words -/

theorem WellNested.pair {opening closing : Char} {inside rest : List Char}
    (paired : partner? closing = some opening) (inner : WellNested inside)
    (more : WellNested rest) : WellNested (opening :: (inside ++ closing :: rest)) := by
  rcases partner?_eq_some_iff.1 paired with ⟨rfl, rfl⟩ | ⟨rfl, rfl⟩
  · exact .round inner more
  · exact .square inner more

/-- The words that close what is open, the last opened bracket first, with well-nested words before,
between and behind the closing brackets. -/
def Closes : List Char → List Char → Prop
  | [], word => WellNested word
  | opening :: below, word => ∃ inside closing rest,
      word = inside ++ closing :: rest ∧ partner? closing = some opening ∧
        WellNested inside ∧ Closes below rest

private theorem nest_of_wellNested {word : List Char} (nested : WellNested word)
    (opened rest : List Char) : nest opened (word ++ rest) = nest opened rest := by
  induction nested generalizing opened rest with
  | nil => rfl
  | round inner more first second | square inner more first second =>
    rw [List.cons_append, List.append_assoc, nest_cons, meet_of_opening rfl, Option.bind_some,
      first, List.cons_append, nest_cons, (meet_of_closing rfl _ _).2 rfl, Option.bind_some,
      second]

private theorem closes_pair {opening closing : Char} {inside rest : List Char}
    (paired : partner? closing = some opening) (inner : WellNested inside) {opened : List Char}
    (closes : Closes opened rest) : Closes opened (opening :: (inside ++ closing :: rest)) := by
  cases opened with
  | nil => exact .pair paired inner closes
  | cons last below =>
    obtain ⟨front, final, behind, rfl, own, clear, later⟩ := closes
    exact ⟨_, final, behind, by simp, own, .pair paired inner clear, later⟩

private theorem closes_of_nest {word opened : List Char} (nested : nest opened word = some []) :
    Closes opened word := by
  -- For all brackets that may be open: an opening bracket is one more of them, and with what closes
  -- it first it makes a pair in front of the rest.
  induction word generalizing opened with
  | nil =>
    obtain rfl := Option.some.inj nested
    exact WellNested.nil
  | cons c rest ih =>
    rw [nest_cons] at nested
    obtain ⟨next, met, later⟩ := Option.bind_eq_some_iff.1 nested
    cases paired : partner? c with
    | none =>
      obtain rfl := Option.some.inj ((meet_of_opening paired opened).symm.trans met)
      obtain ⟨inside, closing, behind, rfl, own, inner, closes⟩ := ih later
      exact closes_pair own inner closes
    | some partner =>
      obtain rfl := (meet_of_closing paired _ _).1 met
      exact ⟨[], c, rest, rfl, paired, .nil, ih later⟩

private theorem nest_eq_nil_iff {word : List Char} : nest [] word = some [] ↔ WellNested word := by
  refine ⟨closes_of_nest, fun nested => ?_⟩
  rw [← List.append_nil word, nest_of_wellNested nested, nest_nil]

/-! ### The check -/

private theorem occursIn_iff {word text : List Char} :
    Text.occursIn word text = true ↔ word <:+: text := by
  refine ⟨fun found => ?_, occursIn_of_infix⟩
  induction text with
  | nil => simpa [Text.occursIn] using found
  | cons c rest ih =>
    rw [Text.occursIn, Bool.or_eq_true, List.isPrefixOf_iff_prefix] at found
    rcases found with front | later
    · exact front.isInfix
    · exact List.infix_cons (ih later)

theorem OuterWords.unique {text : List Char} {words others : List (List Char)}
    (read : OuterWords text words) (again : OuterWords text others) : others = words := by
  obtain ⟨lines, cut, outer⟩ := read
  obtain ⟨same, other, outer'⟩ := again
  obtain rfl := (Text.cut_iff.1 cut).trans (Text.cut_iff.1 other).symm
  have functional : Relator.RightUnique OuterBrackets := fun _ _ _ => OuterBrackets.unique
  exact functional.forall₂ outer' outer

private theorem scanLines_eq_nil_iff (text : List Char) :
    scanLines 1 [] (Text.lineChars text) = .ok [] ↔
      ∃ words, OuterWords text words ∧ WellNested words.flatten := by
  have read := scanLines_eq_ok_iff (Text.lineChars text) 1 [] []
  constructor
  · intro scanned
    obtain ⟨words, outer, nested⟩ := read.1 ⟨[], scanned, rfl⟩
    exact ⟨words, ⟨_, Text.cut_iff.2 rfl, outer⟩, nest_eq_nil_iff.1 nested⟩
  · rintro ⟨words, ⟨lines, cut, outer⟩, nested⟩
    obtain rfl := Text.cut_iff.1 cut
    obtain ⟨result, scanned, empty⟩ := read.2 ⟨words, outer, nest_eq_nil_iff.2 nested⟩
    rw [scanned, List.map_eq_nil_iff.1 empty]

/-- The structure check accepts the texts that name the version and the declaration, whose lines
close their literals, and whose brackets outside of literals and comments are well nested over all
lines.  There is one way to read the brackets off a text. -/
theorem checkStructure_eq_ok_iff (code : String) :
    checkStructure code = .ok () ↔
      "//@version=".toList <:+: code.toList ∧ "strategy(".toList <:+: code.toList ∧
        ∃! words, OuterWords code.toList words ∧ WellNested words.flatten := by
  have once : (∃! words, OuterWords code.toList words ∧ WellNested words.flatten) ↔
      ∃ words, OuterWords code.toList words ∧ WellNested words.flatten := by
    refine ⟨ExistsUnique.exists, ?_⟩
    rintro ⟨words, read, nested⟩
    exact ⟨words, ⟨read, nested⟩, fun other again => read.unique again.1⟩
  rw [once, ← occursIn_iff, ← occursIn_iff, ← scanLines_eq_nil_iff]
  change _ ↔ Text.contains code "//@version=" = true ∧ Text.contains code "strategy(" = true ∧ _
  unfold checkStructure
  split
  · rename_i missing
    simp_all
  · split
    · rename_i missing
      simp_all
    · rename_i version declaration
      rw [Bool.not_eq_true', Bool.not_eq_false] at version declaration
      rw [version, declaration]
      split <;> simp_all

end StrategyCompiler.Script
