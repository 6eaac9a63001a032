import StrategyCompiler.Proofs.Naming.Identifier
import StrategyCompiler.Proofs.Number.Numeral
import StrategyCompiler.Proofs.Script.Words
/-!
The tokens that expressions are cut into: words, numerals, literals, signs and the marks of calls.
A minus sign directly in front of a digit belongs to the numeral.  Blanks only keep tokens apart.
-/

set_option autoImplicit false

namespace StrategyCompiler.Script

open Number (IsDecimal IsUnsigned isDigits)

inductive Token
  | word (text : String)
  | numeral (text : String)
  | literal (value : String)
  | sign (text : String)
  | opening
  | closing
  | comma
  deriving DecidableEq

/-- Read a literal up to the quote that closes it: its value, and what stands behind it. -/
def unquote? : List Char → Option (List Char × List Char)
  | [] => none
  | '"' :: rest => some ([], rest)
  | '\\' :: c :: rest => (unquote? rest).map fun (value, after) => (c :: value, after)
  | c :: rest => (unquote? rest).map fun (value, after) => (c :: value, after)

/-- Split the digits of a numeral off the front, with those behind a point if there are any. -/
def spanNumeral (cs : List Char) : List Char × List Char :=
  match cs.dropWhile Char.isDigit with
  | '.' :: d :: after =>
    if d.isDigit then
      (cs.takeWhile Char.isDigit ++ '.' :: (d :: after).takeWhile Char.isDigit,
        (d :: after).dropWhile Char.isDigit)
    else (cs.takeWhile Char.isDigit, '.' :: d :: after)
  | after => (cs.takeWhile Char.isDigit, after)

def sign? : List Char → Option (Token × List Char)
  | '=' :: '=' :: rest => some (.sign "==", rest)
  | '!' :: '=' :: rest => some (.sign "!=", rest)
  | '>' :: rest => some (.sign ">", rest)
  | '<' :: rest => some (.sign "<", rest)
  | '+' :: rest => some (.sign "+", rest)
  | '-' :: rest => some (.sign "-", rest)
  | '*' :: rest => some (.sign "*", rest)
  | '/' :: rest => some (.sign "/", rest)
  | _ => none

def startsWord (c : Char) : Bool := c.isAlpha || c == '_'

def startsNumeral : List Char → Bool
  | '-' :: d :: _ => d.isDigit
  | c :: _ => c.isDigit
  | [] => false

def numeral : List Char → Token × List Char
  | '-' :: rest => (.numeral (String.ofList ('-' :: (spanNumeral rest).1)), (spanNumeral rest).2)
  | cs => (.numeral (String.ofList (spanNumeral cs).1), (spanNumeral cs).2)

/-- Read the token at the front of a text, and what stands behind it. -/
def token? : List Char → Option (Token × List Char)
  | [] => none
  | '(' :: rest => some (.opening, rest)
  | ')' :: rest => some (.closing, rest)
  | ',' :: rest => some (.comma, rest)
  | '"' :: rest =>
    (unquote? rest).map fun (value, after) => (.literal (String.ofList value), after)
  | c :: rest =>
    if startsWord c then
      some (.word (String.ofList ((c :: rest).takeWhile isWordChar)),
        (c :: rest).dropWhile isWordChar)
    else if startsNumeral (c :: rest) then some (numeral (c :: rest))
    else sign? (c :: rest)

def lex (cs : List Char) : Option (List Token) :=
  match cs with
  | [] => some []
  | ' ' :: rest => lex rest
  | c :: rest =>
    match token? (c :: rest) with
    | some (token, after) =>
      if after.length ≤ rest.length then (lex after).map fun tokens => token :: tokens else none
    | none => none
termination_by cs.length

/-! ### The front of a text -/

def Breaks (rest : List Char) : Prop := ∀ c ∈ rest.head?, isWordChar c = false

private theorem breaks_cons {c : Char} (between : isWordChar c = false) (rest : List Char) :
    Breaks (c :: rest) := by
  rintro _ ⟨⟩
  exact between

theorem span_append {keep : Char → Bool} {front rest : List Char}
    (kept : front.all keep = true) (stops : ∀ c ∈ rest.head?, keep c = false) :
    (front ++ rest).takeWhile keep = front ∧ (front ++ rest).dropWhile keep = rest := by
  have each : ∀ c ∈ front, keep c = true := List.all_eq_true.1 kept
  rw [List.takeWhile_append_of_pos each, List.dropWhile_append_of_pos each]
  cases rest with
  | nil => simp
  | cons c rest =>
    have stop : keep c = false := stops c rfl
    simp [stop]

/-- A text whose characters were escaped is read up to the quote behind it, its line breaks being
spaces. -/
theorem unquote?_flatMap (text : String) (rest : List Char) :
    unquote? (text.toList.flatMap literalChar ++ '"' :: rest) =
      some ((Page.flatten text).toList, rest) := by
  rw [Page.flatten, String.toList_ofList]
  induction text.toList with
  | nil => rfl
  | cons c cs ih =>
    rw [List.flatMap_cons, List.append_assoc, List.map_cons]
    by_cases escaped : (c == '\\' || c == '"') = true
    · have shape : literalChar c = ['\\', c] := if_pos escaped
      have unbroken : ¬ (c == '\n' || c == '\r') = true := by
        simp only [Bool.or_eq_true, beq_iff_eq] at escaped
        rcases escaped with rfl | rfl <;> decide
      rw [shape, if_neg unbroken, List.cons_append, List.singleton_append, unquote?, ih]
      rfl
    · by_cases broken : (c == '\n' || c == '\r') = true
      · have shape : literalChar c = [' '] := by rw [literalChar, if_neg escaped, if_pos broken]
        rw [shape, if_pos broken, List.singleton_append, unquote?, ih]
        · rfl
        · decide
        · exact fun d rest escape => absurd escape (by decide)
      · have shape : literalChar c = [c] := by rw [literalChar, if_neg escaped, if_neg broken]
        simp only [Bool.or_eq_true, beq_iff_eq, not_or] at escaped
        rw [shape, if_neg broken, List.singleton_append, unquote?, ih]
        · rfl
        · exact escaped.2
        · exact fun d rest escape => absurd escape escaped.1

private theorem isDigit_of_isDigits {cs : List Char} (own : isDigits cs = true) :
    cs ≠ [] ∧ cs.all Char.isDigit = true := by
  simpa [isDigits] using own

theorem not_isDigit_of_breaks {rest : List Char} (breaks : Breaks rest) :
    ∀ c ∈ rest.head?, c.isDigit = false := by
  intro c first
  have between := breaks c first
  simp only [isWordChar, Char.isAlphanum, Bool.or_eq_false_iff] at between
  exact between.1.1.2

private theorem spanNumeral_unsigned {text rest : List Char} (own : IsUnsigned text)
    (breaks : Breaks rest) : spanNumeral (text ++ rest) = (text, rest) := by
  have stops := not_isDigit_of_breaks breaks
  cases own with
  | whole digits =>
    obtain ⟨taken, dropped⟩ := span_append (isDigit_of_isDigits digits).2 stops
    unfold spanNumeral
    rw [taken, dropped]
    split
    · exact absurd (breaks '.' rfl) (by decide)
    · rfl
  | @fraction digits more first second =>
    obtain ⟨nonempty, all⟩ := isDigit_of_isDigits second
    have point : ∀ c ∈ ('.' :: (more ++ rest)).head?, c.isDigit = false := by
      rintro _ ⟨⟩
      rfl
    obtain ⟨taken, dropped⟩ := span_append (isDigit_of_isDigits first).2 point
    obtain ⟨taken', dropped'⟩ := span_append all stops
    rw [List.append_assoc, List.cons_append]
    unfold spanNumeral
    rw [taken, dropped]
    cases more with
    | nil => exact absurd rfl nonempty
    | cons d more =>
      have digit : d.isDigit = true := (Bool.and_eq_true_iff.1 (List.all_cons ▸ all)).1
      rw [List.cons_append] at taken' dropped' ⊢
      simp only [digit, if_true]
      rw [taken', dropped']

private theorem not_startsWord_of_isDigit {c : Char} (digit : c.isDigit = true) :
    startsWord c = false := by
  have small : c.val ≤ 57 := by
    simp only [Char.isDigit, Bool.and_eq_true, decide_eq_true_eq] at digit
    exact digit.2
  refine Bool.eq_false_iff.2 fun starts => ?_
  simp only [startsWord, Naming.isAlpha_eq, Naming.isUpper_eq, Naming.isLower_eq,
    Bool.or_eq_true, Bool.and_eq_true, decide_eq_true_eq, beq_iff_eq] at starts
  rcases starts with (upper | lower) | rfl
  · exact absurd (UInt32.le_trans upper.1 small) (by decide)
  · exact absurd (UInt32.le_trans lower.1 small) (by decide)
  · exact absurd small (by decide)

def marks : List Char := ['(', ')', ',', '"']

theorem token?_of_not_mem_marks {c : Char} (other : c ∉ marks) (rest : List Char) :
    token? (c :: rest) =
      if startsWord c then
        some (.word (String.ofList ((c :: rest).takeWhile isWordChar)),
          (c :: rest).dropWhile isWordChar)
      else if startsNumeral (c :: rest) then some (numeral (c :: rest))
      else sign? (c :: rest) := by
  simp only [marks, List.mem_cons, List.not_mem_nil, or_false, not_or] at other
  obtain ⟨opening, closing, comma, quote⟩ := other
  rw [token?]
  · exact opening
  · exact closing
  · exact comma
  · exact quote

private theorem not_mem_marks_of_startsWord {c : Char} (starts : startsWord c = true) :
    c ∉ marks := by
  have none : (marks.all fun mark => !startsWord mark) = true := by decide
  intro member
  have other := List.all_eq_true.1 none c member
  rw [starts] at other
  exact absurd other (by decide)

private theorem not_mem_marks_of_isDigit {c : Char} (digit : c.isDigit = true) : c ∉ marks := by
  have none : (marks.all fun mark => !mark.isDigit) = true := by decide
  intro member
  have other := List.all_eq_true.1 none c member
  rw [digit] at other
  exact absurd other (by decide)

private theorem token?_word {c : Char} {front rest : List Char} (starts : startsWord c = true)
    (word : (c :: front).all isWordChar = true) (breaks : Breaks rest) :
    token? (c :: front ++ rest) = some (.word (String.ofList (c :: front)), rest) := by
  obtain ⟨taken, dropped⟩ := span_append word breaks
  rw [List.cons_append] at taken dropped ⊢
  rw [token?_of_not_mem_marks (not_mem_marks_of_startsWord starts), if_pos starts, taken, dropped]

theorem exists_isDigit_of_isUnsigned {cs : List Char} (own : IsUnsigned cs) :
    ∃ d more, cs = d :: more ∧ d.isDigit = true := by
  have first {digits : List Char} (shown : isDigits digits = true) :
      ∃ d more, digits = d :: more ∧ d.isDigit = true := by
    obtain ⟨nonempty, all⟩ := isDigit_of_isDigits shown
    obtain ⟨d, more, rfl⟩ := List.exists_cons_of_ne_nil nonempty
    exact ⟨d, more, rfl, (Bool.and_eq_true_iff.1 (List.all_cons ▸ all)).1⟩
  cases own with
  | whole digits => exact first digits
  | fraction digits _ =>
    obtain ⟨d, more, rfl, digit⟩ := first digits
    exact ⟨d, _, rfl, digit⟩

private theorem token?_unsigned {cs rest : List Char} (own : IsUnsigned cs) (breaks : Breaks rest) :
    token? (cs ++ rest) = some (.numeral (String.ofList cs), rest) := by
  obtain ⟨d, more, rfl, digit⟩ := exists_isDigit_of_isUnsigned own
  have split := spanNumeral_unsigned own breaks
  have other : d ≠ '-' := by
    rintro rfl
    exact absurd digit (by decide)
  rw [List.cons_append] at split ⊢
  have starts : startsNumeral (d :: (more ++ rest)) = true := by
    rw [startsNumeral]
    · exact digit
    · exact fun _ _ same => absurd same other
  rw [token?_of_not_mem_marks (not_mem_marks_of_isDigit digit), not_startsWord_of_isDigit digit,
    if_neg Bool.false_ne_true, if_pos starts, numeral, split]
  exact fun _ same => absurd (List.cons.inj same).1 other

private theorem token?_negative {cs rest : List Char} (own : IsUnsigned cs) (breaks : Breaks rest) :
    token? ('-' :: cs ++ rest) = some (.numeral (String.ofList ('-' :: cs)), rest) := by
  obtain ⟨d, more, rfl, digit⟩ := exists_isDigit_of_isUnsigned own
  have split := spanNumeral_unsigned own breaks
  rw [List.cons_append] at split
  have starts : startsNumeral ('-' :: d :: (more ++ rest)) = true := digit
  rw [List.cons_append, List.cons_append, token?_of_not_mem_marks (by decide), if_neg (by decide),
    if_pos starts, numeral, split]

private theorem token?_literal {value : String} (flat : Flat value.toList) (rest : List Char) :
    token? (literalChars value.toList ++ rest) = some (.literal value, rest) := by
  have shape : literalChars value.toList ++ rest =
      '"' :: (value.toList.flatMap literalChar ++ '"' :: rest) := by
    simp [literalChars]
  rw [shape, token?, unquote?_flatMap, Page.flatten_of_flat flat]
  simp

/-! ### Texts that are cut into tokens -/

private theorem lex_blank (rest : List Char) : lex (' ' :: rest) = lex rest := by
  rw [lex]

private theorem lex_token {front rest : List Char} {token : Token} (nonempty : front ≠ [])
    (read : token? (front ++ rest) = some (token, rest)) :
    lex (front ++ rest) = (lex rest).map fun tokens => token :: tokens := by
  obtain ⟨c, front, rfl⟩ := List.exists_cons_of_ne_nil nonempty
  rw [List.cons_append] at read ⊢
  have ink : c ≠ ' ' := by
    rintro rfl
    rw [token?_of_not_mem_marks (by decide), if_neg (by decide)] at read
    exact absurd read (by simp [startsNumeral, sign?])
  rw [lex, read]
  · exact if_pos (by simp)
  · exact ink

/-- A text that is cut into these tokens in front of everything that lets it end. -/
def Lexes (text : String) (tokens : List Token) : Prop :=
  ∀ rest, Breaks rest → lex (text.toList ++ rest) = (lex rest).map fun more => tokens ++ more

/-- A text that ends what stands in front of it and is cut into these tokens wherever it stands. -/
structure Cuts (text : String) (tokens : List Token) : Prop where
  breaks : ∃ c rest, text.toList = c :: rest ∧ isWordChar c = false
  lexes : ∀ rest, lex (text.toList ++ rest) = (lex rest).map fun more => tokens ++ more

namespace Lexes

theorem empty : Lexes "" [] := by
  intro rest _
  simp

theorem token {text : String} {own : Token} (nonempty : text.toList ≠ [])
    (read : ∀ rest, Breaks rest → token? (text.toList ++ rest) = some (own, rest)) :
    Lexes text [own] :=
  fun rest breaks => lex_token nonempty (read rest breaks)

theorem word {text : String} {c : Char} (first : text.toList.head? = some c)
    (starts : startsWord c = true) (single : isWord text = true) : Lexes text [.word text] := by
  obtain ⟨front, shape⟩ := List.head?_eq_some_iff.1 first
  refine token (by simp [shape]) fun rest breaks => ?_
  rw [isWord, shape] at single
  have read := token?_word starts single breaks
  rwa [← shape, String.ofList_toList] at read

theorem numeral {text : String} (own : IsDecimal text) : Lexes text [.numeral text] := by
  cases own with
  | @positive cs unsigned =>
    obtain ⟨d, more, shape, -⟩ := exists_isDigit_of_isUnsigned unsigned
    refine token (by simp [shape]) fun rest breaks => ?_
    rw [String.toList_ofList]
    exact token?_unsigned unsigned breaks
  | @negative cs unsigned =>
    refine token (by simp) fun rest breaks => ?_
    rw [String.toList_ofList]
    exact token?_negative unsigned breaks

theorem literal {value : String} (flat : Flat value.toList) :
    Lexes (Script.literal value) [.literal value] := by
  have shape : (Script.literal value).toList = literalChars value.toList := String.toList_ofList
  refine token (by simp [shape, literalChars]) fun rest _ => ?_
  have read := token?_literal flat rest
  rwa [← shape] at read

theorem between {left middle right : String} {first second third : List Token}
    (front : Lexes left first) (cut : Cuts middle second) (back : Lexes right third) :
    Lexes (left ++ middle ++ right) (first ++ second ++ third) := by
  intro rest breaks
  obtain ⟨c, tail, shape, between⟩ := cut.breaks
  have ends : Breaks (middle.toList ++ (right.toList ++ rest)) := by
    rw [shape]
    exact breaks_cons between _
  have text : (left ++ middle ++ right).toList ++ rest =
      left.toList ++ (middle.toList ++ (right.toList ++ rest)) := by
    simp
  rw [text, front _ ends, cut.lexes, back rest breaks]
  simp [Option.map_map, Function.comp_def]

theorem intercalate {separator : String} {between : List Token} (cut : Cuts separator between)
    {texts : List String} {rows : List (List Token)} (each : List.Forall₂ Lexes texts rows) :
    Lexes (separator.intercalate texts) (between.intercalate rows) := by
  induction each with
  | nil => exact empty
  | cons first others ih =>
    cases others with
    | nil =>
      rw [String.intercalate_singleton, List.intercalate_singleton]
      exact first
    | cons second others =>
      rw [String.intercalate_cons_cons, List.intercalate_cons_cons]
      exact first.between cut ih

end Lexes

namespace Cuts

theorem mark {c : Char} {own : Token} (other : isWordChar c = false)
    (read : ∀ rest, token? (c :: rest) = some (own, rest)) : Cuts (String.ofList [c]) [own] where
  breaks := ⟨c, [], String.toList_ofList, other⟩
  lexes := fun rest => by
    rw [String.toList_ofList]
    exact lex_token (List.cons_ne_nil c []) (read rest)

theorem blank : Cuts " " [] where
  breaks := ⟨' ', [], rfl, rfl⟩
  lexes := fun rest => by
    rw [show " ".toList ++ rest = ' ' :: rest from rfl, lex_blank]
    simp

theorem append {left right : String} {first second : List Token} (front : Cuts left first)
    (back : Cuts right second) : Cuts (left ++ right) (first ++ second) where
  breaks := by
    obtain ⟨c, rest, shape, between⟩ := front.breaks
    exact ⟨c, rest ++ right.toList, by simp [shape], between⟩
  lexes := fun rest => by
    rw [String.toList_append, List.append_assoc, front.lexes, back.lexes]
    simp [Option.map_map, Function.comp_def]

theorem blanks {text : String} {tokens : List Token} (own : Lexes text tokens) :
    Cuts (" " ++ text ++ " ") tokens where
  breaks := ⟨' ', (text ++ " ").toList, by simp, rfl⟩
  lexes := fun rest => by
    have shape : (" " ++ text ++ " ").toList ++ rest = ' ' :: (text.toList ++ ' ' :: rest) := by
      simp
    rw [shape, lex_blank, own _ (breaks_cons rfl rest), lex_blank]

end Cuts

end StrategyCompiler.Script
