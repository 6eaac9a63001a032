import StrategyCompiler.Proofs.Script.Vocabulary
import StrategyCompiler.Script.Words
/-!
The grammar of expressions.  A phrase has the strength of its outermost operator: disjunctions are
the weakest, then conjunctions, negations, comparisons, sums and products; words, literals,
numerals, calls, lists and what stands in parentheses are the strongest.  An argument of a call is
an expression, or a label with one.
-/

set_option autoImplicit false

namespace StrategyCompiler.Script

/-! ### Words and literals -/

def keywords : List String := ["and", "or", "not", "if", "true", "false"]

/-- Whether the characters are letters, digits and underscores, with no digit in front. -/
def isIdentChars : List Char → Bool
  | [] => false
  | c :: rest => (c.isAlpha || c == '_') && rest.all fun d => d.isAlphanum || d == '_'

def isIdent (text : String) : Bool := isIdentChars text.toList && !keywords.contains text

/-- An identifier that the script language leaves to variables. -/
def IsName (name : String) : Prop := isIdent name = true ∧ name ∉ reservedWords

def isDotted (text : String) : Bool :=
  (text.toList.splitOn '.').all isIdentChars && !keywords.contains text

/-- Whether the characters go up to the quote that closes a literal.  In a literal only backslashes
and quotes are escaped, and there are no line breaks. -/
def isLiteralEnd : List Char → Bool
  | [] => false
  | '\\' :: c :: rest => (c == '\\' || c == '"') && isLiteralEnd rest
  | '"' :: rest => rest.isEmpty
  | c :: rest => c != '\\' && c != '\n' && c != '\r' && isLiteralEnd rest

def isLiteral (text : String) : Bool :=
  match text.toList with
  | '"' :: rest => isLiteralEnd rest
  | _ => false

theorem isDotted_of_isIdent {text : String} (ident : isIdent text = true) :
    isDotted text = true := by
  simp only [isIdent, Bool.and_eq_true] at ident
  obtain ⟨chars, free⟩ := ident
  have whole : text.toList.splitOn '.' = [text.toList] := by
    have plain : '.' ∉ text.toList := by
      cases shape : text.toList with
      | nil => exact List.not_mem_nil
      | cons c rest =>
        rw [shape] at chars
        simp only [isIdentChars, Bool.and_eq_true, List.all_eq_true] at chars
        rintro (_ | ⟨_, inside⟩)
        · exact absurd chars.1 (by decide)
        · exact absurd (chars.2 '.' inside) (by decide)
    exact List.splitOn_eq_singleton plain
  rw [isDotted, whole, free, List.all_cons, chars]
  rfl

private theorem isLiteralEnd_literalChar (c : Char) {rest : List Char}
    (ends : isLiteralEnd rest = true) :
    isLiteralEnd (literalChar c ++ rest) = true := by
  unfold literalChar
  split
  · rename_i escaped
    rw [List.cons_append, List.singleton_append, isLiteralEnd, ends, escaped]
    rfl
  · rename_i plain
    split
    · exact ends
    · rename_i unbroken
      simp only [Bool.or_eq_true, beq_iff_eq, not_or] at plain unbroken
      rw [List.singleton_append, isLiteralEnd, ends]
      · simp [plain.1, unbroken.1, unbroken.2]
      · exact fun d rest escape => absurd escape plain.1
      · exact plain.2

private theorem isLiteralEnd_flatMap (cs : List Char) :
    isLiteralEnd (cs.flatMap literalChar ++ ['"']) = true := by
  induction cs with
  | nil => rfl
  | cons c cs ih =>
    rw [List.flatMap_cons, List.append_assoc]
    exact isLiteralEnd_literalChar c ih

theorem isLiteral_literal (value : String) : isLiteral (literal value) = true := by
  rw [isLiteral, literal, String.toList_ofList]
  exact isLiteralEnd_flatMap value.toList

/-! ### Phrases -/

/-- The phrases of at least a strength, from arguments at 0 over disjunctions at 1 to what stands
for itself at 7, with the given numerals.  Comparisons do not chain. -/
inductive Phrase (numeral : String → Prop) : Nat → String → Prop
  | loosen {strength demand : Nat} {text : String} :
      demand ≤ strength → Phrase numeral strength text → Phrase numeral demand text
  | named {label value : String} :
      isIdent label = true → Phrase numeral 1 value → Phrase numeral 0 (label ++ "=" ++ value)
  | or {terms : List String} :
      terms ≠ [] → (∀ term ∈ terms, Phrase numeral 2 term) →
      Phrase numeral 1 (" or ".intercalate terms)
  | and {terms : List String} :
      terms ≠ [] → (∀ term ∈ terms, Phrase numeral 3 term) →
      Phrase numeral 2 (" and ".intercalate terms)
  | not {operand : String} : Phrase numeral 3 operand → Phrase numeral 3 ("not " ++ operand)
  | compare {sign left right : String} :
      sign ∈ [">", "<", "==", "!="] → Phrase numeral 5 left → Phrase numeral 5 right →
      Phrase numeral 4 (left ++ " " ++ sign ++ " " ++ right)
  | sum {sign left right : String} :
      sign ∈ ["+", "-"] → Phrase numeral 5 left → Phrase numeral 6 right →
      Phrase numeral 5 (left ++ " " ++ sign ++ " " ++ right)
  | product {sign left right : String} :
      sign ∈ ["*", "/"] → Phrase numeral 6 left → Phrase numeral 7 right →
      Phrase numeral 6 (left ++ " " ++ sign ++ " " ++ right)
  | word {text : String} : isDotted text = true → Phrase numeral 7 text
  | truth {text : String} : text ∈ ["true", "false"] → Phrase numeral 7 text
  | numeral {text : String} : numeral text → Phrase numeral 7 text
  | literal {text : String} : isLiteral text = true → Phrase numeral 7 text
  | call {function : String} {arguments : List String} :
      isDotted function = true → (∀ argument ∈ arguments, Phrase numeral 0 argument) →
      Phrase numeral 7 (function ++ "(" ++ ", ".intercalate arguments ++ ")")
  | list {items : List String} :
      (∀ item ∈ items, Phrase numeral 1 item) →
      Phrase numeral 7 ("[" ++ ", ".intercalate items ++ "]")
  | group {text : String} : Phrase numeral 1 text → Phrase numeral 7 ("(" ++ text ++ ")")

/-- What stands in a script of a grammar as it is.  Filled templates are phrases. -/
def grammar (numeral : String → Prop) : Vocabulary where
  word := fun word => isDotted word = true
  label := fun label => isIdent label = true
  target := IsName
  effect := fun function => function ∈ lineFunctions
  number := fun value => Phrase numeral 7 value.typed ∧ Phrase numeral 7 value.literal
  text := fun text => Phrase numeral 1 text

theorem closed_grammar {numeral : String → Prop}
    (integers : ∀ value : Int, numeral (toString value)) :
    (grammar numeral).Closed (Phrase numeral) where
  loosen := .loosen
  group := .group
  word := .word
  number := fun own => own.1
  float := fun own => own.2
  integer := fun value => .numeral (integers value)
  truth := by
    intro value
    cases value <;> exact .truth (by decide)
  literal := fun value => .literal (isLiteral_literal value)
  call := .call
  list := fun each => .list fun item member => .loosen (by decide) (each item member)
  compare := by
    intro comparator left right first second
    exact .compare (by cases comparator <;> decide) first second
  arith := by
    intro operator left right first second
    cases operator with
    | add | subtract => exact .sum (by decide) first second
    | multiply | divide => exact .product (by decide) first second
  not := .not
  and := .and
  or := .or
  named := .named

end StrategyCompiler.Script
