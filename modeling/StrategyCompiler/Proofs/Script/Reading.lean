import StrategyCompiler.Proofs.Script.Parser
import StrategyCompiler.Proofs.Script.Vocabulary
/-!
Rendered expressions are read back.  The text of an expression is cut into tokens that the grammar
derives for its tree at the place that the expression was rendered for, so the parser returns that
tree: no parenthesis that rendering leaves out changes what an expression stands for.
-/

set_option autoImplicit false

namespace StrategyCompiler.Script

open Number (Double)

namespace Expr

mutual

def tree : Expr → Tree
  | name text => .name text
  | number value => .number value.typed
  | bool value => .bool value
  | string value => .string value
  | call function arguments => .call function (treesOf arguments)
  | compare comparator left right => .compare comparator left.tree right.tree
  | arith operator left right => .arith operator left.tree right.tree
  | not operand => .not operand.tree
  | and terms => .and (treesOf terms)
  | or terms => .or (treesOf terms)

def treesOf : List Expr → List Tree
  | [] => []
  | term :: rest => term.tree :: treesOf rest

end

mutual

/-- An expression that has a text of its own: names are dotted identifiers, numbers are finite,
strings have no line breaks, and chains have at least two terms. -/
def WellFormed : Expr → Prop
  | name text => isDotted text = true
  | number value => value.isFinite = true
  | bool _ => True
  | string value => Flat value.toList
  | call function arguments => isDotted function = true ∧ AllWellFormed arguments
  | compare _ left right | arith _ left right => left.WellFormed ∧ right.WellFormed
  | not operand => operand.WellFormed
  | and terms | or terms => 2 ≤ terms.length ∧ AllWellFormed terms

def AllWellFormed : List Expr → Prop
  | [] => True
  | term :: rest => term.WellFormed ∧ AllWellFormed rest

end

theorem treesOf_eq_map (terms : List Expr) : treesOf terms = terms.map tree := by
  induction terms with
  | nil => rw [treesOf, List.map_nil]
  | cons term rest ih => rw [treesOf, List.map_cons, ih]

theorem allWellFormed_iff {terms : List Expr} :
    AllWellFormed terms ↔ ∀ term ∈ terms, term.WellFormed := by
  induction terms with
  | nil => simp [AllWellFormed]
  | cons term rest ih => rw [AllWellFormed, ih, List.forall_mem_cons]

end Expr

/-! ### Words and signs -/

theorem startsWord_of_isIdentChars {cs : List Char} (own : isIdentChars cs = true) :
    ∃ c rest, cs = c :: rest ∧ startsWord c = true ∧ cs.all isWordChar = true := by
  cases cs with
  | nil => exact absurd own (by decide)
  | cons c rest =>
    simp only [isIdentChars, Bool.and_eq_true] at own
    refine ⟨c, rest, rfl, own.1, ?_⟩
    rw [List.all_cons, Bool.and_eq_true, List.all_eq_true]
    constructor
    · have letter := own.1
      simp only [Bool.or_eq_true] at letter
      simp only [isWordChar, Char.isAlphanum, Bool.or_eq_true]
      tauto
    · intro d inside
      have shown := List.all_eq_true.1 own.2 d inside
      simp only [isWordChar, Bool.or_eq_true] at shown ⊢
      exact .inl shown

private theorem isWordChar_intercalate {pieces : List (List Char)}
    (each : pieces.all isIdentChars = true) :
    (['.'].intercalate pieces).all isWordChar = true := by
  induction pieces with
  | nil => rfl
  | cons piece pieces ih =>
    rw [List.all_cons, Bool.and_eq_true] at each
    obtain ⟨c, rest, -, -, word⟩ := startsWord_of_isIdentChars each.1
    rcases eq_or_ne pieces [] with rfl | more
    · rwa [List.intercalate_singleton]
    · obtain ⟨next, others, rfl⟩ := List.exists_cons_of_ne_nil more
      rw [List.intercalate_cons_cons, List.all_append, List.all_append, word, ih each.2]
      decide

theorem isWord_of_isDotted {text : String} (dotted : isDotted text = true) :
    isWord text = true := by
  rw [isDotted, Bool.and_eq_true] at dotted
  have whole : ['.'].intercalate (text.toList.splitOn '.') = text.toList :=
    List.intercalate_splitOn '.'
  rw [isWord, ← whole]
  exact isWordChar_intercalate dotted.1

private theorem lexes_of_isDotted {text : String} (dotted : isDotted text = true) :
    Lexes text [.word text] := by
  have single := isWord_of_isDotted dotted
  rw [isDotted, Bool.and_eq_true] at dotted
  have whole : ['.'].intercalate (text.toList.splitOn '.') = text.toList :=
    List.intercalate_splitOn '.'
  obtain ⟨piece, pieces, shape⟩ := List.exists_cons_of_ne_nil (List.splitOn_ne_nil '.' text.toList)
  rw [shape, List.all_cons, Bool.and_eq_true] at dotted
  obtain ⟨c, rest, rfl, starts, -⟩ := startsWord_of_isIdentChars dotted.1.1
  have first : text.toList.head? = some c := by
    rw [← whole, shape]
    cases pieces with
    | nil => rw [List.intercalate_singleton]; rfl
    | cons next others => rw [List.intercalate_cons_cons]; rfl
  exact .word first starts single

private theorem lexes_comparator (comparator : Comparator) :
    Lexes comparator.symbol [.sign comparator.symbol] := by
  refine .token (by cases comparator <;> decide) fun rest _ => ?_
  cases comparator <;> exact token?_of_not_mem_marks (by decide) _

private theorem lexes_operator (operator : Operator) :
    Lexes operator.symbol [.sign operator.symbol] := by
  refine .token (by cases operator <;> decide) fun rest breaks => ?_
  cases operator with
  | add | multiply | divide => exact token?_of_not_mem_marks (by decide) _
  | subtract =>
    -- A minus sign in front of a digit would start a numeral.
    have apart : startsNumeral ('-' :: rest) = false := by
      cases rest with
      | nil => decide
      | cons c rest => exact not_isDigit_of_breaks breaks c rfl
    have shape : Operator.subtract.symbol.toList ++ rest = '-' :: rest := rfl
    rw [shape, token?_of_not_mem_marks (by decide), if_neg (by decide), apart]
    rfl

private theorem lexes_bool (value : Bool) :
    Lexes (if value then "true" else "false") [.word (if value then "true" else "false")] := by
  cases value with
  | true => exact .word rfl (by decide) (by decide)
  | false => exact .word rfl (by decide) (by decide)

private theorem cuts_opening : Cuts "(" [.opening] := .mark (by decide) fun _ => by rw [token?]

private theorem cuts_closing : Cuts ")" [.closing] := .mark (by decide) fun _ => by rw [token?]

private theorem cuts_comma : Cuts ", " [.comma] := by
  have comma : Cuts "," [.comma] := .mark (by decide) fun _ => by rw [token?]
  exact comma.append .blank

/-! ### Texts of trees -/

/-- The text is cut into tokens that stand for the tree at a place of the strength. -/
def Shows (strength : Nat) (tree : Tree) (text : String) : Prop :=
  ∃ tokens, Lexes text tokens ∧ Derives strength tree tokens

namespace Shows

variable {tree : Tree} {text : String}

theorem loosen {strength demand : Nat} (enough : demand ≤ strength)
    (shows : Shows strength tree text) : Shows demand tree text := by
  obtain ⟨tokens, lexes, derived⟩ := shows
  exact ⟨tokens, lexes, Nat.decreasingInduction (fun _ _ => .loosen) derived enough⟩

theorem group (shows : Shows 0 tree text) : Shows 7 tree ("(" ++ text ++ ")") := by
  obtain ⟨tokens, lexes, derived⟩ := shows
  have whole := ((Lexes.empty.between cuts_opening lexes).between cuts_closing .empty)
  refine ⟨_, ?_, .group derived⟩
  simpa using whole

theorem enclose {strength demand : Nat} (small : demand ≤ 7)
    (shows : Shows strength tree text) :
    Shows demand tree (Expr.enclose demand strength text) := by
  unfold Expr.enclose
  split
  · exact (shows.loosen (Nat.zero_le strength)).group.loosen small
  · rename_i enough
    exact shows.loosen (Nat.le_of_not_lt enough)

theorem rows {strength : Nat} {trees : List Tree} {texts : List String}
    (each : List.Forall₂ (Shows strength) trees texts) :
    ∃ terms : List (Tree × List Token), terms.map Prod.fst = trees ∧
      List.Forall₂ Lexes texts (terms.map Prod.snd) ∧
      ∀ own ∈ terms, Derives strength own.1 own.2 := by
  induction each with
  | nil => exact ⟨[], rfl, .nil, fun _ member => absurd member List.not_mem_nil⟩
  | @cons tree text _ _ first _ ih =>
    obtain ⟨tokens, lexes, derived⟩ := first
    obtain ⟨terms, rfl, others, later⟩ := ih
    exact ⟨(tree, tokens) :: terms, rfl, .cons lexes others,
      List.forall_mem_cons.2 ⟨derived, later⟩⟩

theorem call {function : String} {trees : List Tree} {texts : List String}
    (dotted : isDotted function = true) (each : List.Forall₂ (Shows 0) trees texts) :
    Shows 7 (.call function trees) (function ++ "(" ++ ", ".intercalate texts ++ ")") := by
  obtain ⟨arguments, rfl, lexes, derived⟩ := rows each
  have inside := Lexes.intercalate cuts_comma lexes
  have whole := ((lexes_of_isDotted dotted).between cuts_opening inside).between cuts_closing .empty
  refine ⟨_, ?_, .call dotted derived⟩
  simpa [rowTokens] using whole

private theorem lexes_sign {left right sign : String} {first second : List Token}
    (front : Lexes left first) (own : Lexes sign [.sign sign]) (back : Lexes right second) :
    Lexes (left ++ " " ++ sign ++ " " ++ right) (first ++ .sign sign :: second) := by
  have whole := front.between (.blanks own) back
  simpa [String.append_assoc] using whole

theorem compare {left right : Tree} {first second : String} (comparator : Comparator)
    (front : Shows 5 left first) (back : Shows 5 right second) :
    Shows 4 (.compare comparator left right)
      (first ++ " " ++ comparator.symbol ++ " " ++ second) := by
  obtain ⟨_, firstLexes, firstDerived⟩ := front
  obtain ⟨_, secondLexes, secondDerived⟩ := back
  exact ⟨_, lexes_sign firstLexes (lexes_comparator comparator) secondLexes,
    .compare firstDerived secondDerived⟩

theorem arith {left right : Tree} {first second : String} (operator : Operator)
    (front : Shows operator.strength left first)
    (back : Shows (operator.strength + 1) right second) :
    Shows operator.strength (.arith operator left right)
      (first ++ " " ++ operator.symbol ++ " " ++ second) := by
  obtain ⟨_, firstLexes, firstDerived⟩ := front
  obtain ⟨_, secondLexes, secondDerived⟩ := back
  exact ⟨_, lexes_sign firstLexes (lexes_operator operator) secondLexes,
    .arith firstDerived secondDerived⟩

theorem not (shows : Shows 3 tree text) : Shows 3 (.not tree) ("not " ++ text) := by
  obtain ⟨tokens, lexes, derived⟩ := shows
  have word : Lexes "not" [.word "not"] := .word rfl (by decide) (by decide)
  have whole := word.between .blank lexes
  exact ⟨_, whole, .not derived⟩

theorem chain {strength : Nat} {build : List Tree → Tree} {word : String} {c : Char}
    (first : word.toList.head? = some c) (starts : startsWord c = true)
    (single : isWord word = true)
    (derives : ∀ {terms : List (Tree × List Token)}, 2 ≤ terms.length →
      (∀ own ∈ terms, Derives (strength + 1) own.1 own.2) →
        Derives strength (build (terms.map Prod.fst)) (rowTokens (.word word) terms))
    {trees : List Tree} {texts : List String} (several : 2 ≤ trees.length)
    (each : List.Forall₂ (Shows (strength + 1)) trees texts) :
    Shows strength (build trees) ((" " ++ word ++ " ").intercalate texts) := by
  obtain ⟨terms, rfl, lexes, derived⟩ := rows each
  rw [List.length_map] at several
  exact ⟨_, .intercalate (.blanks (.word first starts single)) lexes, derives several derived⟩

end Shows

/-! ### Rendered expressions -/

private theorem Operator.strength_le (operator : Operator) : operator.strength + 1 ≤ 7 := by
  cases operator <;> decide

mutual

private theorem Expr.shows_renderAt {demand : Nat} (small : demand ≤ 7) : ∀ (expr : Expr),
    expr.WellFormed → Shows demand expr.tree (expr.renderAt demand)
  | .name text, own => by
    rw [Expr.WellFormed] at own
    rw [Expr.tree, Expr.renderAt]
    exact Shows.loosen small ⟨_, lexes_of_isDotted own, .name own⟩
  | .number value, own => by
    rw [Expr.WellFormed] at own
    rw [Expr.tree, Expr.renderAt]
    cases value with
    | finite negative units fits =>
      have numeral := Double.isDecimal_typed negative units fits
      exact Shows.loosen small ⟨_, .numeral numeral, .number _⟩
    | nan | infinite => exact absurd own (by simp [Double.isFinite])
  | .bool value, _ => by
    rw [Expr.tree, Expr.renderAt]
    exact Shows.loosen small ⟨_, lexes_bool value, .bool value⟩
  | .string value, own => by
    rw [Expr.WellFormed] at own
    rw [Expr.tree, Expr.renderAt]
    exact Shows.loosen small ⟨_, .literal own, .string value⟩
  | .call function arguments, own => by
    rw [Expr.WellFormed] at own
    rw [Expr.tree, Expr.renderAt]
    exact (Shows.call own.1 (Expr.shows_renderEach (by decide) arguments own.2)).loosen small
  | .compare comparator left right, own => by
    rw [Expr.WellFormed] at own
    rw [Expr.tree, Expr.renderAt]
    have front := Expr.shows_renderAt (by decide : 5 ≤ 7) left own.1
    have back := Expr.shows_renderAt (by decide : 5 ≤ 7) right own.2
    exact (front.compare comparator back).enclose small
  | .arith operator left right, own => by
    rw [Expr.WellFormed] at own
    rw [Expr.tree, Expr.renderAt]
    have tight := operator.strength_le
    have front := Expr.shows_renderAt (Nat.le_of_succ_le tight) left own.1
    have back := Expr.shows_renderAt tight right own.2
    exact (front.arith operator back).enclose small
  | .not operand, own => by
    rw [Expr.WellFormed] at own
    rw [Expr.tree, Expr.renderAt]
    exact (Expr.shows_renderAt (by decide) operand own).not.enclose small
  | .and terms, own => by
    rw [Expr.WellFormed] at own
    rw [Expr.tree, Expr.renderAt]
    have each := Expr.shows_renderEach (by decide : 3 ≤ 7) terms own.2
    have several : 2 ≤ (Expr.treesOf terms).length := by
      simpa [Expr.treesOf_eq_map] using own.1
    exact (Shows.chain rfl (by decide) (by decide) .and several each).enclose small
  | .or terms, own => by
    rw [Expr.WellFormed] at own
    rw [Expr.tree, Expr.renderAt]
    have each := Expr.shows_renderEach (by decide : 2 ≤ 7) terms own.2
    have several : 2 ≤ (Expr.treesOf terms).length := by
      simpa [Expr.treesOf_eq_map] using own.1
    exact (Shows.chain rfl (by decide) (by decide) .or several each).enclose small

private theorem Expr.shows_renderEach {demand : Nat} (small : demand ≤ 7) : ∀ (terms : List Expr),
    Expr.AllWellFormed terms →
      List.Forall₂ (Shows demand) (Expr.treesOf terms) (Expr.renderEach demand terms)
  | [], _ => by
    rw [Expr.treesOf, Expr.renderEach]
    exact .nil
  | term :: rest, own => by
    rw [Expr.AllWellFormed] at own
    rw [Expr.treesOf, Expr.renderEach]
    exact .cons (Expr.shows_renderAt small term own.1) (Expr.shows_renderEach small rest own.2)

end

private theorem Shows.parse?_eq {tree : Tree} {text : String} (shows : Shows 0 tree text) :
    parse? text = some tree := by
  obtain ⟨tokens, lexes, derived⟩ := shows
  refine parse?_eq_some_iff.2 ⟨tokens, ?_, derived⟩
  have ends : Breaks [] := fun _ first => absurd first (by simp)
  have read := lexes [] ends
  rw [lex, List.append_nil] at read
  simpa using read

theorem Expr.parse?_render {expr : Expr} (own : expr.WellFormed) :
    parse? expr.render = some expr.tree :=
  (expr.shows_renderAt (by decide) own).parse?_eq

/-- The parser returns exactly the trees that the grammar derives from the tokens of a text, and
from a rendered expression its own tree.  So expressions with the same text read as the same. -/
theorem render_faithful :
    (∀ text tree, parse? text = some tree ↔
      ∃ tokens, lex text.toList = some tokens ∧ Derives 0 tree tokens) ∧
    (∀ expr : Expr, expr.WellFormed → parse? expr.render = some expr.tree) ∧
    ∀ expr other : Expr, expr.WellFormed → other.WellFormed → expr.render = other.render →
      expr.tree = other.tree := by
  refine ⟨fun _ _ => parse?_eq_some_iff, fun _ => Expr.parse?_render, ?_⟩
  intro expr other own others same
  have read := Expr.parse?_render own
  rw [same, Expr.parse?_render others] at read
  exact (Option.some.inj read).symm

/-- A difference whose right side is a difference, a conjunction with a comparison, and a negated
disjunction. -/
def guardedRise : Expr :=
  .and
    [ .compare .greater
        (.arith .subtract (.name "a") (.arith .subtract (.name "b") (.name "c")))
        (.name "ta.tr"),
      .not (.or [.name "x", .call "f" [.bool true, .string "y"]]) ]

private theorem wellFormed_guardedRise : guardedRise.WellFormed := by
  simp only [guardedRise, Expr.WellFormed, Expr.AllWellFormed]
  decide

theorem render_faithful_guardedRise :
    guardedRise.render = "a - (b - c) > ta.tr and not (x or f(true, \"y\"))" ∧
      parse? "a - (b - c) > ta.tr and not (x or f(true, \"y\"))" = some guardedRise.tree := by
  have text : guardedRise.render = "a - (b - c) > ta.tr and not (x or f(true, \"y\"))" := by
    decide +kernel
  exact ⟨text, text ▸ render_faithful.2.1 guardedRise wellFormed_guardedRise⟩

end StrategyCompiler.Script
