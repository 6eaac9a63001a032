import StrategyCompiler.Proofs.Script.Grammar
import StrategyCompiler.Proofs.Script.Token
/-!
A parser for expressions.  It descends from disjunctions over conjunctions, negations, comparisons,
sums and products to what stands for itself; comparisons do not chain, sums and products associate
to the left.  It accepts exactly the tokens that the grammar derives, each with its only tree.
-/

set_option autoImplicit false

namespace StrategyCompiler.Script

inductive Tree
  | name (text : String)
  | number (text : String)
  | bool (value : Bool)
  | string (value : String)
  | call (function : String) (arguments : List Tree)
  | compare (comparator : Comparator) (left right : Tree)
  | arith (operator : Operator) (left right : Tree)
  | not (operand : Tree)
  | and (terms : List Tree)
  | or (terms : List Tree)

/-! ### The grammar -/

/-- The tokens of trees, each tree with its own, with another one between them. -/
def rowTokens (separator : Token) (row : List (Tree × List Token)) : List Token :=
  [separator].intercalate (row.map Prod.snd)

/-- The tokens that stand for a tree at a place of a strength, from whole expressions at 0 over
disjunctions at 1 to what stands for itself at 7. -/
inductive Derives : Nat → Tree → List Token → Prop
  | loosen {strength : Nat} {tree : Tree} {tokens : List Token} :
      Derives (strength + 1) tree tokens → Derives strength tree tokens
  | or {terms : List (Tree × List Token)} :
      2 ≤ terms.length → (∀ term ∈ terms, Derives 2 term.1 term.2) →
      Derives 1 (.or (terms.map Prod.fst)) (rowTokens (.word "or") terms)
  | and {terms : List (Tree × List Token)} :
      2 ≤ terms.length → (∀ term ∈ terms, Derives 3 term.1 term.2) →
      Derives 2 (.and (terms.map Prod.fst)) (rowTokens (.word "and") terms)
  | not {operand : Tree} {tokens : List Token} :
      Derives 3 operand tokens → Derives 3 (.not operand) (.word "not" :: tokens)
  | compare {comparator : Comparator} {left right : Tree} {first second : List Token} :
      Derives 5 left first → Derives 5 right second →
      Derives 4 (.compare comparator left right) (first ++ .sign comparator.symbol :: second)
  | arith {operator : Operator} {left right : Tree} {first second : List Token} :
      Derives operator.strength left first → Derives (operator.strength + 1) right second →
      Derives operator.strength (.arith operator left right)
        (first ++ .sign operator.symbol :: second)
  | name {text : String} : isDotted text = true → Derives 7 (.name text) [.word text]
  | bool (value : Bool) : Derives 7 (.bool value) [.word (if value then "true" else "false")]
  | number (text : String) : Derives 7 (.number text) [.numeral text]
  | string (value : String) : Derives 7 (.string value) [.literal value]
  | call {function : String} {arguments : List (Tree × List Token)} :
      isDotted function = true → (∀ argument ∈ arguments, Derives 0 argument.1 argument.2) →
      Derives 7 (.call function (arguments.map Prod.fst))
        (.word function :: .opening :: (rowTokens .comma arguments ++ [.closing]))
  | group {tree : Tree} {tokens : List Token} :
      Derives 0 tree tokens → Derives 7 tree (.opening :: (tokens ++ [.closing]))

/-! ### The parser -/

abbrev Parser := List Token → Option (Tree × List Token)

def comparator? : Token → Option Comparator
  | .sign text =>
    [Comparator.greater, .less, .equal, .notEqual].find? fun own => own.symbol == text
  | _ => none

def operator? (strength : Nat) : Token → Option Operator
  | .sign text =>
    [Operator.add, .subtract, .multiply, .divide].find? fun own =>
      own.strength == strength && own.symbol == text
  | _ => none

def row (item : Parser) (separator : Token) (tokens : List Token) :
    Option (List Tree × List Token) :=
  match item tokens with
  | some (first, next :: after) =>
    if _shorter : next = separator ∧ after.length < tokens.length then
      (row item separator after).map fun (others, rest) => (first :: others, rest)
    else some ([first], next :: after)
  | some (first, []) => some ([first], [])
  | none => none
termination_by tokens.length
decreasing_by exact _shorter.2

/-- Read the operators of a strength that stand behind a tree, each with its right side. -/
def operations (operand : Parser) (strength : Nat) (left : Tree) (tokens : List Token) :
    Option (Tree × List Token) :=
  match tokens with
  | next :: after =>
    match operator? strength next with
    | some operator =>
      match operand after with
      | some (right, rest) =>
        if _shorter : rest.length ≤ after.length then
          operations operand strength (.arith operator left right) rest
        else none
      | none => none
    | none => some (left, next :: after)
  | [] => some (left, [])
termination_by tokens.length
decreasing_by exact Nat.lt_succ_of_le _shorter

def chain (build : List Tree → Tree) : List Tree → Tree
  | [single] => single
  | terms => build terms

def word? (text : String) : Option Tree :=
  if text = "true" then some (.bool true)
  else if text = "false" then some (.bool false)
  else if isDotted text then some (.name text)
  else none

namespace Parser

/-- Read what stands for itself, with a parser for what stands in parentheses. -/
def atom (inner : Parser) : Parser
  | .numeral text :: rest => some (.number text, rest)
  | .literal value :: rest => some (.string value, rest)
  | .opening :: rest =>
    match inner rest with
    | some (tree, .closing :: after) => some (tree, after)
    | _ => none
  | .word function :: .opening :: .closing :: rest =>
    if isDotted function then some (.call function [], rest) else none
  | .word function :: .opening :: rest =>
    match row inner .comma rest with
    | some (arguments, .closing :: after) =>
      if isDotted function then some (.call function arguments, after) else none
    | _ => none
  | .word text :: rest => (word? text).map fun tree => (tree, rest)
  | _ => none

def leftward (operand : Parser) (strength : Nat) : Parser := fun tokens =>
  (operand tokens).bind fun (left, rest) => operations operand strength left rest

def comparison (operand : Parser) : Parser := fun tokens =>
  match operand tokens with
  | some (left, next :: after) =>
    match comparator? next with
    | some comparator =>
      (operand after).map fun (right, rest) => (.compare comparator left right, rest)
    | none => some (left, next :: after)
  | some (left, []) => some (left, [])
  | none => none

def negation (operand : Parser) : Parser
  | .word "not" :: rest => (negation operand rest).map fun (tree, rest) => (.not tree, rest)
  | tokens => operand tokens

def chained (term : Parser) (separator : Token) (build : List Tree → Tree) : Parser := fun tokens =>
  (row term separator tokens).map fun (terms, rest) => (chain build terms, rest)

def level (inner : Parser) (strength : Nat) : Parser :=
  let product := leftward (atom inner) 6
  let sum := leftward product 5
  let comparison := comparison sum
  let negation := negation comparison
  let conjunction := chained negation (.word "and") .and
  match strength with
  | 0 | 1 => chained conjunction (.word "or") .or
  | 2 => conjunction
  | 3 => negation
  | 4 => comparison
  | 5 => sum
  | 6 => product
  | _ => atom inner

/-- The parser of expressions in which parentheses are nested to a depth. -/
def nested : Nat → Parser
  | 0 => fun _ => none
  | depth + 1 => level (nested depth) 0

end Parser

/-- The tree that all tokens together stand for; parentheses cannot be nested more deeply than there
are tokens. -/
def parseTokens? (tokens : List Token) : Option Tree :=
  match Parser.nested (tokens.length + 1) tokens with
  | some (tree, []) => some tree
  | _ => none

/-- The tree that a text stands for. -/
def parse? (text : String) : Option Tree := (lex text.toList).bind parseTokens?

/-! ### Signs -/

private theorem eq_sign_of_comparator? {token : Token} {comparator : Comparator}
    (found : comparator? token = some comparator) : token = .sign comparator.symbol := by
  cases token with
  | sign text =>
    have same := List.find?_some (p := fun own : Comparator => own.symbol == text) found
    rw [beq_iff_eq.1 same]
  | word | numeral | literal | opening | closing | comma =>
    exact absurd found (by simp [comparator?])

private theorem eq_sign_of_operator? {strength : Nat} {token : Token} {operator : Operator}
    (found : operator? strength token = some operator) :
    token = .sign operator.symbol ∧ operator.strength = strength := by
  cases token with
  | sign text =>
    have same := List.find?_some
      (p := fun own : Operator => own.strength == strength && own.symbol == text) found
    rw [Bool.and_eq_true, beq_iff_eq, beq_iff_eq] at same
    rw [same.1, same.2]
    exact ⟨rfl, rfl⟩
  | word | numeral | literal | opening | closing | comma => exact absurd found (by simp [operator?])

private theorem comparator?_symbol (comparator : Comparator) :
    comparator? (.sign comparator.symbol) = some comparator := by
  cases comparator <;> decide

private theorem operator?_symbol (operator : Operator) :
    operator? operator.strength (.sign operator.symbol) = some operator := by
  cases operator <;> decide

/-! ### What is read is derived -/

/-- What the parser reads is derived at a strength. -/
def Sound (strength : Nat) (parser : Parser) : Prop :=
  ∀ ⦃tokens rest : List Token⦄ ⦃tree : Tree⦄, parser tokens = some (tree, rest) →
    ∃ front, tokens = front ++ rest ∧ Derives strength tree front

theorem Sound.loosen {strength : Nat} {parser : Parser} (sound : Sound (strength + 1) parser) :
    Sound strength parser := by
  intro tokens rest tree read
  obtain ⟨front, split, derived⟩ := sound read
  exact ⟨front, split, .loosen derived⟩

private theorem rowTokens_singleton (separator : Token) (item : Tree × List Token) :
    rowTokens separator [item] = item.2 := List.intercalate_singleton

private theorem rowTokens_cons {row : List (Tree × List Token)} (some : row ≠ [])
    (separator : Token)
    (item : Tree × List Token) :
    rowTokens separator (item :: row) = item.2 ++ separator :: rowTokens separator row := by
  obtain ⟨next, row, rfl⟩ := List.exists_cons_of_ne_nil some
  simp [rowTokens, List.intercalate_cons_cons]

private theorem row_sound {strength : Nat} {item : Parser} (sound : Sound strength item)
    {separator : Token} {tokens rest : List Token} {trees : List Tree}
    (read : row item separator tokens = some (trees, rest)) :
    ∃ items : List (Tree × List Token), items ≠ [] ∧ trees = items.map Prod.fst ∧
      tokens = rowTokens separator items ++ rest ∧
      ∀ own ∈ items, Derives strength own.1 own.2 := by
  fun_induction row item separator tokens generalizing trees rest with
  | case1 tokens first next after found shorter ih =>
    obtain ⟨⟨others, behind⟩, later, same⟩ := Option.map_eq_some_iff.1 read
    obtain ⟨rfl, rfl⟩ := Prod.mk.inj same
    obtain ⟨items, some, rfl, rfl, each⟩ := ih later
    obtain ⟨front, rfl, derived⟩ := sound found
    refine ⟨(first, front) :: items, List.cons_ne_nil _ _, rfl, ?_, ?_⟩
    · rw [rowTokens_cons some, shorter.1]
      simp
    · exact List.forall_mem_cons.2 ⟨derived, each⟩
  | case2 tokens first next after found stops =>
    obtain ⟨rfl, rfl⟩ := Prod.mk.inj (Option.some.inj read)
    obtain ⟨front, split, derived⟩ := sound found
    refine ⟨[(first, front)], List.cons_ne_nil _ _, rfl, ?_, List.forall_mem_singleton.2 derived⟩
    rw [rowTokens_singleton, split]
  | case3 tokens first found =>
    obtain ⟨rfl, rfl⟩ := Prod.mk.inj (Option.some.inj read)
    obtain ⟨front, split, derived⟩ := sound found
    refine ⟨[(first, front)], List.cons_ne_nil _ _, rfl, ?_, List.forall_mem_singleton.2 derived⟩
    rw [rowTokens_singleton, split]
  | case4 => exact absurd read (by simp)

private theorem operations_sound {strength : Nat} {operand : Parser}
    (sound : Sound (strength + 1) operand) {left tree : Tree} {before tokens rest : List Token}
    (derived : Derives strength left before)
    (read : operations operand strength left tokens = some (tree, rest)) :
    ∃ front, tokens = front ++ rest ∧ Derives strength tree (before ++ front) := by
  fun_induction operations operand strength left tokens generalizing before with
  | case1 left next after operator found right behind second shorter ih =>
    obtain ⟨rfl, rfl⟩ := eq_sign_of_operator? found
    obtain ⟨middle, rfl, right⟩ := sound second
    obtain ⟨front, rfl, whole⟩ := ih (.arith derived right) read
    refine ⟨.sign operator.symbol :: (middle ++ front), by simp, ?_⟩
    simpa using whole
  | case2 => exact absurd read (by simp)
  | case3 => exact absurd read (by simp)
  | case4 left next after stops =>
    obtain ⟨rfl, rfl⟩ := Prod.mk.inj (Option.some.inj read)
    exact ⟨[], rfl, by simpa using derived⟩
  | case5 left =>
    obtain ⟨rfl, rfl⟩ := Prod.mk.inj (Option.some.inj read)
    exact ⟨[], rfl, by simpa using derived⟩

namespace Parser

private theorem leftward_sound {strength : Nat} {operand : Parser}
    (sound : Sound (strength + 1) operand) : Sound strength (leftward operand strength) := by
  intro tokens rest tree read
  obtain ⟨⟨left, behind⟩, first, later⟩ := Option.bind_eq_some_iff.1 read
  obtain ⟨before, rfl, derived⟩ := sound first
  obtain ⟨front, rfl, whole⟩ := operations_sound sound (.loosen derived) later
  exact ⟨before ++ front, by simp, whole⟩

private theorem comparison_sound {operand : Parser} (sound : Sound 5 operand) :
    Sound 4 (comparison operand) := by
  intro tokens rest tree read
  unfold comparison at read
  split at read
  · rename_i left next after first
    obtain ⟨front, rfl, derived⟩ := sound first
    split at read
    · rename_i comparator found
      obtain ⟨⟨right, behind⟩, second, same⟩ := Option.map_eq_some_iff.1 read
      obtain ⟨rfl, rfl⟩ := Prod.mk.inj same
      obtain ⟨more, rfl, other⟩ := sound second
      rw [eq_sign_of_comparator? found]
      exact ⟨front ++ .sign comparator.symbol :: more, by simp, .compare derived other⟩
    · obtain ⟨rfl, rfl⟩ := Prod.mk.inj (Option.some.inj read)
      exact ⟨front, rfl, .loosen derived⟩
  · rename_i left first
    obtain ⟨rfl, rfl⟩ := Prod.mk.inj (Option.some.inj read)
    exact sound.loosen first
  · exact absurd read (by simp)

private theorem negation_sound {operand : Parser} (sound : Sound 4 operand) :
    Sound 3 (negation operand) := by
  intro tokens rest tree read
  fun_induction negation operand tokens generalizing tree rest with
  | case1 after ih =>
    obtain ⟨⟨inner, behind⟩, later, same⟩ := Option.map_eq_some_iff.1 read
    obtain ⟨rfl, rfl⟩ := Prod.mk.inj same
    obtain ⟨front, rfl, derived⟩ := ih later
    exact ⟨.word "not" :: front, rfl, .not derived⟩
  | case2 => exact sound.loosen read

private theorem chained_sound {strength : Nat} {term : Parser} (sound : Sound (strength + 1) term)
    {separator : Token} {build : List Tree → Tree}
    (several : ∀ {terms : List (Tree × List Token)}, 2 ≤ terms.length →
      (∀ own ∈ terms, Derives (strength + 1) own.1 own.2) →
        Derives strength (build (terms.map Prod.fst)) (rowTokens separator terms)) :
    Sound strength (chained term separator build) := by
  intro tokens rest tree read
  obtain ⟨⟨trees, behind⟩, found, same⟩ := Option.map_eq_some_iff.1 read
  obtain ⟨rfl, rfl⟩ := Prod.mk.inj same
  obtain ⟨terms, some, rfl, rfl, each⟩ := row_sound sound found
  refine ⟨rowTokens separator terms, rfl, ?_⟩
  match terms, some, each with
  | [single], _, each =>
    rw [rowTokens_singleton]
    exact .loosen (each single List.mem_cons_self)
  | first :: second :: others, _, each => exact several (by simp) each

private theorem derives_of_word? {text : String} {tree : Tree} (found : word? text = some tree) :
    Derives 7 tree [.word text] := by
  unfold word? at found
  split at found
  · rename_i truth
    exact Option.some.inj found ▸ truth ▸ .bool true
  split at found
  · rename_i falsehood
    exact Option.some.inj found ▸ falsehood ▸ .bool false
  split at found
  · rename_i dotted
    exact Option.some.inj found ▸ .name dotted
  · exact absurd found (by simp)

private theorem atom_sound {inner : Parser} (sound : Sound 0 inner) : Sound 7 (atom inner) := by
  intro tokens rest tree read
  unfold atom at read
  split at read
  · obtain ⟨rfl, rfl⟩ := Prod.mk.inj (Option.some.inj read)
    exact ⟨[_], rfl, .number _⟩
  · obtain ⟨rfl, rfl⟩ := Prod.mk.inj (Option.some.inj read)
    exact ⟨[_], rfl, .string _⟩
  · split at read
    · rename_i inside after found
      obtain ⟨rfl, rfl⟩ := Prod.mk.inj (Option.some.inj read)
      obtain ⟨front, rfl, derived⟩ := sound found
      exact ⟨.opening :: (front ++ [.closing]), by simp, .group derived⟩
    · exact absurd read (by simp)
  · rename_i function after
    split at read
    · rename_i dotted
      obtain ⟨rfl, rfl⟩ := Prod.mk.inj (Option.some.inj read)
      exact ⟨[.word function, .opening, .closing], rfl, @Derives.call function [] dotted (by simp)⟩
    · exact absurd read (by simp)
  · rename_i function after _
    split at read
    · rename_i trees behind found
      split at read
      · rename_i dotted
        obtain ⟨rfl, rfl⟩ := Prod.mk.inj (Option.some.inj read)
        obtain ⟨arguments, -, rfl, rfl, each⟩ := row_sound sound found
        exact ⟨.word function :: .opening :: (rowTokens .comma arguments ++ [.closing]), by simp,
          .call dotted each⟩
      · exact absurd read (by simp)
    · exact absurd read (by simp)
  · rename_i text after _ _
    obtain ⟨own, found, same⟩ := Option.map_eq_some_iff.1 read
    obtain ⟨rfl, rfl⟩ := Prod.mk.inj same
    exact ⟨[.word text], rfl, derives_of_word? found⟩
  · exact absurd read (by simp)

private theorem level_sound {inner : Parser} (sound : Sound 0 inner) : Sound 0 (level inner 0) := by
  have product : Sound 6 (level inner 6) := leftward_sound (atom_sound sound)
  have sum : Sound 5 (level inner 5) := leftward_sound product
  have negation : Sound 3 (level inner 3) := negation_sound (comparison_sound sum)
  have conjunction : Sound 2 (level inner 2) := chained_sound negation .and
  have disjunction : Sound 1 (level inner 1) := chained_sound conjunction .or
  exact disjunction.loosen

private theorem nested_sound (depth : Nat) : Sound 0 (nested depth) := by
  induction depth with
  | zero => exact fun _ _ _ read => absurd read (by simp [nested])
  | succ depth ih => exact level_sound ih

end Parser

/-! ### What is derived is read -/

structure Halts (strength : Nat) (token : Token) : Prop where
  call : token ≠ .opening
  or : strength ≤ 1 → token ≠ .word "or"
  and : strength ≤ 2 → token ≠ .word "and"
  comparison : strength ≤ 4 → comparator? token = none
  operation : ∀ own, strength ≤ own → operator? own token = none

theorem Halts.mono {strength tighter : Nat} {token : Token} (halts : Halts strength token)
    (enough : strength ≤ tighter) : Halts tighter token where
  call := halts.call
  or := fun loose => halts.or (Nat.le_trans enough loose)
  and := fun loose => halts.and (Nat.le_trans enough loose)
  comparison := fun loose => halts.comparison (Nat.le_trans enough loose)
  operation := fun own tight => halts.operation own (Nat.le_trans enough tight)

private theorem halts_closing (strength : Nat) : Halts strength .closing := by
  constructor <;> simp [comparator?, operator?]

private theorem halts_comma (strength : Nat) : Halts strength .comma := by
  constructor <;> simp [comparator?, operator?]

private theorem halts_or : Halts 2 (.word "or") := by
  constructor <;> simp [comparator?, operator?]

private theorem halts_and : Halts 3 (.word "and") := by
  constructor <;> simp [comparator?, operator?]

private theorem halts_comparator (comparator : Comparator) : Halts 5 (.sign comparator.symbol) where
  call := by simp
  or := by simp
  and := by simp
  comparison := by omega
  operation := fun own _ => by
    cases comparator <;> simp [operator?, Comparator.symbol, Operator.symbol]

private theorem halts_operator (operator : Operator) :
    Halts (operator.strength + 1) (.sign operator.symbol) where
  call := by simp
  or := by simp
  and := by simp
  comparison := by cases operator <;> simp [Operator.strength]
  operation := fun own tight => by
    refine Option.eq_none_iff_forall_not_mem.2 fun other found => ?_
    obtain ⟨same, strong⟩ := eq_sign_of_operator? found
    cases operator <;> cases other <;> simp_all [Operator.strength, Operator.symbol] <;> omega

def Stops (strength : Nat) (rest : List Token) : Prop := ∀ token ∈ rest.head?, Halts strength token

private theorem stops_nil (strength : Nat) : Stops strength [] := by simp [Stops]

private theorem stops_cons {strength : Nat} {token : Token} (halts : Halts strength token)
    (rest : List Token) : Stops strength (token :: rest) := by
  rintro _ ⟨⟩
  exact halts

theorem Stops.mono {strength tighter : Nat} {rest : List Token} (stops : Stops strength rest)
    (enough : strength ≤ tighter) : Stops tighter rest :=
  fun token first => (stops token first).mono enough

private theorem ne_keyword_of_isDotted {text keyword : String} (dotted : isDotted text = true)
    (reserved : keyword ∈ keywords) : text ≠ keyword := by
  rintro rfl
  simp [isDotted, reserved] at dotted

private theorem rowTokens_first (separator : Token) {terms : List (Tree × List Token)}
    (some : terms ≠ [])
    (each : ∀ own ∈ terms, ∃ first rest, own.2 = first :: rest ∧ first ≠ .closing) :
    ∃ first rest, rowTokens separator terms = first :: rest ∧ first ≠ .closing := by
  obtain ⟨own, others, rfl⟩ := List.exists_cons_of_ne_nil some
  obtain ⟨first, rest, shape, apart⟩ := each own List.mem_cons_self
  rcases eq_or_ne others [] with rfl | more
  · exact ⟨first, rest, by rw [rowTokens_singleton, shape], apart⟩
  · exact ⟨first, _, by rw [rowTokens_cons more, shape]; rfl, apart⟩

theorem Derives.first {strength : Nat} {tree : Tree} {tokens : List Token}
    (derived : Derives strength tree tokens) :
    ∃ first rest, tokens = first :: rest ∧ first ≠ .closing ∧
      (4 ≤ strength → first ≠ .word "not") := by
  have negation : "not" ∈ keywords := by decide
  induction derived with
  | loosen derived ih =>
    obtain ⟨first, rest, shape, apart, positive⟩ := ih
    exact ⟨first, rest, shape, apart, fun tight => positive (by omega)⟩
  | or several derived ih | and several derived ih =>
    have some := List.ne_nil_of_length_pos (Nat.lt_of_lt_of_le (by decide) several)
    obtain ⟨first, rest, shape, apart⟩ := rowTokens_first _ some fun own member =>
      let ⟨first, rest, shape, apart, _⟩ := ih own member
      ⟨first, rest, shape, apart⟩
    exact ⟨first, rest, shape, apart, fun tight => absurd tight (by decide)⟩
  | not derived ih => exact ⟨_, _, rfl, by simp, fun tight => absurd tight (by decide)⟩
  | compare left right first second | arith left right first second =>
    obtain ⟨first, rest, rfl, apart, positive⟩ := first
    refine ⟨first, _, rfl, apart, fun tight => positive (by omega)⟩
  | name dotted =>
    exact ⟨_, _, rfl, by simp, by simpa using ne_keyword_of_isDotted dotted negation⟩
  | bool value => exact ⟨_, _, rfl, by simp, by cases value <;> simp⟩
  | number text => exact ⟨_, _, rfl, by simp, by simp⟩
  | string value => exact ⟨_, _, rfl, by simp, by simp⟩
  | call dotted each ih =>
    exact ⟨_, _, rfl, by simp, by simpa using ne_keyword_of_isDotted dotted negation⟩
  | group derived ih => exact ⟨_, _, rfl, by simp, by simp⟩

private theorem length_le_rowTokens (separator : Token) {row : List (Tree × List Token)}
    {item : Tree × List Token} (member : item ∈ row) :
    item.2.length ≤ (rowTokens separator row).length := by
  induction row with
  | nil => exact absurd member List.not_mem_nil
  | cons first others ih =>
    rcases eq_or_ne others [] with rfl | some
    · rw [List.mem_singleton.1 member, rowTokens_singleton]
    · rw [rowTokens_cons some, List.length_append, List.length_cons]
      rcases List.mem_cons.1 member with rfl | later
      · omega
      · have shorter := ih later
        omega

private theorem row_rowTokens {strength : Nat} {item : Parser} {separator : Token}
    (halts : Halts strength separator) {terms : List (Tree × List Token)} (some : terms ≠ [])
    (each : ∀ own ∈ terms, ∀ rest, Stops strength rest →
      item (own.2 ++ rest) = .some (own.1, rest))
    {rest : List Token} (stops : Stops strength rest) (last : rest.head? ≠ .some separator) :
    row item separator (rowTokens separator terms ++ rest) =
      .some (terms.map Prod.fst, rest) := by
  induction terms with
  | nil => exact absurd rfl some
  | cons first others ih =>
    obtain ⟨here, later⟩ := List.forall_mem_cons.1 each
    rcases eq_or_ne others [] with rfl | more
    · rw [rowTokens_singleton, row, here rest stops]
      cases rest with
      | nil => rfl
      | cons next after =>
        have other : next ≠ separator := fun same => last (congrArg Option.some same)
        simp [other]
    · have shape : rowTokens separator (first :: others) ++ rest =
          first.2 ++ separator :: (rowTokens separator others ++ rest) := by
        rw [rowTokens_cons more]
        simp
      rw [shape, row, here _ (stops_cons halts _)]
      dsimp only
      rw [dif_pos ⟨rfl, by simp; omega⟩, ih more later]
      rfl

private theorem operations_of_stops {operand : Parser} {strength : Nat} {rest : List Token}
    (stops : Stops strength rest) (left : Tree) :
    operations operand strength left rest = some (left, rest) := by
  cases rest with
  | nil => rw [operations]
  | cons next after =>
    rw [operations, (stops next rfl).operation strength (Nat.le_refl strength)]

private theorem operations_sign {operator : Operator} {operand : Parser} {left right : Tree}
    {after rest : List Token} (read : operand after = some (right, rest))
    (shorter : rest.length ≤ after.length) :
    operations operand operator.strength left (.sign operator.symbol :: after) =
      operations operand operator.strength (.arith operator left right) rest := by
  rw [operations, operator?_symbol]
  dsimp only
  rw [read]
  exact dif_pos shorter

namespace Parser

/-- The parser of a strength reads the tokens of a tree; behind them, operators of the strength can
still stand for which the tree is the left side. -/
structure Reads (inner : Parser) (strength : Nat) (tree : Tree) (tokens : List Token) : Prop where
  whole : ∀ rest, Stops strength rest → level inner strength (tokens ++ rest) = some (tree, rest)
  left : strength = 5 ∨ strength = 6 → ∀ rest, Stops (strength + 1) rest →
    level inner strength (tokens ++ rest) =
      operations (level inner (strength + 1)) strength tree rest

section Reads

variable {inner : Parser} {tree : Tree} {tokens : List Token}

private theorem Reads.ofLeft {strength : Nat}
    (left : ∀ rest, Stops (strength + 1) rest → level inner strength (tokens ++ rest) =
      operations (level inner (strength + 1)) strength tree rest) :
    Reads inner strength tree tokens where
  whole := fun rest stops => by
    rw [left rest (stops.mono (Nat.le_succ strength)), operations_of_stops stops]
  left := fun _ => left

private theorem Reads.ofWhole {strength : Nat} (other : ¬(strength = 5 ∨ strength = 6))
    (whole : ∀ rest, Stops strength rest →
      level inner strength (tokens ++ rest) = some (tree, rest)) :
    Reads inner strength tree tokens where
  whole := whole
  left := fun arithmetic => absurd arithmetic other

private theorem level_leftward {strength : Nat} (arithmetic : strength = 5 ∨ strength = 6) :
    level inner strength = leftward (level inner (strength + 1)) strength := by
  rcases arithmetic with rfl | rfl <;> rfl

private theorem chained_reads {strength : Nat} {separator : Token} (build : List Tree → Tree)
    {term : Parser} (halts : Halts (strength + 1) separator)
    {terms : List (Tree × List Token)} (some : terms ≠ [])
    (each : ∀ own ∈ terms, ∀ rest, Stops (strength + 1) rest →
      term (own.2 ++ rest) = .some (own.1, rest))
    {rest : List Token} (stops : Stops strength rest) (last : rest.head? ≠ .some separator) :
    chained term separator build (rowTokens separator terms ++ rest) =
      .some (chain build (terms.map Prod.fst), rest) := by
  rw [chained, row_rowTokens halts some each (stops.mono (Nat.le_succ strength)) last]
  rfl

theorem Reads.loosen {strength : Nat} (derived : Derives (strength + 1) tree tokens)
    (reads : Reads inner (strength + 1) tree tokens) : Reads inner strength tree tokens := by
  by_cases arithmetic : strength = 5 ∨ strength = 6
  · refine .ofLeft fun rest stops => ?_
    rw [level_leftward arithmetic, leftward, reads.whole rest stops]
    rfl
  refine .ofWhole arithmetic fun rest stops => ?_
  have whole := reads.whole rest (stops.mono (Nat.le_succ strength))
  have single {own : Token} {term : Parser} {build : List Tree → Tree}
      (halts : Halts (strength + 1) own) (last : rest.head? ≠ some own)
      (read : ∀ rest, Stops (strength + 1) rest → term (tokens ++ rest) = some (tree, rest)) :
      chained term own build (tokens ++ rest) = some (tree, rest) := by
    have row := chained_reads build halts (List.cons_ne_nil (tree, tokens) [])
      (by simpa using read) stops last
    rwa [rowTokens_singleton] at row
  match strength with
  | 0 => exact whole
  | 1 => exact single halts_or (fun first => (stops _ first).or (Nat.le_refl 1) rfl) reads.whole
  | 2 => exact single halts_and (fun first => (stops _ first).and (Nat.le_refl 2) rfl) reads.whole
  | 3 =>
    obtain ⟨first, others, rfl, -, positive⟩ := derived.first
    have other : first ≠ .word "not" := positive (Nat.le_refl 4)
    rw [← whole]
    exact negation.eq_2 _ _ fun after same => other (List.cons.inj same).1
  | 4 =>
    have unfolded : level inner 4 = comparison (level inner 5) := rfl
    rw [unfolded, comparison, whole]
    cases rest with
    | nil => rfl
    | cons next after =>
      dsimp only
      rw [(stops next rfl).comparison (Nat.le_refl 4)]
  | 5 | 6 => exact absurd (by decide) arithmetic
  | _ + 7 => exact whole

theorem Reads.chain {strength : Nat} {separator : Token} (build : List Tree → Tree)
    (halts : Halts (strength + 1) separator) {terms : List (Tree × List Token)}
    (several : 2 ≤ terms.length)
    (each : ∀ own ∈ terms, ∀ rest, Stops (strength + 1) rest →
      level inner (strength + 1) (own.2 ++ rest) = some (own.1, rest))
    (other : ¬(strength = 5 ∨ strength = 6))
    (last : ∀ rest, Stops strength rest → rest.head? ≠ some separator)
    (unfolded : level inner strength = chained (level inner (strength + 1)) separator build) :
    Reads inner strength (build (terms.map Prod.fst)) (rowTokens separator terms) := by
  refine .ofWhole other fun rest stops => ?_
  have nonempty := List.ne_nil_of_length_pos (Nat.lt_of_lt_of_le (by decide) several)
  rw [unfolded, chained_reads build halts nonempty each stops (last rest stops)]
  match terms, several with
  | first :: second :: others, _ => rfl

theorem Reads.not (reads : Reads inner 3 tree tokens) :
    Reads inner 3 (.not tree) (.word "not" :: tokens) := by
  refine .ofWhole (by decide) fun rest stops => ?_
  have unfolded : level inner 3 = negation (level inner 4) := rfl
  have operand := reads.whole rest stops
  rw [unfolded] at operand ⊢
  rw [List.cons_append, negation, operand]
  rfl

theorem Reads.compare {comparator : Comparator} {left right : Tree} {first second : List Token}
    (front : Reads inner 5 left first) (back : Reads inner 5 right second) :
    Reads inner 4 (.compare comparator left right)
      (first ++ .sign comparator.symbol :: second) := by
  refine .ofWhole (by decide) fun rest stops => ?_
  have unfolded : level inner 4 = comparison (level inner 5) := rfl
  have here := front.whole (.sign comparator.symbol :: (second ++ rest))
    (stops_cons (halts_comparator comparator) _)
  rw [unfolded, comparison, List.append_assoc, List.cons_append, here]
  dsimp only
  rw [comparator?_symbol]
  dsimp only
  rw [back.whole rest (stops.mono (by decide))]
  rfl

theorem Reads.arith {operator : Operator} {left right : Tree} {first second : List Token}
    (front : Reads inner operator.strength left first)
    (back : Reads inner (operator.strength + 1) right second) :
    Reads inner operator.strength (.arith operator left right)
      (first ++ .sign operator.symbol :: second) := by
  have arithmetic : operator.strength = 5 ∨ operator.strength = 6 := by cases operator <;> decide
  refine .ofLeft fun rest stops => ?_
  rw [List.append_assoc, List.cons_append,
    front.left arithmetic _ (stops_cons (halts_operator operator) _)]
  exact operations_sign (back.whole rest stops) (by simp)

private theorem Reads.ofAtom (read : ∀ rest, rest.head? ≠ some .opening →
    atom inner (tokens ++ rest) = some (tree, rest)) : Reads inner 7 tree tokens :=
  .ofWhole (by decide) fun rest stops =>
    read rest fun first => (stops .opening first).call rfl

theorem Reads.word {text : String} (own : word? text = some tree) :
    Reads inner 7 tree [.word text] := by
  refine .ofAtom fun rest other => ?_
  rw [List.singleton_append, atom, own]
  · rfl
  · exact fun after same => other (congrArg List.head? same)
  · exact fun after same => other (congrArg List.head? same)

private theorem word?_of_isDotted {text : String} (dotted : isDotted text = true) :
    word? text = some (.name text) := by
  rw [word?, if_neg (ne_keyword_of_isDotted dotted (by decide)),
    if_neg (ne_keyword_of_isDotted dotted (by decide)), if_pos dotted]

theorem Reads.call {function : String} (dotted : isDotted function = true)
    {arguments : List (Tree × List Token)}
    (each : ∀ own ∈ arguments, Derives 0 own.1 own.2 ∧
      ∀ rest, Stops 0 rest → inner (own.2 ++ rest) = some (own.1, rest)) :
    Reads inner 7 (.call function (arguments.map Prod.fst))
      (.word function :: .opening :: (rowTokens .comma arguments ++ [.closing])) := by
  refine .ofAtom fun rest _ => ?_
  cases arguments with
  | nil => exact if_pos dotted
  | cons first others =>
    have some := List.cons_ne_nil first others
    have read := row_rowTokens (halts_comma 0) some (fun own member => (each own member).2)
      (stops_cons (halts_closing 0) rest) (by simp)
    obtain ⟨token, more, shape, apart⟩ := rowTokens_first .comma some fun own member =>
      let ⟨token, more, shape, apart, _⟩ := (each own member).1.first
      ⟨token, more, shape, apart⟩
    have text : .word function :: .opening :: (rowTokens .comma (first :: others) ++ [.closing]) ++
        rest = .word function :: .opening :: (rowTokens .comma (first :: others) ++
          .closing :: rest) := by
      simp
    rw [text, atom]
    · rw [read]
      exact if_pos dotted
    · intro after same
      rw [shape] at same
      exact apart (List.cons.inj same).1

end Reads

/-- The parser reads what is derived, if it can descend into as many parentheses as there are
tokens. -/
private theorem reads_of_derives {strength : Nat} {tree : Tree} {tokens : List Token}
    (derived : Derives strength tree tokens) :
    ∀ depth, tokens.length ≤ depth → Reads (nested depth) strength tree tokens := by
  induction derived with
  | loosen derived ih => exact fun depth enough => .loosen derived (ih depth enough)
  | or several derived ih =>
    refine fun depth enough => .chain .or halts_or several (fun own member => ?_) (by decide)
      (fun rest stops first => (stops _ first).or (Nat.le_refl 1) rfl) rfl
    exact (ih own member depth (Nat.le_trans (length_le_rowTokens _ member) enough)).whole
  | and several derived ih =>
    refine fun depth enough => .chain .and halts_and several (fun own member => ?_) (by decide)
      (fun rest stops first => (stops _ first).and (Nat.le_refl 2) rfl) rfl
    exact (ih own member depth (Nat.le_trans (length_le_rowTokens _ member) enough)).whole
  | not derived ih => exact fun depth enough => .not (ih depth (Nat.le_of_succ_le enough))
  | compare left right first second =>
    intro depth enough
    rw [List.length_append, List.length_cons] at enough
    exact .compare (first depth (by omega)) (second depth (by omega))
  | arith left right first second =>
    intro depth enough
    rw [List.length_append, List.length_cons] at enough
    exact .arith (first depth (by omega)) (second depth (by omega))
  | name dotted => exact fun depth _ => .word (word?_of_isDotted dotted)
  | bool value => exact fun depth _ => .word (by cases value <;> rfl)
  | number text => exact fun depth _ => .ofAtom fun rest _ => rfl
  | string value => exact fun depth _ => .ofAtom fun rest _ => rfl
  | @call function arguments dotted derived ih =>
    intro depth enough
    obtain ⟨depth, rfl⟩ : ∃ less, depth = less + 1 :=
      Nat.exists_eq_succ_of_ne_zero (by rintro rfl; simp at enough)
    refine .call dotted fun own member => ⟨derived own member, ?_⟩
    refine (ih own member depth ?_).whole
    have shorter := length_le_rowTokens .comma member
    simp at enough
    omega
  | @group tree tokens derived ih =>
    intro depth enough
    obtain ⟨depth, rfl⟩ : ∃ less, depth = less + 1 :=
      Nat.exists_eq_succ_of_ne_zero (by rintro rfl; simp at enough)
    refine .ofAtom fun rest _ => ?_
    have shorter : tokens.length ≤ depth := by
      simp at enough
      omega
    have inside := (ih depth shorter).whole (.closing :: rest) (stops_cons (halts_closing 0) rest)
    have shape : .opening :: (tokens ++ [.closing]) ++ rest =
        .opening :: (tokens ++ .closing :: rest) := by
      simp
    rw [shape, atom, nested, inside]

end Parser

/-! ### The parser and the grammar -/

private theorem parseTokens?_eq_some_iff {tokens : List Token} {tree : Tree} :
    parseTokens? tokens = some tree ↔ Derives 0 tree tokens := by
  constructor
  · intro read
    unfold parseTokens? at read
    split at read
    · rename_i own found
      obtain ⟨front, rfl, derived⟩ := Parser.nested_sound _ found
      rwa [List.append_nil, ← Option.some.inj read]
    · exact absurd read (by simp)
  · intro derived
    have reads := Parser.reads_of_derives derived tokens.length (Nat.le_refl _)
    have whole := reads.whole [] (stops_nil 0)
    rw [List.append_nil] at whole
    rw [parseTokens?, Parser.nested, whole]

theorem parse?_eq_some_iff {text : String} {tree : Tree} :
    parse? text = some tree ↔ ∃ tokens, lex text.toList = some tokens ∧ Derives 0 tree tokens := by
  rw [parse?, Option.bind_eq_some_iff]
  simp only [parseTokens?_eq_some_iff]

end StrategyCompiler.Script
