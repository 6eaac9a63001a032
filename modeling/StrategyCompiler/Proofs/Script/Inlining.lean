import StrategyCompiler.Proofs.Script.Words
/-!
Calls at the defaults of their inputs.  Names that an expression reads can be replaced by texts, and
what reads no replaced name stays as it is; inlining a call replaces each input variable by the
default that its declaration gives to it.
-/

set_option autoImplicit false

namespace StrategyCompiler.Script

mutual

def Expr.rename (text : String → String) : Expr → Expr
  | .name own => .name (text own)
  | .number value => .number value
  | .bool value => .bool value
  | .string value => .string value
  | .call function arguments => .call function (renameEach text arguments)
  | .compare comparator left right => .compare comparator (left.rename text) (right.rename text)
  | .arith operator left right => .arith operator (left.rename text) (right.rename text)
  | .not operand => .not (operand.rename text)
  | .and terms => .and (renameEach text terms)
  | .or terms => .or (renameEach text terms)

def Expr.renameEach (text : String → String) : List Expr → List Expr
  | [] => []
  | term :: rest => term.rename text :: renameEach text rest

end

def Operand.rename (text : String → String) : Operand → Operand
  | .expr value => .expr (value.rename text)
  | .setting (.source series) => .setting (.source (text series))
  | .setting value => .setting value
  | .texts items => .texts items

def Call.rename (text : String → String) (call : Call) : Call :=
  { call with
    arguments := call.arguments.map fun argument =>
      { argument with value := argument.value.rename text } }

/-- The text of the default that a statement declares an input of this name with. -/
def Statement.default? (name : String) : Statement → Option String
  | .assign (.single own) (.call value) =>
    if own = name then value.arguments.head?.map Argument.render else none
  | _ => none

def default? (declarations : List Statement) (name : String) : Option String :=
  declarations.findSome? (Statement.default? name)

def Call.inlined (declarations : List Statement) (call : Call) : Call :=
  call.rename fun name => (default? declarations name).getD name

/-! ### Names that stay -/

section Stay

variable {text : String → String}

mutual

theorem Expr.rename_eq_self : ∀ (expr : Expr), (∀ name ∈ expr.reads, text name = name) →
    expr.rename text = expr
  | .name own, stays => by
    rw [Expr.rename, stays own (by simp [Expr.reads])]
  | .number _, _ => by rw [Expr.rename]
  | .bool _, _ => by rw [Expr.rename]
  | .string _, _ => by rw [Expr.rename]
  | .call _ arguments, stays => by
    rw [Expr.reads] at stays
    rw [Expr.rename, Expr.renameEach_eq_self arguments stays]
  | .compare _ left right, stays => by
    rw [Expr.reads, List.forall_mem_append] at stays
    rw [Expr.rename, left.rename_eq_self stays.1, right.rename_eq_self stays.2]
  | .arith _ left right, stays => by
    rw [Expr.reads, List.forall_mem_append] at stays
    rw [Expr.rename, left.rename_eq_self stays.1, right.rename_eq_self stays.2]
  | .not operand, stays => by
    rw [Expr.reads] at stays
    rw [Expr.rename, operand.rename_eq_self stays]
  | .and terms, stays => by
    rw [Expr.reads] at stays
    rw [Expr.rename, Expr.renameEach_eq_self terms stays]
  | .or terms, stays => by
    rw [Expr.reads] at stays
    rw [Expr.rename, Expr.renameEach_eq_self terms stays]

private theorem Expr.renameEach_eq_self : ∀ (terms : List Expr),
    (∀ name ∈ Expr.readsOf terms, text name = name) → Expr.renameEach text terms = terms
  | [], _ => by rw [Expr.renameEach]
  | term :: rest, stays => by
    rw [Expr.readsOf, List.forall_mem_append] at stays
    rw [Expr.renameEach, term.rename_eq_self stays.1, Expr.renameEach_eq_self rest stays.2]

end

theorem Operand.rename_eq_self {operand : Operand}
    (stays : ∀ name ∈ operand.reads, text name = name) : operand.rename text = operand := by
  cases operand with
  | expr value => rw [Operand.rename, value.rename_eq_self stays]
  | texts items => rfl
  | setting value =>
    cases value with
    | source series => rw [Operand.rename, stays series (List.mem_singleton_self series)]
    | int | float | bool | string => rfl

end Stay

/-! ### Declarations -/

theorem Statement.mem_assigned_of_default? {statement : Statement} {name text : String}
    (found : statement.default? name = some text) : name ∈ statement.assigned := by
  unfold Statement.default? at found
  split at found
  · rename_i own value
    split at found
    · rename_i same
      exact List.mem_singleton.2 same.symm
    · exact absurd found (by simp)
  · exact absurd found (by simp)

theorem default?_eq_none {declarations : List Statement} {name : String}
    (undeclared : name ∉ declarations.flatMap Statement.assigned) :
    default? declarations name = none := by
  refine List.findSome?_eq_none_iff.2 fun statement member => ?_
  cases found : statement.default? name with
  | none => rfl
  | some text =>
    exact absurd (List.mem_flatMap.2 ⟨statement, member, Statement.mem_assigned_of_default? found⟩)
      undeclared

theorem default?_eq_some {declarations : List Statement} {statement : Statement}
    {name text : String} (member : statement ∈ declarations)
    (own : statement.default? name = some text)
    (agree : ∀ other ∈ declarations, ∀ found, other.default? name = some found → found = text) :
    default? declarations name = some text := by
  cases found : default? declarations name with
  | none =>
    have absent := List.findSome?_eq_none_iff.1 found statement member
    rw [own] at absent
    exact absurd absent (by simp)
  | some other =>
    obtain ⟨declaration, inside, declared⟩ := List.exists_of_findSome?_eq_some found
    rw [agree declaration inside other declared]

end StrategyCompiler.Script
