import StrategyCompiler.Number.Text
import StrategyCompiler.Script.Literal
/-!
Expressions of the script language and their text, with parentheses only where an operand binds
more loosely than its place demands.
-/

set_option autoImplicit false

namespace StrategyCompiler.Script

open Number (Double)

inductive Comparator
  | greater
  | less
  | equal
  | notEqual
  deriving DecidableEq

def Comparator.symbol : Comparator → String
  | greater => ">"
  | less => "<"
  | equal => "=="
  | notEqual => "!="

inductive Operator
  | add
  | subtract
  | multiply
  | divide
  deriving DecidableEq

namespace Operator

def symbol : Operator → String
  | add => "+"
  | subtract => "-"
  | multiply => "*"
  | divide => "/"

def strength : Operator → Nat
  | add | subtract => 5
  | multiply | divide => 6

end Operator

inductive Expr
  | name (text : String)
  | number (value : Double)
  | bool (value : Bool)
  | string (value : String)
  | call (function : String) (arguments : List Expr)
  | compare (comparator : Comparator) (left right : Expr)
  | arith (operator : Operator) (left right : Expr)
  | not (operand : Expr)
  | and (terms : List Expr)
  | or (terms : List Expr)

namespace Expr

instance : Inhabited Expr := ⟨bool false⟩

/-- The conjunction of terms: a single term stands for itself, and no term for falsehood. -/
def all : List Expr → Expr
  | [] => bool false
  | [term] => term
  | terms => and terms

/-- The disjunction of terms: a single term stands for itself, and no term for falsehood. -/
def any : List Expr → Expr
  | [] => bool false
  | [term] => term
  | terms => or terms

/-- Put parentheses around a text whose strength is below the one its place demands. -/
def enclose (demand strength : Nat) (text : String) : String :=
  if strength < demand then "(" ++ text ++ ")" else text

mutual

/-- The text of an expression at a place that demands a strength.  Both sides of a comparison, the
right side of an arithmetic operator and the terms of a chain have to bind more tightly than the
operator; the left side of an arithmetic operator and the operand of a negation as tightly. -/
def renderAt (demand : Nat) : Expr → String
  | name text => text
  | number value => value.typed
  | bool value => if value then "true" else "false"
  | string value => literal value
  | call function arguments =>
    function ++ "(" ++ ", ".intercalate (renderEach 0 arguments) ++ ")"
  | compare comparator left right =>
    enclose demand 4 (renderAt 5 left ++ " " ++ comparator.symbol ++ " " ++ renderAt 5 right)
  | arith operator left right =>
    enclose demand operator.strength
      (renderAt operator.strength left ++ " " ++ operator.symbol ++ " " ++
        renderAt (operator.strength + 1) right)
  | not operand => enclose demand 3 ("not " ++ renderAt 3 operand)
  | and terms => enclose demand 2 (" and ".intercalate (renderEach 3 terms))
  | or terms => enclose demand 1 (" or ".intercalate (renderEach 2 terms))

/-- The texts of expressions at places that demand the same strength. -/
def renderEach (demand : Nat) : List Expr → List String
  | [] => []
  | term :: rest => renderAt demand term :: renderEach demand rest

end

def render (expr : Expr) : String := renderAt 0 expr

end Expr

end StrategyCompiler.Script
