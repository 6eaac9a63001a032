import Mathlib.Algebra.Order.Field.Rat
import Mathlib.Algebra.Order.Group.Abs
import StrategyCompiler.Proofs.Number.Readback
import StrategyCompiler.Proofs.Script.Reading
/-!
The value of what is read.  A tree of names, numerals, arithmetic and the functions for the least,
the greatest and the absolute value has a rational value as soon as its names have one, unless
something is divided by zero.
-/

set_option autoImplicit false

namespace StrategyCompiler.Script

open Number (Double)

def Operator.result? (operator : Operator) (x y : Rat) : Option Rat :=
  match operator with
  | add => some (x + y)
  | subtract => some (x - y)
  | multiply => some (x * y)
  | divide => if y = 0 then none else some (x / y)

def called? (function : String) : List Rat → Option Rat
  | [] => none
  | x :: rest =>
    if function = "math.min" then some (rest.foldl min x)
    else if function = "math.max" then some (rest.foldl max x)
    else if function = "math.abs" ∧ rest = [] then some |x|
    else none

namespace Tree

mutual

/-- The value of a tree when its names have one; what is no number has none. -/
def value? (values : String → Rat) : Tree → Option Rat
  | name text => some (values text)
  | number text => Double.written? text
  | arith operator left right =>
    (left.value? values).bind fun x => (right.value? values).bind (operator.result? x)
  | call function arguments => (valueEach? values arguments).bind (called? function)
  | bool _ | string _ | compare _ _ _ | not _ | and _ | or _ => none

def valueEach? (values : String → Rat) : List Tree → Option (List Rat)
  | [] => some []
  | term :: rest =>
    (term.value? values).bind fun x => (valueEach? values rest).map fun others => x :: others

end

end Tree

namespace Expr

variable {values : String → Rat} {left right : Expr} {x y : Rat}

theorem value?_name (text : String) : (name text).tree.value? values = some (values text) := by
  rw [tree, Tree.value?]

theorem value?_number (number : Double) :
    (Expr.number number).tree.value? values = number.value? := by
  rw [tree, Tree.value?, Double.written?_typed]

section Operands

variable (first : left.tree.value? values = some x) (second : right.tree.value? values = some y)

include first in
theorem value?_call_one (function : String) :
    (call function [left]).tree.value? values = called? function [x] := by
  rw [tree, Tree.value?, treesOf, treesOf, Tree.valueEach?, Tree.valueEach?, first]
  rfl

include first second

theorem value?_arith (operator : Operator) :
    (arith operator left right).tree.value? values = operator.result? x y := by
  rw [tree, Tree.value?, first, second]
  rfl

theorem value?_call_two (function : String) :
    (call function [left, right]).tree.value? values = called? function [x, y] := by
  rw [tree, Tree.value?, treesOf, treesOf, treesOf, Tree.valueEach?, Tree.valueEach?,
    Tree.valueEach?, first, second]
  rfl

end Operands

end Expr

end StrategyCompiler.Script
