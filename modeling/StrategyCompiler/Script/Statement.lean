import StrategyCompiler.Catalogue.Setting
import StrategyCompiler.Script.Expr
/-!
Statements of a script and their text.
-/

set_option autoImplicit false

namespace StrategyCompiler.Script

open Catalogue (Setting)

/-- What an argument of a call holds: an expression, the value of a parameter, or a list of
texts. -/
inductive Operand
  | expr (value : Expr)
  | setting (value : Setting)
  | texts (items : List String)

def Operand.render : Operand → String
  | expr value => value.render
  | setting value => value.literal
  | texts items => "[" ++ ", ".intercalate (items.map literal) ++ "]"

/-- An argument of a call, by its position or by its name. -/
structure Argument where
  name : Option String := none
  value : Operand

namespace Argument

def expr (value : Expr) : Argument := { value := .expr value }

def named (name : String) (value : Expr) : Argument := { name := some name, value := .expr value }

def render (argument : Argument) : String :=
  match argument.name with
  | some name => name ++ "=" ++ argument.value.render
  | none => argument.value.render

end Argument

structure Call where
  function : String
  arguments : List Argument

def Call.render (call : Call) : String :=
  call.function ++ "(" ++ ", ".intercalate (call.arguments.map Argument.render) ++ ")"

/-- What is assigned to: one variable, or several at once. -/
inductive Target
  | single (name : String)
  | several (names : List String)
  deriving DecidableEq

namespace Target

def names : Target → List String
  | single name => [name]
  | several names => names

def render : Target → String
  | single name => name
  | several names => "[" ++ ", ".intercalate names ++ "]"

end Target

/-- What is assigned: an expression, the result of a call, or a text that is taken as it is. -/
inductive Source
  | expr (value : Expr)
  | call (value : Call)
  | verbatim (text : String)

def Source.render : Source → String
  | expr value => value.render
  | call value => value.render
  | verbatim text => text

/-- A statement: an assignment, or a call for its effect. -/
inductive Statement
  | assign (target : Target) (source : Source)
  | call (value : Call)

namespace Statement

def render : Statement → String
  | assign target source => target.render ++ " = " ++ source.render
  | call value => value.render

def assigned : Statement → List String
  | assign target _ => target.names
  | call _ => []

def define (name : String) (value : Expr) : Statement := assign (.single name) (.expr value)

end Statement

end StrategyCompiler.Script
