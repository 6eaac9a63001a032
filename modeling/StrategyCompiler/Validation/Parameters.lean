import StrategyCompiler.Catalogue.Signature
import StrategyCompiler.Diagnostic
/-!
The values that a node gives to the parameters of its indicator.
-/

set_option autoImplicit false

namespace StrategyCompiler.Validation

open Catalogue (Parameter Setting Settings Signature)
open Diagnostic (Error)

/-- The values of an indicator's parameters, and what is wrong with those that have none. -/
structure Resolution where
  values : Settings := {}
  errors : List Error := []

/-- The value of one parameter: the configured one, else the default unless it is mandatory. -/
def settle (signature : Signature) (node : Graph.Node) (parameter : Parameter) :
    Except Error Setting :=
  match parameter.configured? node.config with
  | some raw =>
    (parameter.coerce raw).mapError (Error.violation node.id parameter.name parameter.type)
  | none =>
    if parameter.required then .error (.missingParameter node.id signature.name parameter.name)
    else .ok parameter.default

/-- Enter the value of a parameter, or what is wrong with it. -/
def Resolution.enter (resolution : Resolution) (parameter : Parameter) :
    Except Error Setting → Resolution
  | .ok value => { resolution with values := resolution.values.insert parameter.name value }
  | .error error => { resolution with errors := resolution.errors ++ [error] }

def settleAll (signature : Signature) (node : Graph.Node) : Resolution :=
  signature.parameters.foldl
    (fun resolution parameter => resolution.enter parameter (settle signature node parameter)) {}

/-- The values of all parameters; when each of them has one, the rule of the signature judges them
together. -/
def resolve (signature : Signature) (node : Graph.Node) : Resolution :=
  let resolution := settleAll signature node
  if resolution.errors.isEmpty then
    match signature.complaint? resolution.values with
    | some complaint =>
      { resolution with errors := [.ruleBroken node.id signature.name complaint] }
    | none => resolution
  else resolution

end StrategyCompiler.Validation
