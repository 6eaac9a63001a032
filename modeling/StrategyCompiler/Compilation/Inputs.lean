import StrategyCompiler.Compilation.Plan
/-!
The inputs section of a script: one declaration for each parameter that has an input.
-/

set_option autoImplicit false

namespace StrategyCompiler.Compilation

open Catalogue (Parameter Setting Signature)
open StrategyCompiler.Graph (Placed)
open Number (Double)
open Script (Argument Operand Statement)

/-- A bound of an input; for floats it is a float literal. -/
def boundArgument (parameter : Parameter) (name : String) (bound : Double) : Argument where
  name := some name
  value := if parameter.type == .float then .setting (.float bound) else .expr (.number bound)

/-- The arguments for the bounds and the step of a numeric input. -/
def boundArguments (parameter : Parameter) : List Argument :=
  if parameter.type.isNumeric then
    (parameter.min.map (boundArgument parameter "minval")).toList ++
      (parameter.max.map (boundArgument parameter "maxval")).toList ++
      (parameter.step.map (boundArgument parameter "step")).toList
  else []

def optionArguments (parameter : Parameter) : List Argument :=
  if parameter.options.isEmpty then []
  else [{ name := some "options", value := .texts parameter.options }]

def inputDeclaration? (name label : String) (parameter : Parameter) (value : Setting) :
    Option Statement :=
  parameter.type.inputFunction?.map fun function =>
    .assign (.single name) (.call
      { function
        arguments :=
          [ { value := .setting value },
            Argument.named "title" (.string (label ++ " " ++ parameter.title)) ] ++
          boundArguments parameter ++ optionArguments parameter })

namespace Plan

/-- The declarations for the parameters of one indicator. -/
def inputsOf (plan : Plan) (placed : Placed) (signature : Signature) : List Statement :=
  let values := (Validation.resolve signature placed.node).values
  signature.parameters.filterMap fun parameter =>
    (plan.names.inputAt? placed.position parameter.name).bind fun name =>
      inputDeclaration? name (displayLabel placed.node signature) parameter
        (valueOf values parameter)

def inputs (plan : Plan) : List Statement :=
  plan.indicators.flatMap fun (placed, signature) => plan.inputsOf placed signature

end Plan

end StrategyCompiler.Compilation
