import StrategyCompiler.Catalogue.Template
import StrategyCompiler.Compilation.Plan
/-!
The calculations section of a script: data of other timeframes, indicators and math nodes.
-/

set_option autoImplicit false

namespace StrategyCompiler.Compilation

open Catalogue (Parameter Setting Settings Signature)
open StrategyCompiler.Graph (Node Operation Placed)
open Naming (Binding)
open Number (Double)
open Script (Argument Expr Operand Operator Statement)

/-- The operator of an operation, for those that are written with one. -/
def operator? : Operation → Option Operator
  | .add => some .add
  | .subtract => some .subtract
  | .multiply => some .multiply
  | .divide => some .divide
  | .min | .max | .abs => none

/-- The operand that stands in when a math node has no second one. -/
def identity : Operation → Double
  | .multiply | .divide => Double.ofInt 1
  | _ => Double.ofInt 0

def applyOperation (operation : Operation) (left right : Expr) : Expr :=
  match operation with
  | .add => .arith .add left right
  | .subtract => .arith .subtract left right
  | .multiply => .arith .multiply left right
  | .divide => .arith .divide left right
  | .min => .call "math.min" [left, right]
  | .max => .call "math.max" [left, right]
  | .abs => .call "math.abs" [left]

/-- What is assigned to by a call whose result has these names. -/
def targetOf : Binding → Script.Target
  | .single name => .single name
  | .tuple outputs => .several (outputs.map Prod.snd)

/-- The variable or argument that a placeholder of a template stands for. -/
def placeholder? (binding : Binding) (arguments : List (String × String)) (key : String) :
    Option String :=
  if "out:".toList.isPrefixOf key.toList then
    binding.output? (String.ofList (key.toList.drop 4))
  else (arguments.find? fun entry => entry.1 == key).map Prod.snd

namespace Plan

def securityLine? (plan : Plan) (placed : Placed) : Option Statement :=
  match placed.node.text? "timeframe", plan.names.bindingAt? placed.position with
  | some timeframe, some binding =>
    some (.assign (.single binding.primary) (.call
      { function := "request.security"
        arguments :=
          [ Argument.expr (.name "syminfo.tickerid"), Argument.expr (.string timeframe),
            Argument.expr (.name (seriesOf placed.node)) ] }))
  | _, _ => none

/-- The arguments for the parameters of an indicator, by parameter.  Sources take the values in
front of the node one after the other; numbers and truth values are read from their inputs; anything
else is a literal. -/
def arguments (plan : Plan) (placed : Placed) (values : Settings) :
    List Placed → List Parameter → List (String × Operand)
  | _, [] => []
  | sources, parameter :: rest =>
    let literal : Operand := .setting (valueOf values parameter)
    match parameter.type, sources with
    | .source, source :: sources =>
      (parameter.name, ((plan.read? source none).map Operand.expr).getD literal) ::
        arguments plan placed values sources rest
    | type, sources =>
      let operand :=
        if type.passesByInput then
          ((plan.names.inputAt? placed.position parameter.name).map
            fun name => Operand.expr (.name name)).getD literal
        else literal
      (parameter.name, operand) :: arguments plan placed values sources rest

def argumentsOf (plan : Plan) (placed : Placed) (signature : Signature) :
    List (String × Operand) :=
  plan.arguments placed (Validation.resolve signature placed.node).values (plan.suppliers placed)
    signature.parameters

/-- The lines that compute an indicator: one call, or a line for each template. -/
def indicatorLines (plan : Plan) (placed : Placed) : List Statement :=
  match Naming.signatureOf? plan.catalogue placed.node,
      plan.names.bindingAt? placed.position with
  | some signature, some binding =>
    let arguments := plan.argumentsOf placed signature
    match signature.form with
    | .call function =>
      [.assign (targetOf binding)
        (.call { function, arguments := arguments.map fun entry => { value := entry.2 } })]
    | .templates texts =>
      let rendered := arguments.map fun entry => (entry.1, entry.2.render)
      List.zipWith
        (fun text name =>
          .assign (.single name)
            (.verbatim (Catalogue.Template.fill text (placeholder? binding rendered))))
        texts binding.identifiers
  | _, _ => []

def mathExpr? (plan : Plan) (placed : Placed) : Option Expr :=
  ((placed.node.text? "operation").bind Operation.ofName?).map fun operation =>
    let sources := plan.suppliers placed
    let left := (sources[0]?.bind fun source => plan.read? source none).getD (.name "close")
    let right :=
      ((sources[1]?.bind fun source => plan.read? source none).or
        ((placed.node.number? "value").map Expr.number)).getD (.number (identity operation))
    applyOperation operation left right

def mathLine? (plan : Plan) (placed : Placed) : Option Statement :=
  match plan.names.bindingAt? placed.position, plan.mathExpr? placed with
  | some binding, some expr => some (.define binding.primary expr)
  | _, _ => none

def calculationsOf (plan : Plan) (placed : Placed) : List Statement :=
  match placed.node.kind with
  | .dataSource => (plan.securityLine? placed).toList
  | .indicator => plan.indicatorLines placed
  | .math => (plan.mathLine? placed).toList
  | _ => []

def calculations (plan : Plan) : List Statement :=
  plan.order.flatMap plan.calculationsOf

end Plan

end StrategyCompiler.Compilation
