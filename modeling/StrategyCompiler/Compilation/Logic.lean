import StrategyCompiler.Compilation.Plan
import StrategyCompiler.Compilation.Roles
/-!
The logic section of a script: conditions, sessions, the two combined conditions, and the orders.
-/

set_option autoImplicit false

namespace StrategyCompiler.Compilation

open StrategyCompiler.Graph (Comparison Levels Node Placed Role)
open Number (Double)
open Script (Argument Call Expr Statement)

/-- The expression that is true within the session of a timing node. -/
def sessionExpr (node : Node) : Expr :=
  let session := (node.text? "session").getD Graph.defaultSession
  .not (.call "na" [.call "time" [.name "timeframe.period", .string session]])

def quantityOf (node : Node) : Double :=
  (Graph.orderQuantity? node).getD Graph.defaultQuantity

def orderTypeOf (node : Node) : Graph.OrderType :=
  ((node.text? "orderType").bind Graph.OrderType.ofName?).getD .market

def priceOf (node : Node) : Expr :=
  ((node.number? "price").map Expr.number).getD (.name "close")

def entryOrder (node : Node) : Call where
  function := "strategy.entry"
  arguments :=
    [ Argument.expr (.string (Plan.labelOr node "Entry")),
      Argument.expr (.name "strategy.long"),
      Argument.named "qty" (.number (quantityOf node)) ] ++
    match orderTypeOf node with
    | .market => []
    | .limit => [Argument.named "limit" (priceOf node)]
    | .stop => [Argument.named "stop" (priceOf node)]

def exitOrder (node : Node) : Call where
  function := "strategy.close_all"
  arguments := [Argument.named "comment" (.string (Plan.labelOr node "Exit"))]

/-- The factor `1 + percent / 100`, rounded to ten decimals. -/
def percentFactor (percent : Double) : Double :=
  let scale := Double.ofInt 10000000000
  ((((Double.ofInt 1).add (percent.div (Double.ofInt 100))).mul scale).roundHalfAway).div scale

/-- The price that lies a percentage away from the average entry price. -/
def relativePrice (percent : Double) : Expr :=
  .arith .multiply (.name "strategy.position_avg_price") (.number (percentFactor percent))

/-- The call that protects a position by the levels of a risk node. -/
def protection? (node : Node) : Option Call :=
  let levels := Levels.of node
  if levels.isEmpty then none
  else some
    { function := "strategy.exit"
      arguments :=
        [Argument.expr (.string (Plan.labelOr node "Risk Management"))] ++
        (levels.stopLoss.map fun percent =>
          Argument.named "stop" (relativePrice percent.neg)).toList ++
        (levels.takeProfit.map fun percent =>
          Argument.named "limit" (relativePrice percent)).toList }

/-- A comparison of two operands; a crossing is a call of its function. -/
def compareExpr (crossover crossunder : String) (left right : Expr) : Comparison → Expr
  | .greaterThan => .compare .greater left right
  | .lessThan => .compare .less left right
  | .equalTo => .compare .equal left right
  | .notEqualTo => .compare .notEqual left right
  | .crossesAbove => .call crossover [left, right]
  | .crossesBelow => .call crossunder [left, right]

namespace Plan

/-- The function of an operator: the one in the catalogue if it is written as a call. -/
def operatorFunction (plan : Plan) (name : String) : String :=
  match (plan.catalogue.lookup? name).map Catalogue.Signature.form with
  | some (.call function) => function
  | _ => "ta." ++ name

/-- The node whose value a condition examines: the first indicator or math node in front of it,
else the first data source. -/
def examined? (sources : List Placed) : Option Placed :=
  (sources.find? fun source =>
    source.node.kind == .indicator || source.node.kind == .math).or
      (sources.find? fun source => source.node.kind == .dataSource)

def leftOperand (plan : Plan) (placed : Placed) : Expr :=
  ((examined? (plan.suppliers placed)).bind fun source =>
    plan.read? source (placed.node.text? "output")).getD (.name "close")

/-- The right operand of a condition: its threshold, else another value in front of it, else
zero. -/
def rightOperand (plan : Plan) (placed : Placed) : Expr :=
  match placed.node.number? "threshold" with
  | some threshold => .number threshold
  | none =>
    let sources := plan.suppliers placed
    let examined := (examined? sources).map Placed.position
    ((sources.find? fun source => some source.position != examined).bind
      fun source => plan.read? source none).getD (.number (Double.ofInt 0))

def conditionExpr (plan : Plan) (placed : Placed) : Expr :=
  let comparison :=
    ((placed.node.text? "operator").bind Comparison.ofName?).getD .greaterThan
  compareExpr (plan.operatorFunction "crossover") (plan.operatorFunction "crossunder")
    (plan.leftOperand placed) (plan.rightOperand placed) comparison

/-- The expression that a condition or timing node stands for. -/
def logicExpr? (plan : Plan) (placed : Placed) : Option Expr :=
  match placed.node.kind with
  | .condition => some (plan.conditionExpr placed)
  | .timing => some (sessionExpr placed.node)
  | _ => none

def definitions (plan : Plan) : List Statement :=
  plan.order.filterMap fun placed =>
    match plan.logicExpr? placed, plan.names.bindingAt? placed.position with
    | some expr, some binding => some (.define binding.primary expr)
    | _, _ => none

def variablesOf (plan : Plan) (nodes : List Placed) : List Expr :=
  nodes.filterMap fun placed =>
    (plan.names.bindingAt? placed.position).map fun binding => .name binding.primary

def timings (plan : Plan) : List Placed :=
  plan.order.filter fun placed => placed.node.kind == .timing

/-- The condition to open positions: all entry conditions and all sessions together. -/
def entryExpr? (plan : Plan) : Option Expr :=
  let conditions := conditionsOf plan.index plan.order .entry
  if conditions.isEmpty then none
  else some (.all (plan.variablesOf conditions ++ plan.variablesOf plan.timings))

/-- The condition to close positions: any of the exit conditions. -/
def exitExpr? (plan : Plan) : Option Expr :=
  let conditions := conditionsOf plan.index plan.order .exit
  if conditions.isEmpty then none else some (.any (plan.variablesOf conditions))

def entryOrders (plan : Plan) : List Call :=
  (liveActionsOf plan.index plan.order .entry).map fun placed => entryOrder placed.node

def exitOrders (plan : Plan) : List Call :=
  (liveActionsOf plan.index plan.order .exit).map fun placed => exitOrder placed.node

def protections (plan : Plan) : List Call :=
  plan.order.filterMap fun placed =>
    if placed.node.kind == .risk then protection? placed.node else none

end Plan

end StrategyCompiler.Compilation
