import StrategyCompiler.Catalogue.Basic
import StrategyCompiler.Validation.Parameters
/-!
The checks of a single node, by its kind.
-/

set_option autoImplicit false

namespace StrategyCompiler.Validation

open Catalogue (Signature)
open Diagnostic (Error Warning)
open StrategyCompiler.Graph (Comparison Kind Levels Node Operation)

/-- The function that an indicator node can use; operators are left to conditions. -/
def indicator? (catalogue : Catalogue) (id : String) : Option Signature :=
  (catalogue.lookup? id).filter fun signature => signature.category != .operator

def indicatorErrors (catalogue : Catalogue) (node : Node) : List Error :=
  match node.indicatorId? with
  | none => [.missingIndicatorId node.id]
  | some id =>
    match indicator? catalogue id with
    | none => [.unknownIndicator node.id id]
    | some signature => (resolve signature node).errors

def conditionErrors (node : Node) : List Error :=
  match node.text? "operator" with
  | none => [.missingOperator node.id]
  | some operator =>
    if (Comparison.ofName? operator).isSome then [] else [.invalidOperator node.id operator]

inductive OrderTypeEntry
  | absent
  | valid (orderType : Graph.OrderType)
  | invalid (raw : Json.Value)

/-- Read the order type of an action; a blank text is absent. -/
def orderTypeEntry (node : Node) : OrderTypeEntry :=
  match node.value? "orderType" with
  | none => .absent
  | some (.string text) =>
    if Text.isBlank text then .absent
    else
      match Graph.OrderType.ofName? text with
      | some orderType => .valid orderType
      | none => .invalid (.string text)
  | some raw => .invalid raw

def actionErrors (node : Node) : List Error :=
  match orderTypeEntry node with
  | .invalid raw => [.invalidOrderType node.id raw]
  | .absent | .valid _ => []

def actionWarnings (node : Node) : List Warning :=
  (match orderTypeEntry node with
    | .absent => [.missingOrderType node.id]
    | .valid _ | .invalid _ => []) ++
  (if (Graph.orderQuantity? node).isNone then [.missingQuantity node.id] else [])

def mathErrors (node : Node) : List Error :=
  let operation := (node.text? "operation").getD ""
  if (Operation.ofName? operation).isNone then [.invalidOperation node.id operation] else []

def dataSourceWarnings (node : Node) : List Warning :=
  match node.text? "source" with
  | some series =>
    if Script.priceSeries.contains (Text.lower series) then []
    else [.unknownSeries node.id series]
  | none => []

def nodeErrors (catalogue : Catalogue) (node : Node) : List Error :=
  match node.kind with
  | .indicator => indicatorErrors catalogue node
  | .condition => conditionErrors node
  | .action => actionErrors node
  | .math => mathErrors node
  | .dataSource | .risk | .timing => []

def nodeWarnings (node : Node) : List Warning :=
  match node.kind with
  | .dataSource => dataSourceWarnings node
  | .condition => if (node.number? "threshold").isNone then [.missingThreshold node.id] else []
  | .action => actionWarnings node
  | .risk => if (Levels.of node).isEmpty then [.riskWithoutLevels node.id] else []
  | .timing => if (node.text? "session").isNone then [.missingSession node.id] else []
  | .indicator | .math => []

end StrategyCompiler.Validation
