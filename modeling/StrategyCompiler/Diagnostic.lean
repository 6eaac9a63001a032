import StrategyCompiler.Catalogue.Parameter
import StrategyCompiler.Graph.Config
import StrategyCompiler.Script.Check
/-!
What the compiler reports about a graph: errors, which keep a script from being generated, and
warnings, which do not.
-/

set_option autoImplicit false

namespace StrategyCompiler.Diagnostic

open Catalogue (SettingType Violation)

inductive Endpoint
  | source
  | target
  deriving DecidableEq

def Endpoint.name : Endpoint → String
  | source => "source"
  | target => "target"

inductive Error
  | missingDataSource
  | duplicateNodeId (node : String)
  | missingIndicatorId (node : String)
  | unknownIndicator (node indicator : String)
  | missingParameter (node indicator parameter : String)
  | violation (node parameter : String) (expected : SettingType) (cause : Violation)
  | ruleBroken (node indicator complaint : String)
  | missingOperator (node : String)
  | invalidOperator (node operator : String)
  | invalidOrderType (node : String) (raw : Json.Value)
  | invalidOperation (node operation : String)
  | danglingEdge (edge : String) (endpoint : Endpoint) (node : String)
  | circularDependency (node : String)
  | badStructure (fault : Script.StructureFault)

inductive Warning
  | noActions
  | unconnectedIndicator (node label : String)
  | unconnectedCondition (node : String)
  | missingThreshold (node : String)
  | missingQuantity (node : String)
  | missingOrderType (node : String)
  | unassignedAction (node label : String)
  | actionWithoutConditions (node : String) (role : Graph.Role)
  | riskWithoutLevels (node : String)
  | missingSession (node : String)
  | unknownSeries (node series : String)
  deriving DecidableEq

private def quote (text : String) : String := "'" ++ text ++ "'"

/-- Texts one after the other, with commas between them. -/
private def listed (texts : List String) : String := ", ".intercalate texts

namespace Error

/-- The message of a parameter value that is not accepted. -/
def violationMessage (node parameter : String) (expected : SettingType) : Violation → String
  | .wrongType raw =>
    "Parameter " ++ quote parameter ++ " on node " ++ quote node ++ " must be of type " ++
      expected.name ++ ", but found " ++ quote (Catalogue.shownValue raw)
  | .outOfRange value min max =>
    "Parameter " ++ quote parameter ++ " on node " ++ quote node ++ " is " ++ value.plain ++
      ", which is outside the allowed range " ++ Catalogue.boundsText min max
  | .notAnOption value options =>
    "Parameter " ++ quote parameter ++ " on node " ++ quote node ++ " has value " ++
      quote value ++ ", expected one of [" ++ listed options ++ "]"

def message : Error → String
  | missingDataSource => "Strategy must have at least one data source"
  | duplicateNodeId node => "Node id " ++ quote node ++ " is used by more than one node"
  | missingIndicatorId node =>
    "Indicator node " ++ quote node ++ " does not specify an indicatorId"
  | unknownIndicator node indicator =>
    "Indicator node " ++ quote node ++ " references unknown indicator " ++ quote indicator
  | missingParameter node indicator parameter =>
    "Indicator " ++ quote indicator ++ " on node " ++ quote node ++
      " is missing required parameter " ++ quote parameter
  | violation node parameter expected cause => violationMessage node parameter expected cause
  | ruleBroken node indicator complaint =>
    "Indicator " ++ quote indicator ++ " on node " ++ quote node ++ " is misconfigured: " ++
      complaint
  | missingOperator node => "Condition node " ++ quote node ++ " does not specify an operator"
  | invalidOperator node operator =>
    "Condition node " ++ quote node ++ " has invalid operator " ++ quote operator
  | invalidOrderType node raw =>
    "Action node " ++ quote node ++ " has invalid order type " ++ quote (Catalogue.shownValue raw)
  | invalidOperation node operation =>
    "Math node " ++ quote node ++ " has invalid operation " ++ quote operation
  | danglingEdge edge endpoint node =>
    "Edge " ++ quote edge ++ " references non-existent " ++ endpoint.name ++ " node " ++ quote node
  | circularDependency node =>
    "Circular dependency detected involving node " ++ quote node
  | badStructure fault => "Generated code failed the structural check: " ++ fault.message

/-- The fields that name the parameter of a value that is not accepted, and what is wrong. -/
def violationFields (node parameter : String) (expected : SettingType) :
    Violation → String × Json.Object
  | .wrongType raw =>
    ("invalid_parameter_type",
      [ ("node_id", .string node), ("parameter", .string parameter),
        ("expected", .string expected.name), ("found", .string (Catalogue.shownValue raw)) ])
  | .outOfRange value min max =>
    ("parameter_out_of_range",
      [ ("node_id", .string node), ("parameter", .string parameter), ("value", .float value),
        ("bounds", .string (Catalogue.boundsText min max)) ])
  | .notAnOption value options =>
    ("invalid_enum_value",
      [ ("node_id", .string node), ("parameter", .string parameter), ("value", .string value),
        ("options", .string (listed options)) ])

/-- The kind of an error and its data, in the order in which they are written. -/
def fields : Error → String × Json.Object
  | missingDataSource => ("missing_data_source", [])
  | duplicateNodeId node => ("duplicate_node_id", [("node_id", .string node)])
  | missingIndicatorId node => ("missing_indicator_id", [("node_id", .string node)])
  | unknownIndicator node indicator =>
    ("unknown_indicator", [("node_id", .string node), ("indicator_id", .string indicator)])
  | missingParameter node indicator parameter =>
    ("missing_parameter",
      [ ("node_id", .string node), ("indicator_id", .string indicator),
        ("parameter", .string parameter) ])
  | violation node parameter expected cause => violationFields node parameter expected cause
  | ruleBroken node indicator complaint =>
    ("parameter_rule",
      [ ("node_id", .string node), ("indicator_id", .string indicator),
        ("message", .string complaint) ])
  | missingOperator node => ("missing_operator", [("node_id", .string node)])
  | invalidOperator node operator =>
    ("invalid_operator", [("node_id", .string node), ("operator", .string operator)])
  | invalidOrderType node raw =>
    ("invalid_order_type",
      [("node_id", .string node), ("order_type", .string (Catalogue.shownValue raw))])
  | invalidOperation node operation =>
    ("invalid_math_operation", [("node_id", .string node), ("operation", .string operation)])
  | danglingEdge edge endpoint node =>
    ("dangling_edge",
      [ ("edge_id", .string edge), ("endpoint", .string endpoint.name),
        ("node_id", .string node) ])
  | circularDependency node => ("circular_dependency", [("node_id", .string node)])
  | badStructure fault => ("structural_check", [("message", .string fault.message)])

def toJson (error : Error) : Json.Value :=
  .object (("kind", .string error.fields.1) :: error.fields.2)

end Error

namespace Warning

def message : Warning → String
  | noActions => "Strategy has no action nodes; no orders will be placed"
  | unconnectedIndicator node label =>
    "Indicator node " ++ quote node ++ " (" ++ label ++ ") is not connected to any other node"
  | unconnectedCondition node =>
    "Condition node " ++ quote node ++ " has no connected indicator; comparing against close"
  | missingThreshold node => "Condition node " ++ quote node ++ " has no numeric threshold"
  | missingQuantity node =>
    "Action node " ++ quote node ++ " has no quantity; defaulting to " ++
      Graph.defaultQuantity.plain
  | missingOrderType node =>
    "Action node " ++ quote node ++ " has no order type; defaulting to " ++
      quote Graph.OrderType.market.name
  | unassignedAction node label =>
    "Action node " ++ quote node ++ " (" ++ label ++
      ") is neither an entry nor an exit and will be skipped"
  | actionWithoutConditions node role =>
    "Action node " ++ quote node ++ " has no " ++ role.name ++ " conditions and will be skipped"
  | riskWithoutLevels node =>
    "Risk node " ++ quote node ++ " has no valid stopLoss or takeProfit percentage"
  | missingSession node =>
    "Timing node " ++ quote node ++ " has no session; defaulting to " ++
      quote Graph.defaultSession
  | unknownSeries node series =>
    "Data source node " ++ quote node ++ " uses unknown series " ++ quote series ++
      "; defaulting to close"

/-- The kind of a warning and its data, in the order in which they are written. -/
def fields : Warning → String × Json.Object
  | noActions => ("no_actions", [])
  | unconnectedIndicator node label =>
    ("unconnected_indicator", [("node_id", .string node), ("label", .string label)])
  | unconnectedCondition node => ("unconnected_condition", [("node_id", .string node)])
  | missingThreshold node => ("missing_threshold", [("node_id", .string node)])
  | missingQuantity node =>
    ("missing_quantity", [("node_id", .string node), ("default", .float Graph.defaultQuantity)])
  | missingOrderType node =>
    ("missing_order_type",
      [("node_id", .string node), ("default", .string Graph.OrderType.market.name)])
  | unassignedAction node label =>
    ("unassigned_action", [("node_id", .string node), ("label", .string label)])
  | actionWithoutConditions node role =>
    ("action_without_conditions", [("node_id", .string node), ("role", .string role.name)])
  | riskWithoutLevels node => ("risk_without_levels", [("node_id", .string node)])
  | missingSession node =>
    ("missing_session", [("node_id", .string node), ("default", .string Graph.defaultSession)])
  | unknownSeries node series =>
    ("unknown_series", [("node_id", .string node), ("source_name", .string series)])

def toJson (warning : Warning) : Json.Value :=
  .object (("kind", .string warning.fields.1) :: warning.fields.2)

end Warning

end StrategyCompiler.Diagnostic
