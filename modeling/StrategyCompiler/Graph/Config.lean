import StrategyCompiler.Graph.Basic
import StrategyCompiler.Json.Numeric
import StrategyCompiler.Text.Lines
/-!
Readings of the configuration keys that the kinds of nodes understand.  A null entry counts as not
given, and so does a blank text.
-/

set_option autoImplicit false

namespace StrategyCompiler.Graph

open Number (Double)

namespace Node

def value? (node : Node) (key : String) : Option Json.Value :=
  (Json.Object.get? node.config key).filter fun value => !value.isNull

/-- The text of a value without the white space around it, unless it is blank. -/
def usableText? : Json.Value → Option String
  | .string s => if Text.trim s == "" then none else some (Text.trim s)
  | _ => none

/-- The text entry of a key without the white space around it, unless it is blank. -/
def text? (node : Node) (key : String) : Option String :=
  (node.value? key).bind usableText?

/-- The finite number of a key, which may be written as text. -/
def number? (node : Node) (key : String) : Option Double :=
  (node.value? key).bind Json.Value.numeric?

/-- The lower-case id of the indicator that a node selects. -/
def indicatorId? (node : Node) : Option String :=
  ((node.text? "indicatorId").or (node.text? "indicator_id")).map Text.lower

end Node

inductive Comparison
  | greaterThan
  | lessThan
  | equalTo
  | notEqualTo
  | crossesAbove
  | crossesBelow
  deriving DecidableEq

namespace Comparison

def all : List Comparison :=
  [greaterThan, lessThan, equalTo, notEqualTo, crossesAbove, crossesBelow]

def name : Comparison → String
  | greaterThan => "greater_than"
  | lessThan => "less_than"
  | equalTo => "equal_to"
  | notEqualTo => "not_equal_to"
  | crossesAbove => "crosses_above"
  | crossesBelow => "crosses_below"

def ofName? (text : String) : Option Comparison :=
  all.find? fun comparison => comparison.name == text

end Comparison

inductive OrderType
  | market
  | limit
  | stop
  deriving DecidableEq

namespace OrderType

def all : List OrderType := [market, limit, stop]

def name : OrderType → String
  | market => "market"
  | limit => "limit"
  | stop => "stop"

/-- The order type with this name in any case, with white space around it. -/
def ofName? (text : String) : Option OrderType :=
  all.find? fun orderType => orderType.name == Text.lower (Text.trim text)

end OrderType

inductive Operation
  | add
  | subtract
  | multiply
  | divide
  | min
  | max
  | abs
  deriving DecidableEq

namespace Operation

def all : List Operation := [add, subtract, multiply, divide, min, max, abs]

def name : Operation → String
  | add => "add"
  | subtract => "subtract"
  | multiply => "multiply"
  | divide => "divide"
  | min => "min"
  | max => "max"
  | abs => "abs"

/-- The operation with this name in any case, with white space around it. -/
def ofName? (text : String) : Option Operation :=
  all.find? fun operation => operation.name == Text.lower (Text.trim text)

end Operation

/-- Whether an action, or a condition in front of it, opens or closes positions. -/
inductive Role
  | entry
  | exit
  deriving DecidableEq

namespace Role

def name : Role → String
  | entry => "entry"
  | exit => "exit"

def ofConfig? (node : Node) : Option Role :=
  (node.text? "role").bind fun text =>
    if Text.lower text == "entry" then some entry
    else if Text.lower text == "exit" then some exit
    else none

/-- The role that a label suggests by the words in it, in any case.  Words that open a position are
looked for first.  No letter beyond ASCII has a lower case that could complete one of the words. -/
def ofLabel? (label : String) : Option Role :=
  let text := Text.lower label
  if Text.contains text "buy" || Text.contains text "entry" then some entry
  else if Text.contains text "sell" || Text.contains text "exit" || Text.contains text "close" then
    some exit
  else none

/-- The role of a node: the stated one, else the one its label suggests. -/
def of? (node : Node) : Option Role :=
  (ofConfig? node).or (ofLabel? node.label)

end Role

/-- The percentages of a risk node at which a position is closed. -/
structure Levels where
  stopLoss : Option Double
  takeProfit : Option Double

namespace Levels

/-- The usable percentages: a loss lies strictly between 0 and 100, a profit above 0. -/
def of (node : Node) : Levels where
  stopLoss := (node.number? "stopLoss").filter fun percent =>
    (Double.ofInt 0).lt percent && percent.lt (Double.ofInt 100)
  takeProfit := (node.number? "takeProfit").filter fun percent => (Double.ofInt 0).lt percent

def isEmpty (levels : Levels) : Bool :=
  levels.stopLoss.isNone && levels.takeProfit.isNone

end Levels

/-- The order size that an action states, if it is positive. -/
def orderQuantity? (node : Node) : Option Double :=
  (node.number? "quantity").filter fun quantity => (Double.ofInt 0).lt quantity

def defaultQuantity : Double := Double.ofInt 1

/-- The trading session of a timing node that states none. -/
def defaultSession : String := "0930-1600"

end StrategyCompiler.Graph
