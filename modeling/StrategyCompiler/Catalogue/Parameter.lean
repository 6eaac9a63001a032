import StrategyCompiler.Catalogue.Setting
import StrategyCompiler.Json.Numeric
import StrategyCompiler.Script.Words
import StrategyCompiler.Text.Words
/-!
The parameters that a function declares, and how configured values are read for them.
-/

set_option autoImplicit false

namespace StrategyCompiler.Catalogue

open Number (Double)

/-- A declared parameter.  Its default need not be of its type. -/
structure Parameter where
  name : String
  title : String
  type : SettingType
  default : Setting
  required : Bool := false
  min : Option Double := none
  max : Option Double := none
  step : Option Double := none
  options : List String := []

/-- Why a configured value is not accepted for a parameter. -/
inductive Violation
  | wrongType (raw : Json.Value)
  | outOfRange (value : Double) (min max : Option Double)
  | notAnOption (value : String) (options : List String)

namespace Parameter

/-- An optional parameter of the type of its default, without bounds, whose title is made from its
name. -/
def ofDefault (name : String) (default : Setting) : Parameter where
  name
  title := Text.title name
  type := default.type
  default

def mandatory (parameter : Parameter) : Parameter :=
  { parameter with required := true }

def between (parameter : Parameter) (min max : Double) : Parameter :=
  { parameter with min := some min, max := some max }

def titled (parameter : Parameter) (title : String) : Parameter :=
  { parameter with title }

def stepping (parameter : Parameter) (step : Double) : Parameter :=
  { parameter with step := some step }

/-- What the name of the parameter's input variable ends in. -/
def inputSuffix (parameter : Parameter) : String := Text.snake parameter.name

/-- The configured value of a parameter, found under its name or else under its name in snake case,
unless it is null. -/
def configured? (parameter : Parameter) (config : Json.Object) : Option Json.Value :=
  ((Json.Object.get? config parameter.name).or
    (Json.Object.get? config parameter.inputSuffix)).filter fun value => !value.isNull

/-- The truth value that a text stands for, in any case. -/
def truth? (text : String) : Option Bool :=
  if Text.lower text == "true" then some true
  else if Text.lower text == "false" then some false
  else none

/-- Read a configured value as one of the parameter's type, without regard to bounds. -/
def convert (parameter : Parameter) (raw : Json.Value) : Except Violation Setting :=
  match parameter.type, raw with
  | .int, raw =>
    match raw.numeric? with
    | some number => if number.isWhole then .ok (.int number.toInt64) else .error (.wrongType raw)
    | none => .error (.wrongType raw)
  | .float, raw =>
    match raw.numeric? with
    | some number => .ok (.float number)
    | none => .error (.wrongType raw)
  | .bool, .bool value => .ok (.bool value)
  | .bool, .string text =>
    match truth? text with
    | some value => .ok (.bool value)
    | none => .error (.wrongType raw)
  | .string, .string text => .ok (.string text)
  | .source, .string text =>
    let series := Text.lower (Text.trim text)
    if Script.priceSeries.contains series then .ok (.source series)
    else .error (.notAnOption text Script.priceSeries)
  | _, raw => .error (.wrongType raw)

/-- Whether a number lies within the bounds that are given. -/
def allows (parameter : Parameter) (number : Double) : Bool :=
  !(parameter.min.any fun min => number.lt min) && !(parameter.max.any fun max => max.lt number)

/-- Check a value against the bounds and options of a parameter. -/
def check (parameter : Parameter) (value : Setting) : Except Violation Unit :=
  match value with
  | .int _ | .float _ =>
    match value.number? with
    | some number =>
      if parameter.allows number then .ok ()
      else .error (.outOfRange number parameter.min parameter.max)
    | none => .ok ()
  | .string text =>
    if parameter.options.isEmpty || parameter.options.contains text then .ok ()
    else .error (.notAnOption text parameter.options)
  | .bool _ | .source _ => .ok ()

/-- The value of the parameter that a configured value stands for. -/
def coerce (parameter : Parameter) (raw : Json.Value) : Except Violation Setting := do
  let value ← parameter.convert raw
  parameter.check value
  return value

end Parameter

def boundsText : Option Double → Option Double → String
  | some min, some max => "[" ++ min.plain ++ ", " ++ max.plain ++ "]"
  | some min, none => "[" ++ min.plain ++ ", ∞)"
  | none, some max => "(-∞, " ++ max.plain ++ "]"
  | none, none => "(-∞, ∞)"

/-- A configured value as shown in a message: a text as it is, any other value as JSON. -/
def shownValue : Json.Value → String
  | .string text => text
  | value => value.compact

end StrategyCompiler.Catalogue
