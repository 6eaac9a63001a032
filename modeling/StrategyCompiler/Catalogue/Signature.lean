import StrategyCompiler.Catalogue.Parameter
/-!
Signatures: what the compiler knows about an indicator or an operator.
-/

set_option autoImplicit false

namespace StrategyCompiler.Catalogue

open Number (Double)

/-- The group that a function belongs to.  Operators compare two series. -/
inductive Category
  | movingAverage
  | oscillator
  | volatility
  | trend
  | volume
  | operator
  deriving DecidableEq

namespace Category

def all : List Category := [movingAverage, oscillator, volatility, trend, volume, operator]

def name : Category → String
  | movingAverage => "moving_average"
  | oscillator => "oscillator"
  | volatility => "volatility"
  | trend => "trend"
  | volume => "volume"
  | operator => "operator"

end Category

/-- What a function yields: one series, or several with names of their own. -/
inductive Outputs
  | single
  | tuple (names : List String)
  deriving DecidableEq

namespace Outputs

def names : Outputs → List String
  | single => []
  | tuple names => names

def count : Outputs → Nat
  | single => 1
  | tuple names => names.length

def isTuple : Outputs → Bool
  | single => false
  | tuple _ => true

end Outputs

/-- How a function is written: as a call, or as one template for each output.  In a template a
parameter stands for its argument and `out:` with a name for the variable of an output. -/
inductive Form
  | call (function : String)
  | templates (texts : List String)
  deriving DecidableEq

structure ReferenceLine where
  level : Double
  title : String
  color : String
  deriving DecidableEq

structure Plot where
  hidden : Bool := false
  referenceLines : List ReferenceLine := []
  columns : List String := []
  deriving DecidableEq

namespace Plot

def withReference (plot : Plot) (level : Double) (title color : String) : Plot :=
  { plot with referenceLines := plot.referenceLines ++ [⟨level, title, color⟩] }

def withColumns (plot : Plot) (output : String) : Plot :=
  { plot with columns := plot.columns ++ [output] }

def oscillator (upper lower : Double) : Plot :=
  (({} : Plot).withReference upper "Overbought" "color.red").withReference lower "Oversold"
    "color.green"

def unseen : Plot := { hidden := true }

end Plot

/-- What the compiler knows about a function.  The rule, if there is one, looks at all values
together and answers with a complaint about them. -/
structure Signature where
  name : String
  description : String := ""
  category : Category
  parameters : List Parameter := []
  outputs : Outputs := .single
  form : Form
  plot : Plot := {}
  rule : Option (Settings → Option String) := none

namespace Signature

/-- A signature without parameters, known by its name in lower case. -/
def ofForm (name : String) (category : Category) (form : Form) : Signature where
  name := Text.lower name
  category
  form

def ofCall (name : String) (category : Category) (function : String) : Signature :=
  ofForm name category (.call function)

def parameter? (signature : Signature) (name : String) : Option Parameter :=
  signature.parameters.find? fun parameter => parameter.name == name

def complaint? (signature : Signature) (settings : Settings) : Option String :=
  signature.rule.bind fun rule => rule settings

/-- The call with these arguments, for a function that is written as one. -/
def renderCall? (signature : Signature) (arguments : List String) : Option String :=
  match signature.form with
  | .call function => some (function ++ "(" ++ ", ".intercalate arguments ++ ")")
  | .templates _ => none

end Signature

end StrategyCompiler.Catalogue
