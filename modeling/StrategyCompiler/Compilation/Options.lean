import StrategyCompiler.Json.Decode
import StrategyCompiler.Script.Layout
import StrategyCompiler.Script.Statement
/-!
The options of a compilation, and the declaration that they are written into.
-/

set_option autoImplicit false

namespace StrategyCompiler.Compilation

open Json (Fault Reader)
open Json.Reader (defaulted)
open Number (Double)
open Script (Argument Call Expr Step)

inductive QuantityType
  | fixed
  | cash
  | percentOfEquity
  deriving DecidableEq

namespace QuantityType

def all : List QuantityType := [fixed, cash, percentOfEquity]

def name : QuantityType → String
  | fixed => "fixed"
  | cash => "cash"
  | percentOfEquity => "percent_of_equity"

/-- The constant of the script language for a quantity type. -/
def constant (quantityType : QuantityType) : String := "strategy." ++ quantityType.name

def reader : Reader QuantityType :=
  Reader.case (all.map fun quantityType => (quantityType.name, quantityType))

end QuantityType

structure Options where
  strategyName : String := "Generated Strategy"
  version : Nat := 5
  overlay : Bool := true
  initialCapital : Double := Double.ofInt 10000
  quantityType : QuantityType := .fixed
  quantityValue : Double := Double.ofInt 1
  deriving DecidableEq

namespace Options

def reader : Reader Options :=
  Reader.record "CompilerOptions"
    [ defaulted ["strategyName"] Reader.string
        fun options strategyName => { options with strategyName },
      defaulted ["version"] Reader.byte fun options version => { options with version },
      defaulted ["overlay"] Reader.bool fun options overlay => { options with overlay },
      defaulted ["initialCapital"] Reader.float
        fun options initialCapital => { options with initialCapital },
      defaulted ["defaultQtyType"] QuantityType.reader
        fun options quantityType => { options with quantityType },
      defaulted ["defaultQtyValue"] Reader.float
        fun options quantityValue => { options with quantityValue } ]
    {}

def ofText (text : String) : Except Fault Options := Reader.ofText reader text

def declaration (options : Options) : Call where
  function := "strategy"
  arguments :=
    [ Argument.expr (.string options.strategyName),
      Argument.named "overlay" (.bool options.overlay),
      Argument.named "initial_capital" (.number options.initialCapital),
      Argument.named "default_qty_type" (.name options.quantityType.constant),
      Argument.named "default_qty_value" (.number options.quantityValue) ]

/-- The first two lines of a script: the version and the declaration. -/
def header (options : Options) : List Step :=
  [ .line ("//@version=" ++ toString options.version),
    .line options.declaration.render ]

end Options

end StrategyCompiler.Compilation
