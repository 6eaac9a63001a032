import StrategyCompiler.Json.Value
import StrategyCompiler.Text.Trim
/-!
Numbers in values that come from forms, where a number may also be written as text.
-/

set_option autoImplicit false

namespace StrategyCompiler.Json.Value

open Number (Double)

/-- The number that a value denotes, or that its text denotes when it is a string. -/
def denoted? : Value → Option Double
  | integer i => some (Double.ofInt i)
  | float d => some d
  | string s => Double.ofText? (Text.trim s)
  | _ => none

def numeric? (value : Value) : Option Double :=
  value.denoted?.filter Double.isFinite

end StrategyCompiler.Json.Value
