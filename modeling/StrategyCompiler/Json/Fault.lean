import StrategyCompiler.Json.Tree
import StrategyCompiler.Text.Shown
/-!
Why a JSON value cannot be read as a value of the domain, and the words for it.
-/

set_option autoImplicit false

namespace StrategyCompiler.Json

open Number (Double)

inductive Found
  | null
  | bool (value : Bool)
  | integer (value : Int)
  | float (value : Double)
  | string (value : String)
  | sequence
  | map

def Found.words : Found → String
  | null => "null"
  | bool value => "boolean `" ++ (if value then "true" else "false") ++ "`"
  | integer value => "integer `" ++ toString value ++ "`"
  | float value => "floating point `" ++ value.json ++ "`"
  | string value => "string " ++ Text.shown value
  | sequence => "sequence"
  | map => "map"

inductive Due
  | text
  | boolean
  | float
  | byte
  | sequence
  | map
  | nothing
  | record (name : String)
  | recordOf (name : String) (fields : Nat)
  | fewerItems
  | variant
  | oneField
  deriving DecidableEq

def Due.words : Due → String
  | text => "a string"
  | boolean => "a boolean"
  | float => "f64"
  | byte => "u8"
  | sequence => "a sequence"
  | map => "a map"
  | nothing => "unit"
  | record name => "struct " ++ name
  | recordOf name fields => "struct " ++ name ++ " with " ++ toString fields ++ " elements"
  | fewerItems => "fewer elements in array"
  | variant => "string or map"
  | oneField => "map with a single key"

/-- Why a value cannot be read.  A malformed text is told from a readable one of the wrong shape. -/
inductive Fault
  | malformed (cause : Break)
  | wrongType (found : Found) (due : Due)
  | wrongValue (found : Found) (due : Due)
  | wrongLength (length : Nat) (due : Due)
  | missingField (name : String)
  | repeatedField (name : String)
  | unknownVariant (name : String) (known : List String)

namespace Fault

/-- Whether the text itself is at fault, and not the shape of the value. -/
def isMalformed : Fault → Bool
  | malformed _ => true
  | _ => false

def message : Fault → String
  | malformed cause => cause.message
  | wrongType found due => "invalid type: " ++ found.words ++ ", expected " ++ due.words
  | wrongValue found due => "invalid value: " ++ found.words ++ ", expected " ++ due.words
  | wrongLength length due =>
    "invalid length " ++ toString length ++ ", expected " ++ due.words
  | missingField name => "missing field `" ++ name ++ "`"
  | repeatedField name => "duplicate field `" ++ name ++ "`"
  | unknownVariant name known =>
    "unknown variant `" ++ name ++ "`, expected one of " ++
      ", ".intercalate (known.map fun word => "`" ++ word ++ "`")

end Fault

end StrategyCompiler.Json
