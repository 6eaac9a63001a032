import StrategyCompiler.Number.Text
import StrategyCompiler.Script.Literal
/-!
The values that the parameters of a function take, and sets of them by name.
-/

set_option autoImplicit false

namespace StrategyCompiler.Catalogue

open Number (Double)

/-- The type of a parameter.  A source is a price series or the output of another node. -/
inductive SettingType
  | int
  | float
  | bool
  | string
  | source
  deriving DecidableEq

namespace SettingType

def name : SettingType → String
  | int => "int"
  | float => "float"
  | bool => "bool"
  | string => "string"
  | source => "source"

/-- The function that declares an input of this type; sources have no input. -/
def inputFunction? : SettingType → Option String
  | int => some "input.int"
  | float => some "input.float"
  | bool => some "input.bool"
  | string => some "input.string"
  | source => none

/-- Whether calls read a parameter of this type from its input variable. -/
def passesByInput : SettingType → Bool
  | int | float | bool => true
  | string | source => false

def isNumeric : SettingType → Bool
  | int | float => true
  | _ => false

end SettingType

inductive Setting
  | int (value : Int)
  | float (value : Double)
  | bool (value : Bool)
  | string (value : String)
  | source (series : String)
  deriving DecidableEq

namespace Setting

def type : Setting → SettingType
  | int _ => .int
  | float _ => .float
  | bool _ => .bool
  | string _ => .string
  | source _ => .source

def number? : Setting → Option Double
  | int value => some (Double.ofInt value)
  | float value => some value
  | _ => none

def text? : Setting → Option String
  | string value => some value
  | source series => some series
  | _ => none

/-- A value as a literal of the script language; a source is written as it is. -/
def literal : Setting → String
  | int value => toString value
  | float value => value.literal
  | bool value => if value then "true" else "false"
  | string value => Script.literal value
  | source series => series

end Setting

/-- Values by name, in the order in which the names were first given. -/
structure Settings where
  entries : List (String × Setting) := []
  deriving DecidableEq

namespace Settings

/-- Give a name a value, in place of the one it has, or else behind all others. -/
def insertEntry (name : String) (value : Setting) :
    List (String × Setting) → List (String × Setting)
  | [] => [(name, value)]
  | entry :: rest =>
    if entry.1 == name then (name, value) :: rest else entry :: insertEntry name value rest

def insert (settings : Settings) (name : String) (value : Setting) : Settings :=
  ⟨insertEntry name value settings.entries⟩

def get? (settings : Settings) (name : String) : Option Setting :=
  (settings.entries.find? fun entry => entry.1 == name).map Prod.snd

def number? (settings : Settings) (name : String) : Option Double :=
  (settings.get? name).bind Setting.number?

def size (settings : Settings) : Nat := settings.entries.length

end Settings

end StrategyCompiler.Catalogue
