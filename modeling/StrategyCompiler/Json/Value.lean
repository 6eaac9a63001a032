import StrategyCompiler.Number.Text
/-!
JSON values and their written forms.  Whole numbers within 64 bits stay integers, all others are
doubles.  The fields of an object stand in the order of their keys, each key once, when the object
was built by `insert`; both printers write the fields as they stand.
-/

set_option autoImplicit false

namespace StrategyCompiler.Json

open Number (Double)

inductive Value
  | null
  | bool (value : Bool)
  | integer (value : Int)
  | float (value : Double)
  | string (value : String)
  | array (items : List Value)
  | object (fields : List (String × Value))

instance : Inhabited Value := ⟨.null⟩

abbrev Object := List (String × Value)

namespace Object

def get? (fields : Object) (key : String) : Option Value :=
  (fields.find? fun field => field.1 == key).map Prod.snd

/-- Give a key a value, in place of the one it has, or else at its place in the order of keys. -/
def insert (key : String) (value : Value) : Object → Object
  | [] => [(key, value)]
  | field :: rest =>
    if key < field.1 then (key, value) :: field :: rest
    else if key == field.1 then (key, value) :: rest
    else field :: insert key value rest

end Object

def hexDigits (n : Nat) : List Char := Nat.toDigits 16 n

/-- A character inside a JSON string.  Only quotes, backslashes and control characters are
escaped. -/
def escapeChar (c : Char) : List Char :=
  if c == '"' then ['\\', '"']
  else if c == '\\' then ['\\', '\\']
  else if c == '\n' then ['\\', 'n']
  else if c == '\r' then ['\\', 'r']
  else if c == '\t' then ['\\', 't']
  else if c.toNat == 8 then ['\\', 'b']
  else if c.toNat == 12 then ['\\', 'f']
  else if c.toNat < 16 then ['\\', 'u', '0', '0', '0'] ++ hexDigits c.toNat
  else if c.toNat < 32 then ['\\', 'u', '0', '0'] ++ hexDigits c.toNat
  else [c]

def quoted (s : String) : String :=
  String.ofList ('"' :: s.toList.flatMap escapeChar ++ ['"'])

namespace Value

def scalar : Value → String
  | bool b => if b then "true" else "false"
  | integer i => toString i
  | float d => d.json
  | string s => quoted s
  | _ => "null"

mutual

def compact : Value → String
  | array items => "[" ++ ",".intercalate (compactItems items) ++ "]"
  | object fields => "\x7b" ++ ",".intercalate (compactFields fields) ++ "\x7d"
  | null => "null"
  | bool b => scalar (bool b)
  | integer i => scalar (integer i)
  | float d => scalar (float d)
  | string s => scalar (string s)

def compactItems : List Value → List String
  | [] => []
  | item :: rest => compact item :: compactItems rest

def compactFields : List (String × Value) → List String
  | [] => []
  | (key, value) :: rest => (quoted key ++ ":" ++ compact value) :: compactFields rest

end

/-- A line end and the blanks of a nesting depth, two for each level. -/
def newLine (depth : Nat) : String :=
  String.ofList ('\n' :: List.replicate (2 * depth) ' ')

/-- Items between brackets, each on a line of its own; without items the brackets stand together. -/
def block (depth : Nat) (left right : String) (items : List String) : String :=
  if items.isEmpty then left ++ right
  else left ++ newLine (depth + 1) ++ ("," ++ newLine (depth + 1)).intercalate items ++
    newLine depth ++ right

mutual

/-- A value laid out over lines, as it stands inside `depth` brackets. -/
def prettyAt (depth : Nat) : Value → String
  | array items => block depth "[" "]" (prettyItems (depth + 1) items)
  | object fields => block depth "\x7b" "\x7d" (prettyFields (depth + 1) fields)
  | null => "null"
  | bool b => scalar (bool b)
  | integer i => scalar (integer i)
  | float d => scalar (float d)
  | string s => scalar (string s)

def prettyItems (depth : Nat) : List Value → List String
  | [] => []
  | item :: rest => prettyAt depth item :: prettyItems depth rest

def prettyFields (depth : Nat) : List (String × Value) → List String
  | [] => []
  | (key, value) :: rest =>
    (quoted key ++ ": " ++ prettyAt depth value) :: prettyFields depth rest

end

def pretty (value : Value) : String := prettyAt 0 value

def isNull : Value → Bool
  | null => true
  | _ => false

end Value

end StrategyCompiler.Json
