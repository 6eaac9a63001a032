import StrategyCompiler.Json.Value
/-!
What a JSON text holds, read from the left as far as it is well formed.  A tree keeps the fields of
an object in the order of the text, and the point where the text stops being JSON, so that a
mistake of shape can be told from a mistake of form that stands further to the right.  The tree only
says what stands at that point: which words it deserves depends on what a reader wants there.
-/

set_option autoImplicit false

namespace StrategyCompiler.Json

open Number (Double)

inductive Break
  | endInList
  | endInObject
  | endInString
  | endInValue
  | colonExpected
  | listSeparatorExpected
  | objectSeparatorExpected
  | wordExpected
  | valueExpected
  | invalidEscape
  | invalidNumber
  | numberOutOfRange
  | controlCharacter
  | keyExpected
  | loneSurrogate
  | unfinishedSurrogate
  | trailingComma
  | trailingCharacters
  | nestedTooDeep
  deriving DecidableEq

def Break.message : Break → String
  | endInList => "EOF while parsing a list"
  | endInObject => "EOF while parsing an object"
  | endInString => "EOF while parsing a string"
  | endInValue => "EOF while parsing a value"
  | colonExpected => "expected `:`"
  | listSeparatorExpected => "expected `,` or `]`"
  | objectSeparatorExpected => "expected `,` or `\x7d`"
  | wordExpected => "expected ident"
  | valueExpected => "expected value"
  | invalidEscape => "invalid escape"
  | invalidNumber => "invalid number"
  | numberOutOfRange => "number out of range"
  | controlCharacter => "control character (\\u0000-\\u001F) found while parsing a string"
  | keyExpected => "key must be a string"
  | loneSurrogate => "lone leading surrogate in hex escape"
  | unfinishedSurrogate => "unexpected end of hex escape"
  | trailingComma => "trailing comma"
  | trailingCharacters => "trailing characters"
  | nestedTooDeep => "recursion limit exceeded"

/-- Why a string, number or word has no value.  A reader that wants the value and one that passes
over it may see different breaks, and one that only has no value is passed over without a break. -/
structure Flaw where
  whenRead : Break
  whenSkipped : Option Break
  deriving DecidableEq

/-- What stands behind the last item of an array: its bracket, the end of the text, or something
else than a comma; a comma may precede the bracket and the end. -/
inductive ListEnding
  | closed
  | cut
  | unseparated
  | closedAfterComma
  | cutAfterComma
  deriving DecidableEq

namespace ListEnding

/-- The break for a reader that wants a further item or the bracket. -/
def whenRead : ListEnding → Option Break
  | closed => none
  | cut => some .endInList
  | unseparated => some .listSeparatorExpected
  | closedAfterComma => some .trailingComma
  | cutAfterComma => some .endInValue

def whenFull : ListEnding → Option Break
  | closed => none
  | cut => some .endInList
  | closedAfterComma => some .trailingComma
  | unseparated | cutAfterComma => some .trailingCharacters

/-- The break in an array that is passed over, where a comma promises a value. -/
def whenSkipped : ListEnding → Option Break
  | closed => none
  | cut => some .endInList
  | unseparated => some .listSeparatorExpected
  | closedAfterComma => some .valueExpected
  | cutAfterComma => some .endInValue

end ListEnding

/-- What stands behind the last field of an object: its brace, the end of the text, or something
else than a comma; a comma may precede the brace and the end.  An object is keyless when something
else than a string stands where a key is due. -/
inductive ObjectEnding
  | closed
  | cut
  | unseparated
  | closedAfterComma
  | cutAfterComma
  | keyless
  deriving DecidableEq

namespace ObjectEnding

/-- The break for a reader that wants a further field or the brace. -/
def whenRead : ObjectEnding → Option Break
  | closed => none
  | cut => some .endInObject
  | unseparated => some .objectSeparatorExpected
  | closedAfterComma => some .trailingComma
  | cutAfterComma => some .endInValue
  | keyless => some .keyExpected

/-- The break for a reader that wants a first key and no brace. -/
def whenKeyDue : ObjectEnding → Break
  | cut => .endInValue
  | keyless => .keyExpected
  | closed | unseparated | closedAfterComma | cutAfterComma => .valueExpected

def whenFull : ObjectEnding → Option Break
  | closed => none
  | cut => some .endInObject
  | unseparated | closedAfterComma | cutAfterComma | keyless => some .valueExpected

/-- The break in an object that is passed over, where a comma promises a key. -/
def whenSkipped : ObjectEnding → Option Break
  | closed => none
  | cut | cutAfterComma => some .endInObject
  | unseparated => some .objectSeparatorExpected
  | closedAfterComma | keyless => some .keyExpected

end ObjectEnding

/-- A JSON text, read as far as possible.  A value is absent where something that starts no value,
or nothing, stands in its place.  A field has a break instead of its value when no colon follows its
key.  Behind a part that breaks off nothing more is read, and the arrays and objects around it count
as cut. -/
inductive Tree
  | null
  | bool (value : Bool)
  | integer (value : Int)
  | float (value : Double)
  | string (value : String)
  | flawedScalar (flaw : Flaw)
  | flawedString (flaw : Flaw)
  | absent (cause : Break)
  | array (items : List Tree) (ending : ListEnding)
  | object (fields : List (Except Flaw String × Except Break Tree)) (ending : ObjectEnding)

namespace Tree

mutual

def ofValue : Value → Tree
  | .null => null
  | .bool b => bool b
  | .integer i => integer i
  | .float d => float d
  | .string s => string s
  | .array items => array (ofItems items) .closed
  | .object fields => object (ofFields fields) .closed

def ofItems : List Value → List Tree
  | [] => []
  | item :: rest => ofValue item :: ofItems rest

def ofFields : List (String × Value) → List (Except Flaw String × Except Break Tree)
  | [] => []
  | (key, value) :: rest => (.ok key, .ok (ofValue value)) :: ofFields rest

end

def failing : Option Break → Except Break Unit
  | none => .ok ()
  | some cause => .error cause

mutual

/-- Pass over a value that is not used; only its form counts, at any depth. -/
def skip : Tree → Except Break Unit
  | null | bool _ | integer _ | float _ | string _ => .ok ()
  | flawedScalar flaw | flawedString flaw => failing flaw.whenSkipped
  | absent cause => .error cause
  | array items ending => do
    skipItems items
    failing ending.whenSkipped
  | object fields ending => do
    skipFields fields
    failing ending.whenSkipped

def skipItems : List Tree → Except Break Unit
  | [] => .ok ()
  | item :: rest => do
    skip item
    skipItems rest

def skipFields : List (Except Flaw String × Except Break Tree) → Except Break Unit
  | [] => .ok ()
  | (.error ⟨_, some cause⟩, _) :: _ => .error cause
  | (_, .error cause) :: _ => .error cause
  | (_, .ok value) :: rest => do
    skip value
    skipFields rest

end

end Tree

end StrategyCompiler.Json
