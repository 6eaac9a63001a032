import StrategyCompiler.Json.Fault
import StrategyCompiler.Json.Reader
/-!
Reading trees as values of the domain.  Readers go from left to right and stop at the first fault,
so that a wrong type wins over a break in the text behind it, and a field that is missing is noticed
at the end of its object.
-/

set_option autoImplicit false

namespace StrategyCompiler.Json

open Number (Double)

/-- Where a tree comes from.  Text may only be nested to a limited depth. -/
inductive Origin
  | text (levels : Nat)
  | value
  deriving DecidableEq

/-- The outermost place of a text, where 127 levels of nesting are left. -/
def Origin.wholeText : Origin := text 127

def Origin.enter : Origin → Except Fault Origin
  | text 0 => .error (.malformed .nestedTooDeep)
  | text (levels + 1) => .ok (text levels)
  | value => .ok value

abbrev Reader (α : Type) := Origin → Tree → Except Fault α

namespace Reader

/-- The fault of a tree of another type than the one that is due. -/
def mismatch {α : Type} (due : Due) : Tree → Except Fault α
  | .null => .error (.wrongType .null due)
  | .bool value => .error (.wrongType (.bool value) due)
  | .integer value => .error (.wrongType (.integer value) due)
  | .float value => .error (.wrongType (.float value) due)
  | .string value => .error (.wrongType (.string value) due)
  | .array _ _ => .error (.wrongType .sequence due)
  | .object _ _ => .error (.wrongType .map due)
  | .flawedScalar flaw | .flawedString flaw => .error (.malformed flaw.whenRead)
  | .absent cause => .error (.malformed cause)

def unbroken : Option Break → Except Fault Unit
  | none => .ok ()
  | some cause => .error (.malformed cause)

def string : Reader String := fun _ tree =>
  match tree with
  | .string value => .ok value
  | tree => mismatch .text tree

def bool : Reader Bool := fun _ tree =>
  match tree with
  | .bool value => .ok value
  | tree => mismatch .boolean tree

def float : Reader Double := fun _ tree =>
  match tree with
  | .integer value => .ok (Double.ofInt value)
  | .float value => .ok value
  | tree => mismatch .float tree

def byte : Reader Nat := fun _ tree =>
  match tree with
  | .integer value =>
    if 0 ≤ value ∧ value ≤ 255 then .ok value.toNat
    else .error (.wrongValue (.integer value) .byte)
  | tree => mismatch .byte tree

def optional {α : Type} (read : Reader α) : Reader (Option α) := fun origin tree =>
  match tree with
  | .null => .ok none
  | tree => (read origin tree).map some

def list {α : Type} (read : Reader α) : Reader (List α) := fun origin tree =>
  match tree with
  | .array items ending => do
    let inner ← origin.enter
    let values ← items.mapM (read inner)
    unbroken ending.whenRead
    return values
  | tree => mismatch .sequence tree

mutual

/-- Read any value.  Of fields with the same key the last one counts. -/
def any : Origin → Tree → Except Fault Value
  | _, .null => .ok .null
  | _, .bool value => .ok (.bool value)
  | _, .integer value => .ok (.integer value)
  | _, .float value => .ok (.float value)
  | _, .string value => .ok (.string value)
  | _, .flawedScalar flaw => .error (.malformed flaw.whenRead)
  | _, .flawedString flaw => .error (.malformed flaw.whenRead)
  | _, .absent cause => .error (.malformed cause)
  | origin, .array items ending => do
    let inner ← origin.enter
    let values ← anyItems inner items
    unbroken ending.whenRead
    return .array values
  | origin, .object fields ending => do
    let inner ← origin.enter
    let values ← anyFields inner [] fields
    unbroken ending.whenRead
    return .object values

def anyItems : Origin → List Tree → Except Fault (List Value)
  | _, [] => .ok []
  | origin, item :: rest => do
    let value ← any origin item
    let values ← anyItems origin rest
    return value :: values

/-- Read the fields of an object as they are, in addition to those read before. -/
def anyFields :
    Origin → Object → List (Except Flaw String × Except Break Tree) → Except Fault Object
  | _, before, [] => .ok before
  | _, _, (.error flaw, _) :: _ => .error (.malformed flaw.whenRead)
  | _, _, (.ok _, .error cause) :: _ => .error (.malformed cause)
  | origin, before, (.ok key, .ok tree) :: rest => do
    let value ← any origin tree
    anyFields origin (Object.insert key value before) rest

end

def object : Reader Object := fun origin tree =>
  match tree with
  | .object fields ending => do
    let inner ← origin.enter
    let values ← anyFields inner [] fields
    unbroken ending.whenRead
    return values
  | tree => mismatch .map tree

/-- One field of a record of type `σ`: its names, of which the first is the main one, whether it
must be given, and how it is read into a record. -/
structure Field (σ : Type) where
  names : List String
  required : Bool
  read : Origin → Tree → σ → Except Fault σ

def Field.name {σ : Type} (field : Field σ) : String := field.names.headD ""

def required {σ α : Type} (names : List String) (read : Reader α) (set : σ → α → σ) : Field σ :=
  ⟨names, true, fun origin tree record => (read origin tree).map (set record)⟩

/-- A field that keeps its default when it is not given. -/
def defaulted {σ α : Type} (names : List String) (read : Reader α) (set : σ → α → σ) : Field σ :=
  ⟨names, false, fun origin tree record => (read origin tree).map (set record)⟩

/-- The fault of an array that goes on behind the last field of a record. -/
def surplus (origin : Origin) (total : Nat) (items : List Tree) (ending : ListEnding) :
    Except Fault Unit :=
  if items.isEmpty then unbroken ending.whenFull
  else
    match origin with
    | .text _ => .error (.malformed .trailingCharacters)
    | .value => .error (.wrongLength total .fewerItems)

/-- Read a record from the items of an array, which stand for its fields in order. -/
def positions {σ : Type} (origin : Origin) (due : Due) (total : Nat) (ending : ListEnding) :
    Nat → List (Field σ) → List Tree → σ → Except Fault σ
  | _, [], items, record => do
    surplus origin total items ending
    return record
  | index, field :: fields, [], record => do
    unbroken ending.whenRead
    if field.required then .error (.wrongLength index due)
    else positions origin due total ending (index + 1) fields [] record
  | index, field :: fields, item :: items, record => do
    let record ← field.read origin item record
    positions origin due total ending (index + 1) fields items record

/-- Read a record from the fields of an object.  Fields that the record does not know are skipped,
and a field may only be given once, which is noticed at its second key. -/
def entries {σ : Type} (origin : Origin) (fields : List (Field σ)) (ending : ObjectEnding) :
    List String → List (Except Flaw String × Except Break Tree) → σ → Except Fault σ
  | seen, [], record => do
    unbroken ending.whenRead
    match fields.find? fun field => field.required && !seen.contains field.name with
    | some field => .error (.missingField field.name)
    | none => return record
  | _, (.error flaw, _) :: _, _ => .error (.malformed flaw.whenRead)
  | seen, (.ok key, given) :: rest, record =>
    match fields.find? fun field => field.names.contains key with
    | some field =>
      if seen.contains field.name then .error (.repeatedField field.name)
      else
        match given with
        | .error cause => .error (.malformed cause)
        | .ok tree => do
          let record ← field.read origin tree record
          entries origin fields ending (field.name :: seen) rest record
    | none =>
      match given.bind Tree.skip with
      | .ok _ => entries origin fields ending seen rest record
      | .error cause => .error (.malformed cause)

/-- Read a record, given as an object or as an array of its fields, starting from its defaults. -/
def record {σ : Type} (name : String) (fields : List (Field σ)) (defaults : σ) : Reader σ :=
  fun origin tree =>
    match tree with
    | .array items ending => do
      let inner ← origin.enter
      positions inner (.recordOf name fields.length) items.length ending 0 fields items defaults
    | .object given ending => do
      let inner ← origin.enter
      entries inner fields ending [] given defaults
    | tree => mismatch (.record name) tree

def named {α : Type} (cases : List (String × α)) (name : String) : Except Fault α :=
  match cases.find? fun entry => entry.1 == name with
  | some (_, value) => .ok value
  | none => .error (.unknownVariant name (cases.map Prod.fst))

def noContent : Tree → Except Fault Unit
  | .null => .ok ()
  | tree => mismatch .nothing tree

/-- Read a case given as an object of one field: the case is the key. -/
def keyedCase {α : Type} (cases : List (String × α)) (origin : Origin)
    (fields : List (Except Flaw String × Except Break Tree)) (ending : ObjectEnding) :
    Except Fault α :=
  match origin with
  | .value =>
    match fields with
    | [(.ok key, .ok content)] => do
      let value ← named cases key
      noContent content
      return value
    | _ => .error (.wrongValue .map .oneField)
  | .text _ =>
    match fields with
    | [] => .error (.malformed ending.whenKeyDue)
    | (.error flaw, _) :: _ => .error (.malformed flaw.whenRead)
    | (.ok key, given) :: rest => do
      let value ← named cases key
      match given with
      | .error cause => .error (.malformed cause)
      | .ok content => do
        noContent content
        unbroken (if rest.isEmpty then ending.whenFull else some .valueExpected)
        return value

/-- Read a case of an enumeration, given by its name or as an object with the name as its only
key.  In a text nothing else counts as a value here. -/
def case {α : Type} (cases : List (String × α)) : Reader α := fun origin tree =>
  match tree with
  | .string name => named cases name
  | .object fields ending => do
    let inner ← origin.enter
    keyedCase cases inner fields ending
  | .flawedString flaw => .error (.malformed flaw.whenRead)
  | .absent cause => .error (.malformed cause)
  | tree =>
    match origin with
    | .value => mismatch .variant tree
    | .text _ => .error (.malformed .valueExpected)

/-- Read a whole text.  Nothing but blanks may follow the value. -/
def ofText {α : Type} (read : Reader α) (text : String) : Except Fault α := do
  let reading := Reading.ofText text
  let value ← read .wholeText reading.tree
  if reading.trailing then .error (.malformed .trailingCharacters) else return value

def ofValue {α : Type} (read : Reader α) (value : Value) : Except Fault α :=
  read .value (.ofValue value)

end Reader

/-- The value that a text holds, at any depth of nesting. -/
def Value.ofText? (text : String) : Option Value :=
  let reading := Reading.ofText text
  match Reader.any .value reading.tree with
  | .ok value => if reading.trailing then none else some value
  | .error _ => none

end StrategyCompiler.Json
