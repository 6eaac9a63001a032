import StrategyCompiler.Json.Tree
/-!
Reading JSON text into a tree.  Reading never fails: where the text stops being JSON the tree says
so and nothing more is read.
-/

set_option autoImplicit false

namespace StrategyCompiler.Json

open Number (Double digitsValue)

/-- Drop the blanks that JSON allows between its tokens. -/
def skipBlanks (cs : List Char) : List Char :=
  cs.dropWhile fun c => c == ' ' || c == '\n' || c == '\t' || c == '\r'

/-- One mark of a string: a character, or a 16-bit unit that was written as an escape. -/
inductive Mark
  | char (c : Char)
  | unit (n : Nat)
  deriving DecidableEq

def hexValue? (c : Char) : Option Nat :=
  if c.isDigit then some (c.toNat - 48)
  else if 'a' ≤ c && c ≤ 'f' then some (c.toNat - 87)
  else if 'A' ≤ c && c ≤ 'F' then some (c.toNat - 55)
  else none

def unit? (a b c d : Char) : Option Nat := do
  return ((← hexValue? a) * 16 + (← hexValue? b)) * 256 + (← hexValue? c) * 16 + (← hexValue? d)

def escaped? (c : Char) : Option Char :=
  if c == '"' || c == '\\' || c == '/' then some c
  else if c == 'b' then some (Char.ofNat 8)
  else if c == 'f' then some (Char.ofNat 12)
  else if c == 'n' then some '\n'
  else if c == 'r' then some '\r'
  else if c == 't' then some '\t'
  else none

/-- What ends a string: its closing quote with what follows it, the end of the text, a backslash
that starts no escape, an escaped unit without four hexadecimal digits, or a control character. -/
inductive StringEnding
  | closed (rest : List Char)
  | cut
  | badEscape
  | badUnit
  | control

namespace StringEnding

/-- The break in a string that does not end with its quote. -/
def cause? : StringEnding → Option Break
  | closed _ => none
  | cut => some .endInString
  | badEscape | badUnit => some .invalidEscape
  | control => some .controlCharacter

/-- The break where the second half of a surrogate pair is due. -/
def insteadOfHalf : StringEnding → Break
  | cut => .endInString
  | badUnit => .invalidEscape
  | closed _ | badEscape | control => .unfinishedSurrogate

def rest? : StringEnding → Option (List Char)
  | closed rest => some rest
  | cut | badEscape | badUnit | control => none

end StringEnding

/-- Put a mark in front of the marks of the rest of a string. -/
def withMark (mark : Mark) (marks : List Mark × StringEnding) : List Mark × StringEnding :=
  (mark :: marks.1, marks.2)

/-- Read the marks of a string up to what ends it.  The digits of a unit are cut off when fewer than
four bytes are left for them. -/
def readMarks : List Char → List Mark × StringEnding
  | [] => ([], .cut)
  | '"' :: rest => ([], .closed rest)
  | '\\' :: 'u' :: a :: b :: c :: d :: rest =>
    match unit? a b c d with
    | some n => withMark (.unit n) (readMarks rest)
    | none => ([], .badUnit)
  | '\\' :: c :: rest =>
    if c == 'u' then ([], if (String.ofList rest).utf8ByteSize < 4 then .cut else .badUnit)
    else
      match escaped? c with
      | some e => withMark (.char e) (readMarks rest)
      | none => ([], .badEscape)
  | c :: rest =>
    if c == '\\' then ([], .cut)
    else if c.toNat < 32 then ([], .control)
    else withMark (.char c) (readMarks rest)

/-- Whether a unit is the first half of a surrogate pair. -/
def isHighSurrogate (n : Nat) : Bool := 0xD800 ≤ n && n < 0xDC00

/-- Whether a unit is the second half of a surrogate pair. -/
def isLowSurrogate (n : Nat) : Bool := 0xDC00 ≤ n && n < 0xE000

/-- The characters of the marks of a string, where the halves of surrogate pairs are joined.  The
first mistake from the left counts, be it half of a pair or what ends the string. -/
def joinMarks (ending : StringEnding) : List Mark → Except Break (List Char)
  | [] =>
    match ending.cause? with
    | none => .ok []
    | some cause => .error cause
  | .char c :: rest => (joinMarks ending rest).map (c :: ·)
  | .unit n :: rest =>
    if isLowSurrogate n then .error .loneSurrogate
    else if isHighSurrogate n then
      match rest with
      | [] => .error ending.insteadOfHalf
      | .char _ :: _ => .error .unfinishedSurrogate
      | .unit m :: rest =>
        if isLowSurrogate m then
          (joinMarks ending rest).map
            (Char.ofNat (0x10000 + (n - 0xD800) * 0x400 + (m - 0xDC00)) :: ·)
        else .error .loneSurrogate
    else (joinMarks ending rest).map (Char.ofNat n :: ·)

/-- Read a string after its opening quote, and what follows it.  Passed over, only its form
counts. -/
def readString (cs : List Char) : Except Flaw String × Option (List Char) :=
  let (marks, ending) := readMarks cs
  let text :=
    match joinMarks ending marks with
    | .ok chars => .ok (String.ofList chars)
    | .error cause => .error ⟨cause, ending.cause?⟩
  (text, ending.rest?)

/-- The value of a whole number: an integer within 64 bits, else a double.  The negative zero is a
double. -/
def wholeTree (negative : Bool) (n : Nat) : Tree :=
  if negative then
    if n == 0 || (-n : Int) < Double.leastInt64 then .float ((Double.ofInt n).neg)
    else .integer (-n)
  else if n < Number.powerOfTwo 64 then .integer n
  else .float (Double.ofInt n)

/-- A double as a tree.  A number beyond all doubles has a form but no value. -/
def floatTree (d : Double) : Tree :=
  if d.isFinite then .float d else .flawedScalar ⟨.numberOutOfRange, none⟩

/-- The flaw of a number at a place where a digit is due.  Passed over, a number is not known to be
cut off. -/
def digitDue : List Char → Flaw
  | [] => ⟨.endInValue, some .invalidNumber⟩
  | _ => ⟨.invalidNumber, some .invalidNumber⟩

/-- Read the power of ten of a number after its letter: an optional sign and at least one digit. -/
def readPower (cs : List Char) : Except Flaw (Int × List Char) :=
  let (negative, after) := Number.takeSign cs
  let digits := after.takeWhile Char.isDigit
  if digits.isEmpty then .error (digitDue after)
  else
    let power : Int := digitsValue digits
    .ok (if negative then -power else power, after.dropWhile Char.isDigit)

/-- Read what follows the whole digits of a number: a fraction, a power of ten, both or neither. -/
def readFraction (negative : Bool) (whole : List Char) (cs : List Char) :
    Except Flaw (Tree × List Char) := do
  let (fraction, rest) ←
    match cs with
    | '.' :: after =>
      let digits := after.takeWhile Char.isDigit
      if digits.isEmpty then .error (digitDue after)
      else .ok (digits, after.dropWhile Char.isDigit)
    | _ => .ok ([], cs)
  let scaled (power : Int) : Tree :=
    floatTree (Double.ofDecimal negative (digitsValue (whole ++ fraction))
      (power - fraction.length))
  match rest with
  | e :: after =>
    if e == 'e' || e == 'E' then
      let (power, rest) ← readPower after
      return (scaled power, rest)
    else if fraction.isEmpty then return (wholeTree negative (digitsValue whole), rest)
    else return (scaled 0, rest)
  | [] =>
    if fraction.isEmpty then return (wholeTree negative (digitsValue whole), [])
    else return (scaled 0, [])

/-- Read a number after its sign.  Only the number zero starts with the digit zero. -/
def readNumber (negative : Bool) (cs : List Char) : Except Flaw (Tree × List Char) :=
  let whole := cs.takeWhile Char.isDigit
  if whole.isEmpty then .error (digitDue cs)
  else if whole.length ≠ 1 && whole.head? == some '0' then
    .error ⟨.invalidNumber, some .invalidNumber⟩
  else readFraction negative whole (cs.dropWhile Char.isDigit)

def readWord (word : List Char) (tree : Tree) (cs : List Char) : Except Flaw (Tree × List Char) :=
  if word.isPrefixOf cs then .ok (tree, cs.drop word.length)
  else if cs.isPrefixOf word then .error ⟨.endInValue, some .endInValue⟩
  else .error ⟨.wordExpected, some .wordExpected⟩

/-- A number or word with what follows it, where reading may have stopped. -/
def settle : Except Flaw (Tree × List Char) → Tree × Option (List Char)
  | .ok (tree, rest) => (tree, some rest)
  | .error flaw => (.flawedScalar flaw, none)

/-- The items of an array with its ending, and what follows a closed array. -/
structure Items where
  items : List Tree
  ending : ListEnding
  rest : Option (List Char)

/-- The fields of an object with its ending, and what follows a closed object. -/
structure Entries where
  fields : List (Except Flaw String × Except Break Tree)
  ending : ObjectEnding
  rest : Option (List Char)

mutual

/-- Read a value.  What follows it is none when the text breaks inside of it. -/
def readTree : Nat → List Char → Tree × Option (List Char)
  | 0, _ => (.absent .nestedTooDeep, none)
  | fuel + 1, cs =>
    match skipBlanks cs with
    | [] => (.absent .endInValue, none)
    | 'n' :: rest => settle (readWord "ull".toList .null rest)
    | 't' :: rest => settle (readWord "rue".toList (.bool true) rest)
    | 'f' :: rest => settle (readWord "alse".toList (.bool false) rest)
    | '-' :: rest => settle (readNumber true rest)
    | '"' :: rest =>
      match readString rest with
      | (.ok text, after) => (.string text, after)
      | (.error flaw, after) => (.flawedString flaw, after)
    | '[' :: rest =>
      match skipBlanks rest with
      | [] => (.array [] .cut, none)
      | ']' :: after => (.array [] .closed, some after)
      | after =>
        let list := readItems fuel after
        (.array list.items list.ending, list.rest)
    | '{' :: rest =>
      match skipBlanks rest with
      | [] => (.object [] .cut, none)
      | '}' :: after => (.object [] .closed, some after)
      | after =>
        let entries := readEntries fuel after
        (.object entries.fields entries.ending, entries.rest)
    | c :: rest =>
      if c.isDigit then settle (readNumber false (c :: rest)) else (.absent .valueExpected, none)

/-- Read the items of an array from where an item is due. -/
def readItems : Nat → List Char → Items
  | 0, _ => ⟨[.absent .nestedTooDeep], .cut, none⟩
  | fuel + 1, cs =>
    match readTree fuel cs with
    | (item, none) => ⟨[item], .cut, none⟩
    | (item, some rest) =>
      match skipBlanks rest with
      | [] => ⟨[item], .cut, none⟩
      | ']' :: after => ⟨[item], .closed, some after⟩
      | ',' :: after =>
        match skipBlanks after with
        | [] => ⟨[item], .cutAfterComma, none⟩
        | ']' :: _ => ⟨[item], .closedAfterComma, none⟩
        | after =>
          let more := readItems fuel after
          { more with items := item :: more.items }
      | _ => ⟨[item], .unseparated, none⟩

/-- Read the fields of an object from where a key is due. -/
def readEntries : Nat → List Char → Entries
  | 0, _ => ⟨[(.error ⟨.nestedTooDeep, some .nestedTooDeep⟩, .error .nestedTooDeep)], .cut, none⟩
  | fuel + 1, '"' :: rest =>
    match readString rest with
    | (key, none) => ⟨[(key, .error .endInObject)], .cut, none⟩
    | (key, some after) =>
      match skipBlanks after with
      | [] => ⟨[(key, .error .endInObject)], .cut, none⟩
      | ':' :: after =>
        match readTree fuel after with
        | (value, none) => ⟨[(key, .ok value)], .cut, none⟩
        | (value, some rest) =>
          match skipBlanks rest with
          | [] => ⟨[(key, .ok value)], .cut, none⟩
          | '}' :: after => ⟨[(key, .ok value)], .closed, some after⟩
          | ',' :: after =>
            match skipBlanks after with
            | [] => ⟨[(key, .ok value)], .cutAfterComma, none⟩
            | '}' :: _ => ⟨[(key, .ok value)], .closedAfterComma, none⟩
            | after =>
              let more := readEntries fuel after
              { more with fields := (key, .ok value) :: more.fields }
          | _ => ⟨[(key, .ok value)], .unseparated, none⟩
      | _ => ⟨[(key, .error .colonExpected)], .cut, none⟩
  | _ + 1, _ => ⟨[], .keyless, none⟩

end

/-- A whole text: its tree, and whether anything but blanks follows it. -/
structure Reading where
  tree : Tree
  trailing : Bool

/-- Read a whole text.  Every second step of the reading takes a character off the text, which
bounds their number. -/
def Reading.ofText (text : String) : Reading :=
  let cs := text.toList
  let (tree, rest) := readTree (2 * cs.length + 2) cs
  ⟨tree, !(skipBlanks (rest.getD [])).isEmpty⟩

end StrategyCompiler.Json
