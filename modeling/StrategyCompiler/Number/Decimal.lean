import StrategyCompiler.Number.Double
/-!
Reading decimal text.  A numeral is a whole number of digits times a power of ten; it is read
exactly and rounded once.
-/

set_option autoImplicit false

namespace StrategyCompiler.Number

def digitsValue (digits : List Char) : Nat :=
  digits.foldl (fun value c => 10 * value + (c.toNat - 48)) 0

def digitCount (n : Nat) : Nat := (Nat.toDigits 10 n).length

def powerOfTen (exponent : Nat) : Nat := Nat.pow 10 exponent

/-- The double nearest to `digits * 10 ^ exponent`.  A number of at least `10 ^ 310` is beyond all
doubles and one below `10 ^ (-330)` is nearer to zero than to any other, so that no power of ten is
computed for them. -/
def Double.ofDecimal (negative : Bool) (digits : Nat) (exponent : Int) : Double :=
  if digits == 0 then Double.zero negative
  else if exponent + digitCount digits > 310 then Double.infinite negative
  else if exponent + digitCount digits < -330 then Double.zero negative
  else
    Double.round negative (digits * powerOfTen exponent.toNat * one)
      (powerOfTen (-exponent).toNat)

/-- Take a sign off the front of a text; a text without one is positive. -/
def takeSign : List Char → Bool × List Char
  | '-' :: rest => (true, rest)
  | '+' :: rest => (false, rest)
  | rest => (false, rest)

/-- Read a power of ten, which is empty or a letter `e`, an optional sign and digits up to the end
of the text. -/
def readExponent? : List Char → Option Int
  | [] => some 0
  | e :: rest =>
    let (negative, digits) := takeSign rest
    if (e == 'e' || e == 'E') && !digits.isEmpty && digits.all Char.isDigit then
      some (if negative then -(digitsValue digits : Int) else digitsValue digits)
    else none

/-- Read a numeral without its sign: digits with an optional point among or around them, at least
one digit in all, and an optional power of ten. -/
def readMagnitude? (negative : Bool) (text : List Char) : Option Double :=
  let whole := text.takeWhile Char.isDigit
  let (fraction, rest) :=
    match text.dropWhile Char.isDigit with
    | '.' :: after => (after.takeWhile Char.isDigit, after.dropWhile Char.isDigit)
    | after => ([], after)
  if whole.isEmpty && fraction.isEmpty then none
  else (readExponent? rest).map fun exponent =>
    Double.ofDecimal negative (digitsValue (whole ++ fraction)) (exponent - fraction.length)

/-- Read a number written by hand: an optional sign, then a numeral, or the words `inf`, `infinity`
or `nan` in any case. -/
def Double.ofText? (text : String) : Option Double :=
  let (negative, rest) := takeSign text.toList
  let word := rest.map Char.toLower
  if word == "inf".toList || word == "infinity".toList then some (Double.infinite negative)
  else if word == "nan".toList then some Double.nan
  else readMagnitude? negative rest

end StrategyCompiler.Number
