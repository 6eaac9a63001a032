import StrategyCompiler.Number.Shortest
/-!
The written forms of doubles.  All of them show the shortest digits that read back as the number;
they differ in where the point stands, in whether a whole number keeps a fraction, and in when a
power of ten is written.
-/

set_option autoImplicit false

namespace StrategyCompiler.Number

def zeros (n : Nat) : List Char := List.replicate n '0'

/-- The digits of a numeral with the point among them, without any power of ten. -/
def Numeral.positional (n : Numeral) : List Char :=
  let digits := Nat.toDigits 10 n.digits
  let point := digits.length + n.exponent
  if 0 ≤ n.exponent then digits ++ zeros n.exponent.toNat
  else if 0 < point then digits.take point.toNat ++ '.' :: digits.drop point.toNat
  else '0' :: '.' :: zeros (-point).toNat ++ digits

/-- A numeral as a digit before the point, the others after it, and a power of ten with its
sign. -/
def Numeral.scientific (n : Numeral) : List Char :=
  let digits := Nat.toDigits 10 n.digits
  let power := digits.length + n.exponent - 1
  let fraction := if digits.length ≤ 1 then [] else '.' :: digits.drop 1
  let sign := if power < 0 then '-' else '+'
  digits.take 1 ++ fraction ++ 'e' :: sign :: Nat.toDigits 10 power.natAbs

namespace Double

/-- Put a minus sign before the text of a negative number. -/
def withSign (negative : Bool) (text : List Char) : String :=
  String.ofList (if negative then '-' :: text else text)

/-- The plain form: always positional, a whole number without a point. -/
def plain : Double → String
  | nan => "NaN"
  | infinite negative => withSign negative "inf".toList
  | finite negative units _ =>
    withSign negative (if units == 0 then ['0'] else (Numeral.shortest .upward units).positional)

/-- The form used in JSON: a fraction is always kept, and numbers outside of `10 ^ (-5)` to
`10 ^ 16` have a power of ten.  Numbers that are not finite have no form and become null. -/
def json : Double → String
  | finite negative units _ =>
    if units == 0 then withSign negative "0.0".toList
    else
      let n := Numeral.shortest .toEven units
      let point := digitCount n.digits + n.exponent
      if point ≤ -5 || 16 < point then withSign negative n.scientific
      else withSign negative (n.positional ++ if 0 ≤ n.exponent then ['.', '0'] else [])
  | _ => "null"

/-- Whether the number is whole and below `10 ^ 15` in size. -/
def isShortWhole (x : Double) : Bool :=
  x.isWhole && x.abs.lt (ofInt 1000000000000000)

/-- A float literal of the script language: a whole number below `10 ^ 15` shows one decimal, so
that it does not read as an integer. -/
def literal (x : Double) : String :=
  if x.isShortWhole then x.plain ++ ".0" else x.plain

/-- A number the way a user types it: a whole number below `10 ^ 15` is written as an integer, which
has no negative zero. -/
def typed (x : Double) : String :=
  if x.isShortWhole then toString x.toInt64 else x.plain

end Double

end StrategyCompiler.Number
