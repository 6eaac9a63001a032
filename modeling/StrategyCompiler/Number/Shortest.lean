import StrategyCompiler.Number.Decimal
/-!
The shortest decimal that reads back as a given double.  The reals that round to a double form an
interval; among the decimals in it, one of least digit count that lies nearest to the double is
chosen.  On each decimal grid only the two neighbours of the double need a test.
-/

set_option autoImplicit false

namespace StrategyCompiler.Number

structure Numeral where
  digits : Nat
  exponent : Int
  deriving DecidableEq

inductive Tie
  | upward
  | toEven
  deriving DecidableEq

namespace Numeral

/-- The distance from a magnitude down to the end of its interval, counted in quarters of a
unit.  Below a power of two the doubles lie twice as close. -/
def gapBelow (units : Nat) : Nat :=
  if spacing units ≠ 1 && units == powerOfTwo units.log2 then spacing units else 2 * spacing units

/-- Whether `digits * num / den` quarter units round to the double of this magnitude.  The ends of
the interval round to it when its last bit is even. -/
def roundsTo (units digits num den : Nat) : Bool :=
  let low := (4 * units - gapBelow units) * den
  let high := (4 * units + 2 * spacing units) * den
  let value := digits * num
  if units / spacing units % 2 == 0 then low ≤ value && value ≤ high
  else low < value && value < high

/-- The numeral of the grid `10 ^ exponent` that rounds to the magnitude and lies nearest to it. -/
def onGrid? (tie : Tie) (units : Nat) (exponent : Int) : Option Numeral :=
  let num := powerOfTen exponent.toNat * (4 * one)
  let den := powerOfTen (-exponent).toNat
  let below := 4 * units * den / num
  let twice := 2 * (4 * units * den)
  let middle := (2 * below + 1) * num
  let up := middle < twice || (middle == twice && (tie == .upward || below % 2 == 1))
  match roundsTo units below num den, roundsTo units (below + 1) num den with
  | true, true => some ⟨if up then below + 1 else below, exponent⟩
  | true, false => some ⟨below, exponent⟩
  | false, true => some ⟨below + 1, exponent⟩
  | false, false => none

/-- The power of ten of the leading digit of a positive magnitude. -/
def leading (units : Nat) : Int :=
  digitCount (units * powerOfTen 400 / one) - 401

def normalize (n : Numeral) : Numeral :=
  if h : n.digits ≠ 0 ∧ n.digits % 10 = 0 then normalize ⟨n.digits / 10, n.exponent + 1⟩ else n
termination_by n.digits
decreasing_by omega

/-- The exact value of a magnitude, since a unit is `5 ^ 1074 * 10 ^ (-1074)`. -/
def exact (units : Nat) : Numeral := ⟨units * Nat.pow 5 1074, -1074⟩

/-- The shortest numeral that rounds to a positive magnitude, and of those the nearest to it.
Seventeen digits always suffice. -/
def shortest (tie : Tie) (units : Nat) : Numeral :=
  let grids := (List.range 17).map fun (n : Nat) => leading units - n
  normalize ((grids.findSome? (onGrid? tie units)).getD (exact units))

end Numeral

end StrategyCompiler.Number
