/-!
Double precision numbers as exact values.  A finite double is a sign and a count of units, where a
unit is `2 ^ (-1074)`, the least positive double.  Every operation computes the exact result first
and rounds it once, so that all facts about it are facts about natural numbers.
-/

set_option autoImplicit false

namespace StrategyCompiler.Number

def powerOfTwo (exponent : Nat) : Nat := Nat.pow 2 exponent

theorem powerOfTwo_pos (exponent : Nat) : 0 < powerOfTwo exponent := Nat.two_pow_pos exponent

def one : Nat := powerOfTwo 1074

/-- The units in `2 ^ 1024`, the first power of two above all finite doubles. -/
def ceiling : Nat := powerOfTwo 2098

/-- The distance, in units, between neighbouring doubles of this magnitude. -/
def spacing (units : Nat) : Nat := powerOfTwo (units.log2 - 52)

/-- A count of units is the magnitude of a double when it lies below the ceiling and has at most 53
significant bits. -/
def Fits (units : Nat) : Prop := units < ceiling ∧ units % spacing units = 0

instance (units : Nat) : Decidable (Fits units) := inferInstanceAs (Decidable (_ ∧ _))

/-- The quotient rounded to the nearest whole number, a tie going to the even one. -/
def divideToEven (num den : Nat) : Nat :=
  if 2 * (num % den) < den then num / den
  else if den < 2 * (num % den) then num / den + 1
  else num / den + num / den % 2

/-- The magnitude nearest to `num / den` units, a tie going to the even neighbour. -/
def nearest (num den : Nat) : Nat :=
  divideToEven num (den * spacing (num / den)) * spacing (num / den)

theorem divideToEven_le (num den : Nat) : divideToEven num den ≤ num / den + 1 := by
  unfold divideToEven
  have := Nat.mod_lt (num / den) (show 0 < 2 by decide)
  split
  · omega
  · split <;> omega

private theorem log2_sub_le {n k : Nat} (h : n < powerOfTwo (53 + k)) : n.log2 - 52 ≤ k := by
  by_cases hn : n = 0
  · simp [hn]
  · have := (Nat.log2_lt hn).2 h
    omega

private theorem quotient_lt (num den : Nat) :
    num / (den * spacing (num / den)) < powerOfTwo 53 := by
  have h : num / den < powerOfTwo 53 * spacing (num / den) := by
    simp only [spacing, powerOfTwo, Nat.pow_eq]
    rw [← Nat.pow_add]
    exact Nat.lt_of_lt_of_le Nat.lt_log2_self (Nat.pow_le_pow_right (by decide) (by omega))
  rw [← Nat.div_div_eq_div_mul]
  exact (Nat.div_lt_iff_lt_mul (powerOfTwo_pos _)).2 h

theorem fits_nearest {num den : Nat} (h : nearest num den < ceiling) :
    Fits (nearest num den) := by
  refine ⟨h, ?_⟩
  have bound := Nat.le_trans (divideToEven_le num (den * spacing (num / den)))
    (Nat.succ_le_of_lt (quotient_lt num den))
  refine Nat.mod_eq_zero_of_dvd ?_
  unfold nearest
  generalize divideToEven num (den * spacing (num / den)) = r at bound ⊢
  simp only [spacing, powerOfTwo, Nat.pow_eq] at bound ⊢
  generalize (num / den).log2 - 52 = k
  rcases Nat.lt_or_eq_of_le bound with small | rfl
  · have : r * 2 ^ k < 2 ^ (53 + k) := by
      rw [Nat.pow_add]
      exact Nat.mul_lt_mul_of_pos_right small (Nat.two_pow_pos k)
    exact Nat.dvd_trans (Nat.pow_dvd_pow 2 (log2_sub_le this)) (Nat.dvd_mul_left _ _)
  · rw [← Nat.pow_add, Nat.log2_two_pow]
    exact Nat.pow_dvd_pow 2 (by omega)

theorem ceiling_pos : 0 < ceiling := powerOfTwo_pos 2098

theorem fits_zero : Fits 0 := ⟨ceiling_pos, Nat.zero_mod _⟩

/-- A double precision number.  There is one NaN, and a zero of either sign. -/
inductive Double
  | nan
  | infinite (negative : Bool)
  | finite (negative : Bool) (units : Nat) (fits : Fits units)
  deriving DecidableEq

namespace Double

def zero (negative : Bool) : Double := finite negative 0 fits_zero

instance : Inhabited Double := ⟨zero false⟩

/-- The double nearest to `num / den` units with the given sign; infinite when that lies at or
above the ceiling. -/
def round (negative : Bool) (num den : Nat) : Double :=
  if h : nearest num den < ceiling then finite negative (nearest num den) (fits_nearest h)
  else infinite negative

def ofInt (i : Int) : Double := round (decide (i < 0)) (i.natAbs * one) 1

def signed (negative : Bool) (units : Nat) : Int :=
  if negative then -(units : Int) else units

/-- The place of a number on the line of signed units; an infinite number stands at the ceiling and
NaN has no place. -/
def place? : Double → Option Int
  | nan => none
  | infinite negative => some (signed negative ceiling)
  | finite negative units _ => some (signed negative units)

/-- Whether the first number is less than the second; never so when one of them is NaN. -/
def lt (x y : Double) : Bool :=
  match x.place?, y.place? with
  | some a, some b => decide (a < b)
  | _, _ => false

/-- Whether two numbers are equal in value: the zeros are equal, NaN equals nothing. -/
def same (x y : Double) : Bool :=
  match x.place?, y.place? with
  | some a, some b => a == b
  | _, _ => false

def isFinite : Double → Bool
  | finite _ _ _ => true
  | _ => false

def isWhole : Double → Bool
  | finite _ units _ => units % one == 0
  | _ => false

def neg : Double → Double
  | nan => nan
  | infinite negative => infinite !negative
  | finite negative units fits => finite (!negative) units fits

def abs : Double → Double
  | nan => nan
  | infinite _ => infinite false
  | finite _ units fits => finite false units fits

/-- The sum, rounded once.  A sum that cancels is the positive zero. -/
def add : Double → Double → Double
  | nan, _ => nan
  | _, nan => nan
  | infinite s, infinite t => if s == t then infinite s else nan
  | infinite s, finite _ _ _ => infinite s
  | finite _ _ _, infinite t => infinite t
  | finite s a _, finite t b _ =>
    let sum := signed s a + signed t b
    if sum == 0 then zero (s && t) else round (decide (sum < 0)) sum.natAbs 1

def mul : Double → Double → Double
  | nan, _ => nan
  | _, nan => nan
  | infinite s, infinite t => infinite (s != t)
  | infinite s, finite t b _ => if b == 0 then nan else infinite (s != t)
  | finite s a _, infinite t => if a == 0 then nan else infinite (s != t)
  | finite s a _, finite t b _ => round (s != t) (a * b) one

def div : Double → Double → Double
  | nan, _ => nan
  | _, nan => nan
  | infinite _, infinite _ => nan
  | infinite s, finite t _ _ => infinite (s != t)
  | finite s _ _, infinite t => zero (s != t)
  | finite s a _, finite t b _ =>
    if b == 0 then (if a == 0 then nan else infinite (s != t)) else round (s != t) (a * one) b

/-- The nearest whole number, a half going away from zero. -/
def roundHalfAway : Double → Double
  | finite negative units _ => round negative ((2 * units + one) / (2 * one) * one) 1
  | x => x

def leastInt64 : Int := -9223372036854775808

def greatestInt64 : Int := 9223372036854775807

/-- The whole part as a signed 64-bit integer: beyond that range the nearest end of it, for NaN
zero. -/
def toInt64 : Double → Int
  | nan => 0
  | infinite negative => if negative then leastInt64 else greatestInt64
  | finite negative units _ =>
    max leastInt64 (min greatestInt64 (signed negative (units / one)))

end Double

end StrategyCompiler.Number
