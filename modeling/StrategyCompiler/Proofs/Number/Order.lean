import Mathlib.Algebra.Order.Ring.Int
import StrategyCompiler.Proofs.Number.Sign
/-!
The order of doubles.  A double has a place on a line of whole units.  Rounding a number to the
nearest double never passes a double: what lies at or below one is rounded to a double at or below
it, and so from above.  For integers, read as doubles and back, this says when their order and
their value are kept.
-/

set_option autoImplicit false

namespace StrategyCompiler.Number

/-! ### Rounding between two doubles -/

theorem powerOfTwo_dvd {low high : Nat} (le : low ≤ high) : powerOfTwo low ∣ powerOfTwo high :=
  Nat.pow_dvd_pow 2 le

private theorem powerOfTwo_mul (first second : Nat) :
    powerOfTwo first * powerOfTwo second = powerOfTwo (first + second) :=
  (Nat.pow_add 2 first second).symm

theorem log2_lt_of_lt {n exponent : Nat} (nonzero : n ≠ 0) (small : n < powerOfTwo exponent) :
    n.log2 < exponent :=
  (Nat.log2_lt nonzero).2 small

private theorem spacing_dvd_of_le {low high : Nat} (le : low ≤ high) :
    spacing low ∣ spacing high := by
  apply Nat.pow_dvd_pow
  by_cases zero : low = 0
  · simp [zero]
  · have : low.log2 ≤ high.log2 := by
      apply (Nat.le_log2 (by omega)).2
      exact Nat.le_trans (Nat.log2_self_le zero) le
    omega

private theorem divideToEven_le_of_le {num den bound : Nat} (le : num ≤ bound * den) :
    divideToEven num den ≤ bound := by
  rcases Nat.eq_zero_or_pos den with rfl | positive
  · obtain rfl : num = 0 := by omega
    simp [divideToEven]
  · have quotient : num / den ≤ bound := Nat.div_le_of_le_mul (by rwa [Nat.mul_comm])
    rcases Nat.lt_or_eq_of_le quotient with below | same
    · have := divideToEven_le num den
      omega
    · have split := Nat.div_add_mod num den
      have rest : num % den = 0 := by
        have : bound * den = den * (num / den) := by rw [same, Nat.mul_comm]
        omega
      rw [divideToEven, rest, if_pos (by omega)]
      exact quotient

theorem le_divideToEven {num den bound : Nat} (positive : 0 < den) (le : bound * den ≤ num) :
    bound ≤ divideToEven num den := by
  have quotient : bound ≤ num / den := (Nat.le_div_iff_mul_le positive).2 le
  unfold divideToEven
  split
  · exact quotient
  · split <;> omega

theorem nearest_le_of_le {num den units : Nat} (own : spacing units ∣ units)
    (le : num ≤ units * den) : nearest num den ≤ units := by
  have quotient : num / den ≤ units := Nat.div_le_of_le_mul (by rwa [Nat.mul_comm])
  obtain ⟨steps, same⟩ := Nat.dvd_trans (spacing_dvd_of_le quotient) own
  have few : divideToEven num (den * spacing (num / den)) ≤ steps := by
    apply divideToEven_le_of_le
    calc num ≤ units * den := le
      _ = steps * (den * spacing (num / den)) := by
        rw [Nat.mul_left_comm, Nat.mul_comm steps, ← same, Nat.mul_comm]
  calc nearest num den ≤ steps * spacing (num / den) := Nat.mul_le_mul_right _ few
    _ = units := by rw [Nat.mul_comm, ← same]

/-- A double bounds what is rounded from at or above it.  Where the doubles lie wider apart at the
number than at the double, the power of two between them is on both grids. -/
theorem le_nearest_of_le {num den units : Nat} (own : spacing units ∣ units) (positive : 0 < den)
    (le : units * den ≤ num) : units ≤ nearest num den := by
  have quotient : units ≤ num / den := (Nat.le_div_iff_mul_le positive).2 le
  have step {bound : Nat} (divides : spacing (num / den) ∣ bound) (under : bound ≤ num / den) :
      bound ≤ nearest num den := by
    obtain ⟨steps, same⟩ := divides
    have enough : steps ≤ divideToEven num (den * spacing (num / den)) := by
      apply le_divideToEven (Nat.mul_pos positive (spacing_pos _))
      calc steps * (den * spacing (num / den)) = bound * den := by
            rw [Nat.mul_left_comm, Nat.mul_comm steps, ← same, Nat.mul_comm]
        _ ≤ num := (Nat.le_div_iff_mul_le positive).1 under
    calc bound = steps * spacing (num / den) := by rw [Nat.mul_comm, ← same]
      _ ≤ nearest num den := Nat.mul_le_mul_right _ enough
  by_cases alike : units.log2 - 52 = (num / den).log2 - 52
  · have spaced : spacing (num / den) = spacing units := by rw [spacing, spacing, alike]
    exact step (spaced ▸ own) quotient
  · by_cases zero : units = 0
    · exact zero ▸ Nat.zero_le _
    have logs : units.log2 ≤ (num / den).log2 := by
      apply (Nat.le_log2 (by omega)).2
      exact Nat.le_trans (Nat.log2_self_le zero) quotient
    have power : units < powerOfTwo (num / den).log2 := by
      calc units < 2 ^ (units.log2 + 1) := Nat.lt_log2_self
        _ ≤ 2 ^ (num / den).log2 := Nat.pow_le_pow_right (by decide) (by omega)
    have inside : powerOfTwo (num / den).log2 ≤ num / den := Nat.log2_self_le (by omega)
    have divides : spacing (num / den) ∣ powerOfTwo (num / den).log2 := Nat.pow_dvd_pow 2 (by omega)
    exact Nat.le_trans (Nat.le_of_lt power) (step divides inside)

/-! ### Places -/

theorem spacing_dvd_powerOfTwo (exponent : Nat) :
    spacing (powerOfTwo exponent) ∣ powerOfTwo exponent := by
  apply Nat.pow_dvd_pow
  rw [powerOfTwo, Nat.pow_eq, Nat.log2_two_pow]
  omega

namespace Double

private theorem signed_not (negative : Bool) (n : Nat) : signed
    (!negative) n = -signed negative n := by
  cases negative with
  | false => rfl
  | true => exact (Int.neg_neg _).symm

theorem natAbs_signed (negative : Bool) (n : Nat) : (signed negative n).natAbs = n := by
  cases negative with
  | false => exact Int.natAbs_natCast n
  | true => exact (Int.natAbs_neg _).trans (Int.natAbs_natCast n)

theorem signed_mul (negative : Bool) (n m : Nat) :
    signed negative (n * m) = signed negative n * m := by
  cases negative with
  | false => exact Int.natCast_mul n m
  | true => exact (congrArg Neg.neg (Int.natCast_mul n m)).trans (Int.neg_mul _ _).symm

def roundedPlace (negative : Bool) (num den : Nat) : Int :=
  signed negative (min (nearest num den) ceiling)

theorem place?_round (negative : Bool) (num den : Nat) :
    (round negative num den).place? = some (roundedPlace negative num den) := by
  unfold round roundedPlace
  split
  · rename_i small
    rw [Nat.min_eq_left (Nat.le_of_lt small)]
    rfl
  · rename_i large
    rw [Nat.min_eq_right (Nat.le_of_not_lt large)]
    rfl

private theorem exists_of_place? {x : Double} {place : Int} (stands : x.place? = some place) :
    ∃ negative units, place = signed negative units ∧ spacing units ∣ units ∧
      units ≤ ceiling := by
  cases x with
  | nan => simp [place?] at stands
  | infinite negative =>
    exact ⟨negative, ceiling, (Option.some.inj stands).symm, spacing_dvd_powerOfTwo 2098,
      Nat.le_refl _⟩
  | finite negative units fits =>
    exact ⟨negative, units, (Option.some.inj stands).symm, Nat.dvd_of_mod_eq_zero fits.2,
      Nat.le_of_lt fits.1⟩

private theorem roundedPlace_le {x : Double} {place : Int} (stands : x.place? = some place)
    {negative : Bool} {num den : Nat} (positive : 0 < den)
    (le : signed negative num ≤ place * den) : roundedPlace negative num den ≤ place := by
  obtain ⟨minus, units, rfl, own, most⟩ := exists_of_place? stands
  unfold roundedPlace
  cases negative with
  | false =>
    cases minus with
    | false =>
      simp only [signed, Bool.false_eq_true, if_false] at le ⊢
      have magnitudes : num ≤ units * den := by exact_mod_cast le
      have := nearest_le_of_le own magnitudes
      omega
    | true =>
      -- Only zero lies between: the number is not negative, and the double not positive.
      simp only [signed, Bool.false_eq_true, if_false, if_true, Int.neg_mul] at le ⊢
      have product : (0 : Int) ≤ units * den :=
        Int.mul_nonneg (Int.natCast_nonneg _) (Int.natCast_nonneg _)
      have none : (units : Int) * den = 0 := by omega
      have units_zero : (units : Int) = 0 :=
        (Int.mul_eq_zero.1 none).resolve_right (Int.natCast_ne_zero.2 (Nat.ne_of_gt positive))
      have small : num ≤ 0 * den := by omega
      have nothing : nearest num den = 0 := Nat.le_zero.1 (nearest_le_of_le (Nat.dvd_zero _) small)
      rw [nothing, units_zero, Nat.zero_min]
      exact Int.le_refl _
  | true =>
    cases minus with
    | false =>
      simp only [signed, Bool.false_eq_true, if_false, if_true]
      omega
    | true =>
      have magnitudes : units * den ≤ num := by
        simp only [signed, if_true, Int.neg_mul, Int.neg_le_neg_iff] at le
        exact_mod_cast le
      have := le_nearest_of_le own positive magnitudes
      simp only [signed, if_true]
      omega

private theorem roundedPlace_not (negative : Bool) (num den : Nat) :
    roundedPlace (!negative) num den = -roundedPlace negative num den :=
  signed_not negative _

private theorem place?_neg {x : Double} {place : Int} (stands : x.place? = some place) :
    x.neg.place? = some (-place) := by
  cases x with
  | nan => simp [place?] at stands
  | infinite negative =>
    obtain rfl := Option.some.inj stands
    exact congrArg some (signed_not negative ceiling)
  | finite negative units fits =>
    obtain rfl := Option.some.inj stands
    exact congrArg some (signed_not negative units)

private theorem le_roundedPlace {x : Double} {place : Int} (stands : x.place? = some place)
    {negative : Bool} {num den : Nat} (positive : 0 < den)
    (le : place * den ≤ signed negative num) : place ≤ roundedPlace negative num den := by
  have mirrored : signed (!negative) num ≤ -place * den := by
    rw [signed_not, Int.neg_mul]
    omega
  have below := roundedPlace_le (place?_neg stands) positive mirrored
  rw [roundedPlace_not] at below
  omega

/-! ### Integers -/

def integerPlace (i : Int) : Int := roundedPlace (decide (i < 0)) (i.natAbs * one) 1

theorem place?_ofInt (i : Int) : (ofInt i).place? = some (integerPlace i) :=
  place?_round _ _ _

theorem signed_natAbs (i : Int) : signed (decide (i < 0)) (i.natAbs * one) = i * one := by
  unfold signed
  by_cases negative : i < 0
  · have size : (i.natAbs : Int) = -i := Int.ofNat_natAbs_of_nonpos (Int.le_of_lt negative)
    simp only [negative, decide_true, if_true, Int.natCast_mul]
    rw [size, Int.neg_mul, Int.neg_neg]
  · have size : (i.natAbs : Int) = i := Int.natAbs_of_nonneg (Int.not_lt.1 negative)
    simp only [negative, decide_false, Bool.false_eq_true, if_false, Int.natCast_mul]
    rw [size]

theorem integerPlace_le {x : Double} {place i : Int} (stands : x.place? = some place)
    (le : i * one ≤ place) : integerPlace i ≤ place := by
  apply roundedPlace_le stands Nat.one_pos
  rw [signed_natAbs]
  omega

theorem le_integerPlace {x : Double} {place i : Int} (stands : x.place? = some place)
    (le : place ≤ i * one) : place ≤ integerPlace i := by
  apply le_roundedPlace stands Nat.one_pos
  rw [signed_natAbs]
  omega

private theorem integerPlace_of_place? {x : Double} {i : Int} (stands : x.place? = some (i * one)) :
    integerPlace i = i * one :=
  Int.le_antisymm (integerPlace_le stands (Int.le_refl _)) (le_integerPlace stands (Int.le_refl _))

theorem lt_eq_false_iff {x y : Double} {a b : Int} (first : x.place? = some a)
    (second : y.place? = some b) : x.lt y = false ↔ b ≤ a := by
  simp [lt, first, second]

end Double

/-! ### Whole doubles -/

theorem nearest_of_dvd {units : Nat} (own : spacing units ∣ units) : nearest units 1 = units := by
  apply Nat.le_antisymm
  · apply nearest_le_of_le own
    rw [Nat.mul_one]
  · apply le_nearest_of_le own Nat.one_pos
    rw [Nat.mul_one]

theorem one_dvd_nearest (size : Nat) : one ∣ nearest (size * one) 1 := by
  by_cases fine : (size * one).log2 - 52 ≤ 1074
  · have divides : spacing (size * one) ∣ one := powerOfTwo_dvd fine
    rw [nearest_of_dvd (Nat.dvd_trans divides (Nat.dvd_mul_left one size))]
    exact Nat.dvd_mul_left one size
  · have coarse : one ∣ spacing (size * one / 1) := by
      rw [Nat.div_one]
      apply Nat.pow_dvd_pow
      omega
    exact Nat.dvd_trans coarse (Nat.dvd_mul_left _ _)

theorem fits_whole {size : Nat} (small : size < powerOfTwo 53) : Fits (size * one) := by
  have under : size * one < powerOfTwo (53 + 1074) := by
    rw [← powerOfTwo_mul, ← one]
    exact (Nat.mul_lt_mul_right one_pos).2 small
  have fine : (size * one).log2 - 52 ≤ 1074 := by
    by_cases zero : size * one = 0
    · rw [zero]
      decide
    · have := log2_lt_of_lt zero under
      omega
  have divides : spacing (size * one) ∣ one := powerOfTwo_dvd fine
  have inside : powerOfTwo (53 + 1074) < ceiling := powerOfTwo_lt (by decide)
  refine ⟨Nat.lt_trans under inside, ?_⟩
  exact Nat.mod_eq_zero_of_dvd (Nat.dvd_trans divides (Nat.dvd_mul_left one size))

theorem nearest_mul_right (num den : Nat) {factor : Nat} (positive : 0 < factor) :
    nearest (num * factor) (den * factor) = nearest num den := by
  have steps (width : Nat) : divideToEven (num * factor) (width * factor) =
      divideToEven num width := by
    have rest : 2 * (num * factor % (width * factor)) = 2 * (num % width) * factor := by
      rw [Nat.mul_mod_mul_right, Nat.mul_assoc]
    unfold divideToEven
    simp only [rest, Nat.mul_div_mul_right _ _ positive, Nat.mul_lt_mul_right positive]
  unfold nearest
  rw [Nat.mul_div_mul_right _ _ positive, Nat.mul_right_comm, steps]

namespace Double

private theorem exists_of_isWhole {x : Double} (whole : x.isWhole = true) :
    ∃ i : Int, x.place? = some (i * one) ∧ x.toInt64 = max leastInt64 (min greatestInt64 i) := by
  cases x with
  | nan => simp [isWhole] at whole
  | infinite negative => simp [isWhole] at whole
  | finite negative units fits =>
    simp only [isWhole, beq_iff_eq] at whole
    obtain ⟨size, same⟩ := Nat.dvd_of_mod_eq_zero whole
    refine ⟨signed negative size, ?_, ?_⟩
    · rw [place?, same, Nat.mul_comm, signed_mul]
    · rw [toInt64, same, Nat.mul_div_cancel_left _ one_pos]

theorem isFinite_of_isWhole {x : Double} (whole : x.isWhole = true) : x.isFinite = true := by
  cases x with
  | nan => exact absurd whole Bool.false_ne_true
  | infinite _ => exact absurd whole Bool.false_ne_true
  | finite _ _ _ => rfl

private theorem isWhole_ofInt {i : Int} (real : (ofInt i).isFinite = true) :
    (ofInt i).isWhole = true := by
  unfold ofInt at real ⊢
  unfold round at real ⊢
  split
  · exact beq_iff_eq.2 (Nat.mod_eq_zero_of_dvd (one_dvd_nearest i.natAbs))
  · rename_i large
    rw [dif_neg large] at real
    exact absurd real Bool.false_ne_true

private theorem isFinite_of_place? {x : Double} {place : Int} (stands : x.place? = some place)
    (inside : place.natAbs < ceiling) : x.isFinite = true := by
  cases x with
  | nan => simp [place?] at stands
  | infinite negative =>
    obtain rfl := Option.some.inj stands
    rw [natAbs_signed] at inside
    exact absurd inside (Nat.lt_irrefl _)
  | finite negative units fits => rfl

private theorem isWhole_of_place? {x : Double} {i : Int} (real : x.isFinite = true)
    (stands : x.place? = some (i * one)) : x.isWhole = true := by
  cases x with
  | nan => simp [isFinite] at real
  | infinite negative => simp [isFinite] at real
  | finite negative units fits =>
    have size : units = i.natAbs * one := by
      have same := congrArg Int.natAbs (Option.some.inj stands)
      rwa [natAbs_signed, Int.natAbs_mul, Int.natAbs_natCast] at same
    exact beq_iff_eq.2 (Nat.mod_eq_zero_of_dvd (size ▸ Nat.dvd_mul_left one i.natAbs))

/-! ### Signed integers of 64 bits -/

private theorem integerPlace_greatestInt64 : integerPlace greatestInt64 =
    (greatestInt64 + 1) * one := by
  decide +kernel

private theorem integerPlace_leastInt64 : integerPlace leastInt64 = leastInt64 * one := by
  decide +kernel

theorem one_pos_int : (0 : Int) < one := Int.natCast_pos.2 one_pos

theorem mul_one_le_iff {i j : Int} : i * one ≤ j * one ↔ i ≤ j :=
  Int.mul_le_mul_iff_of_pos_right one_pos_int

theorem mul_one_inj {i j : Int} : i * one = j * one ↔ i = j :=
  ⟨Int.eq_of_mul_eq_mul_right (Int.ne_of_gt one_pos_int), congrArg (· * (one : Int))⟩

def IsInt64 (i : Int) : Prop := leastInt64 ≤ i ∧ i ≤ greatestInt64

private theorem least_le_greatest : leastInt64 ≤ greatestInt64 := by decide

theorem isInt64_toInt64 (x : Double) : IsInt64 x.toInt64 := by
  have order := least_le_greatest
  unfold IsInt64 toInt64
  cases x with
  | nan => decide
  | infinite negative => cases negative <;> decide
  | finite negative units fits =>
    dsimp only
    omega

/-- An integer that a double stands for keeps its place, but for the greatest one, which only stands
for the double next to it. -/
def KeepsPlace (i : Int) : Prop := integerPlace i = i * one ∨ i = greatestInt64

theorem keepsPlace_toInt64 {x : Double} (whole : x.isWhole = true) : KeepsPlace x.toInt64 := by
  have order := least_le_greatest
  obtain ⟨i, stands, value⟩ := exists_of_isWhole whole
  by_cases low : i < leastInt64
  · have same : x.toInt64 = leastInt64 := by
      rw [value]
      omega
    exact .inl (same ▸ integerPlace_leastInt64)
  · by_cases high : greatestInt64 ≤ i
    · refine .inr ?_
      rw [value]
      omega
    · have same : x.toInt64 = i := by
        rw [value]
        omega
      exact .inl (same ▸ integerPlace_of_place? stands)

theorem integerPlace_le_iff {x : Double} {place i : Int} (stands : x.place? = some place)
    (keeps : KeepsPlace i) : integerPlace i ≤ place ↔ i * one ≤ place := by
  refine ⟨fun le => ?_, integerPlace_le stands⟩
  rcases keeps with own | rfl
  · rwa [own] at le
  · have step : greatestInt64 * (one : Int) ≤ (greatestInt64 + 1) * one :=
      mul_one_le_iff.2 (by decide)
    rw [integerPlace_greatestInt64] at le
    exact Int.le_trans step le

/-- Only the double next to the greatest integer lies above that integer and not above its place. -/
theorem le_integerPlace_iff {x : Double} {place i : Int} (stands : x.place? = some place)
    (keeps : KeepsPlace i) :
    place ≤ integerPlace i ↔
      place ≤ i * one ∨ i = greatestInt64 ∧ place = (greatestInt64 + 1) * one := by
  constructor
  · intro le
    rcases keeps with own | rfl
    · exact .inl (own ▸ le)
    · by_cases above : greatestInt64 * (one : Int) ≤ place
      · have least := integerPlace_le stands above
        rw [integerPlace_greatestInt64] at le least
        exact .inr ⟨rfl, Int.le_antisymm le least⟩
      · exact .inl (by omega)
  · rintro (le | ⟨rfl, rfl⟩)
    · exact le_integerPlace stands le
    · rw [integerPlace_greatestInt64]

private theorem integerPlace_bounds {i : Int} (inside : IsInt64 i) :
    leastInt64 * one ≤ integerPlace i ∧ integerPlace i ≤ (greatestInt64 + 1) * one := by
  have low : (ofInt leastInt64).place? = some (leastInt64 * one) := by
    rw [place?_ofInt, integerPlace_leastInt64]
  have high : (ofInt greatestInt64).place? = some ((greatestInt64 + 1) * one) := by
    rw [place?_ofInt, integerPlace_greatestInt64]
  constructor
  · exact le_integerPlace low (mul_one_le_iff.2 inside.1)
  · apply integerPlace_le high
    have := inside.2
    exact mul_one_le_iff.2 (by omega)

private theorem isFinite_of_integerPlace {x : Double} {i : Int} (inside : IsInt64 i)
    (stands : x.place? = some (integerPlace i)) : x.isFinite = true := by
  apply isFinite_of_place? stands
  obtain ⟨low, high⟩ := integerPlace_bounds inside
  have most : (greatestInt64 + 1) * (one : Int) < ceiling := by decide +kernel
  have least : -(ceiling : Int) < leastInt64 * one := by decide +kernel
  omega

private theorem isFinite_ofInt {i : Int} (inside : IsInt64 i) : (ofInt i).isFinite = true :=
  isFinite_of_integerPlace inside (place?_ofInt i)

/-- A double at the place of an integer is whole, and the integer it is read as has that place. -/
theorem isWhole_of_integerPlace {x : Double} {i : Int} (inside : IsInt64 i)
    (stands : x.place? = some (integerPlace i)) :
    x.isWhole = true ∧ integerPlace x.toInt64 = integerPlace i := by
  obtain ⟨j, place, -⟩ := exists_of_isWhole (isWhole_ofInt (isFinite_ofInt inside))
  have same : integerPlace i = j * one := Option.some.inj ((place?_ofInt i).symm.trans place)
  have whole : x.isWhole = true :=
    isWhole_of_place? (isFinite_of_integerPlace inside stands) (same ▸ stands)
  refine ⟨whole, ?_⟩
  obtain ⟨k, stays, value⟩ := exists_of_isWhole whole
  obtain rfl : j = k := mul_one_inj.1 (same ▸ Option.some.inj (stands.symm.trans stays))
  obtain ⟨low, high⟩ := integerPlace_bounds inside
  rw [same, mul_one_le_iff] at low high
  rw [same]
  by_cases top : j ≤ greatestInt64
  · have read : x.toInt64 = j := by
      rw [value]
      omega
    rw [read, integerPlace_of_place? place]
  · have read : x.toInt64 = greatestInt64 := by
      have order := least_le_greatest
      rw [value]
      omega
    have next : j = greatestInt64 + 1 := by omega
    rw [read, integerPlace_greatestInt64, next]

/-- A double keeps an integer of 64 bits when the integer has a place of its own, and when it is the
greatest one. -/
structure IsKept (i : Int) : Prop where
  inside : IsInt64 i
  place : KeepsPlace i

theorem isKept_toInt64 {x : Double} (whole : x.isWhole = true) : IsKept x.toInt64 :=
  ⟨isInt64_toInt64 x, keepsPlace_toInt64 whole⟩

theorem toInt64_of_isKept {x : Double} {i : Int} (kept : IsKept i)
    (stands : x.place? = some (integerPlace i)) : x.toInt64 = i := by
  obtain ⟨⟨least, most⟩, keeps⟩ := kept
  obtain ⟨j, place, value⟩ := exists_of_isWhole (isWhole_of_integerPlace ⟨least, most⟩ stands).1
  have same : integerPlace i = j * one := Option.some.inj (stands.symm.trans place)
  rw [value]
  rcases keeps with own | rfl
  · obtain rfl : i = j := mul_one_inj.1 (own.symm.trans same)
    omega
  · rw [integerPlace_greatestInt64, mul_one_inj] at same
    omega

theorem toInt64_ofInt_toInt64 {x : Double} (whole : x.isWhole = true) :
    (ofInt x.toInt64).toInt64 = x.toInt64 :=
  toInt64_of_isKept (isKept_toInt64 whole) (place?_ofInt _)

theorem integerPlace_of_lt {i : Int} (small : i.natAbs < powerOfTwo 53) :
    integerPlace i = i * one := by
  have fits := fits_whole small
  rw [integerPlace, roundedPlace, nearest_of_fits fits, Nat.min_eq_left (Nat.le_of_lt fits.1),
    signed_natAbs]

theorem isKept_of_lt {i : Int} (small : i.natAbs < powerOfTwo 53) : IsKept i := by
  refine ⟨?_, .inl (integerPlace_of_lt small)⟩
  have most : powerOfTwo 53 ≤ 9223372036854775807 := by decide
  unfold IsInt64 leastInt64 greatestInt64
  omega

theorem lt_ofInt_iff {i j : Int} (first : i.natAbs < powerOfTwo 53)
    (second : j.natAbs < powerOfTwo 53) : (ofInt i).lt (ofInt j) = true ↔ i < j := by
  rw [lt, place?_ofInt, place?_ofInt, integerPlace_of_lt first, integerPlace_of_lt second]
  simp only [decide_eq_true_eq]
  rw [← Int.not_le, mul_one_le_iff, Int.not_le]

theorem same_ofInt_iff {i j : Int} (first : i.natAbs < powerOfTwo 53)
    (second : j.natAbs < powerOfTwo 53) : (ofInt i).same (ofInt j) = true ↔ i = j := by
  rw [same, place?_ofInt, place?_ofInt, integerPlace_of_lt first, integerPlace_of_lt second]
  simp only [beq_iff_eq]
  exact mul_one_inj

end Double

end StrategyCompiler.Number
