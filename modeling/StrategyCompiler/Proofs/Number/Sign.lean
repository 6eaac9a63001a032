import StrategyCompiler.Proofs.Number.Numeral
/-!
The signs of sums, products and quotients.  Numbers without a minus sign stay so, and a difference
from one does too as long as what is taken away is at most one.
-/

set_option autoImplicit false

namespace StrategyCompiler.Number

inductive Double.Unsigned : Double → Prop
  | nan : Unsigned nan
  | infinite : Unsigned (infinite false)
  | finite (units : Nat) (fits : Fits units) : Unsigned (finite false units fits)

namespace Double

theorem Unsigned.ne_infinite {x : Double} (own : x.Unsigned) : x ≠ Double.infinite true := by
  cases own <;> simp

private theorem unsigned_round (num den : Nat) : (round false num den).Unsigned := by
  unfold round
  split
  · exact .finite _ _
  · exact .infinite

theorem unsigned_ofInt {value : Int} (nonnegative : 0 ≤ value) : (ofInt value).Unsigned := by
  unfold ofInt
  rw [decide_eq_false (Int.not_lt.2 nonnegative)]
  exact unsigned_round _ _

theorem Unsigned.add {x y : Double} (first : x.Unsigned) (second : y.Unsigned) :
    (x.add y).Unsigned := by
  cases first with
  | nan => exact .nan
  | infinite => cases second <;> constructor
  | finite a _ =>
    cases second with
    | nan => exact .nan
    | infinite => exact .infinite
    | finite b _ =>
      have sum : ¬ signed false a + signed false b < 0 := by
        simp only [signed, Bool.false_eq_true, if_false]
        omega
      unfold Double.add
      dsimp only
      rw [decide_eq_false sum]
      split
      · exact .finite _ _
      · exact unsigned_round _ _

theorem Unsigned.mul {x y : Double} (first : x.Unsigned) (second : y.Unsigned) :
    (x.mul y).Unsigned := by
  cases first with
  | nan => exact .nan
  | infinite =>
    cases second with
    | nan => exact .nan
    | infinite => exact .infinite
    | finite b _ =>
      unfold Double.mul
      dsimp only
      split
      · exact .nan
      · exact .infinite
  | finite a _ =>
    cases second with
    | nan => exact .nan
    | infinite =>
      unfold Double.mul
      dsimp only
      split
      · exact .nan
      · exact .infinite
    | finite b _ => exact unsigned_round _ _

theorem Unsigned.div {x y : Double} (first : x.Unsigned) (second : y.Unsigned) :
    (x.div y).Unsigned := by
  cases first with
  | nan => exact .nan
  | infinite => cases second <;> constructor
  | finite a _ =>
    cases second with
    | nan => exact .nan
    | infinite => exact .finite _ _
    | finite b _ =>
      unfold Double.div
      dsimp only
      split
      · split
        · exact .nan
        · exact .infinite
      · exact unsigned_round _ _

theorem Unsigned.roundHalfAway {x : Double} (own : x.Unsigned) : x.roundHalfAway.Unsigned := by
  cases own with
  | nan => exact .nan
  | infinite => exact .infinite
  | finite a _ => exact unsigned_round _ _

end Double

/-! ### Quotients below a power of two -/

/-- A power of two bounds what is rounded from below it: the doubles below are spaced by one of its
divisors. -/
private theorem nearest_le {num den : Nat} (exponent : Nat)
    (small : num < powerOfTwo exponent * den) :
    nearest num den ≤ powerOfTwo exponent := by
  have quotient : num / den < powerOfTwo exponent := by
    by_cases zero : den = 0
    · simp [zero] at small
    · exact (Nat.div_lt_iff_lt_mul (Nat.pos_of_ne_zero zero)).2 small
  have divides : spacing (num / den) ∣ powerOfTwo exponent := by
    refine Nat.pow_dvd_pow 2 ?_
    by_cases zero : num / den = 0
    · simp [zero]
    · have := (Nat.log2_lt zero).2 quotient
      omega
  obtain ⟨steps, same⟩ := divides
  have few : divideToEven num (den * spacing (num / den)) ≤ steps := by
    have below : num / (den * spacing (num / den)) < steps := by
      refine Nat.div_lt_of_lt_mul ?_
      rw [Nat.mul_assoc, ← same, Nat.mul_comm]
      exact small
    have := divideToEven_le num (den * spacing (num / den))
    omega
  unfold nearest
  rw [same, Nat.mul_comm]
  exact Nat.mul_le_mul_left _ few

theorem powerOfTwo_lt {low high : Nat} (less : low < high) : powerOfTwo low < powerOfTwo high :=
  Nat.pow_lt_pow_right (by decide) less

namespace Double

theorem round_of_lt {negative : Bool} {num den : Nat} (small : nearest num den < ceiling) :
    round negative num den = finite negative (nearest num den) (fits_nearest small) :=
  dif_pos small

private theorem negative_eq_false_of_lt {negative : Bool} {low units : Nat} {exact : Fits low}
    {fits : Fits units} (above : (finite false low exact).lt (finite negative units fits) = true) :
    negative = false := by
  cases negative with
  | false => rfl
  | true =>
    have order : (low : Int) < -(units : Int) := of_decide_eq_true above
    omega

theorem exists_units_of_positive {x : Double} (real : x.isFinite = true)
    (above : (ofInt 0).lt x = true) : ∃ units fits, x = finite false units fits := by
  have zero : ofInt (0 : Nat) = _ := ofInt_of_fits (by decide +kernel)
  cases x with
  | nan => exact absurd real Bool.false_ne_true
  | infinite => exact absurd real Bool.false_ne_true
  | finite negative units fits =>
    obtain rfl := negative_eq_false_of_lt (zero ▸ above)
    exact ⟨units, fits, rfl⟩

theorem unsigned_of_positive {x : Double} (real : x.isFinite = true)
    (above : (ofInt 0).lt x = true) : x.Unsigned := by
  obtain ⟨units, fits, rfl⟩ := exists_units_of_positive real above
  exact .finite units fits

private theorem unsigned_add_negative {a b : Nat} {fa : Fits a} {fb : Fits b} (le : b ≤ a) :
    ((finite false a fa).add (finite true b fb)).Unsigned := by
  have sum : ¬ signed false a + signed true b < 0 := by
    simp only [signed, Bool.false_eq_true, if_false, if_true]
    omega
  unfold Double.add
  dsimp only
  rw [decide_eq_false sum]
  split
  · exact .finite _ _
  · exact unsigned_round _ _

private theorem div_ofInt (negative : Bool) {units bound : Nat} (fits : Fits units)
    (exact : Fits (bound * one)) (less : units < bound * one) :
    ∃ size own, (finite negative units fits).div (ofInt bound) = finite negative size own ∧
      size ≤ one := by
  have positive : 0 < bound * one := Nat.lt_of_le_of_lt (Nat.zero_le units) less
  have nonzero : (bound * one == 0) = false := beq_false_of_ne (Nat.ne_of_gt positive)
  have small : nearest (units * one) (bound * one) ≤ one := by
    refine nearest_le 1074 ?_
    rw [Nat.mul_comm]
    exact Nat.mul_lt_mul_of_pos_left less one_pos
  have inside : nearest (units * one) (bound * one) < ceiling :=
    Nat.lt_of_le_of_lt small (powerOfTwo_lt (by decide))
  refine ⟨_, fits_nearest inside, ?_, small⟩
  rw [ofInt_of_fits exact]
  unfold Double.div
  dsimp only
  rw [nonzero, Bool.bne_false, if_neg Bool.false_ne_true]
  exact round_of_lt inside

theorem unsigned_one_add_neg_div {percent : Double} (real : percent.isFinite = true)
    (above : (ofInt 0).lt percent = true) (below : percent.lt (ofInt 100) = true) :
    ((ofInt 1).add (percent.neg.div (ofInt 100))).Unsigned := by
  have unit : ofInt (1 : Nat) = _ := ofInt_of_fits (by decide +kernel)
  have hundred : Fits (100 * one) := by decide +kernel
  obtain ⟨units, fits, rfl⟩ := exists_units_of_positive real above
  have less : units < 100 * one := lt_ofInt hundred below
  obtain ⟨size, own, quotient, small⟩ := div_ofInt true fits hundred less
  have same : (finite false units fits).neg.div (ofInt 100) = finite true size own := quotient
  rw [same]
  refine unit ▸ unsigned_add_negative ?_
  rwa [Nat.one_mul]

end Double

end StrategyCompiler.Number
