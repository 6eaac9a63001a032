import Mathlib.Tactic.SplitIfs
import StrategyCompiler.Proofs.Number.Readback
/-!
Rounding keeps the order of numbers, and there is no double between two neighbours.
-/

set_option autoImplicit false

namespace StrategyCompiler.Number

private theorem divideToEven_mono {num more den : Nat} (positive : 0 < den) (le : num ≤ more) :
    divideToEven num den ≤ divideToEven more den := by
  rcases Nat.lt_or_eq_of_le (Nat.div_le_div_right (c := den) le) with less | same
  · have bound := divideToEven_le num den
    have above : more / den ≤ divideToEven more den :=
      le_divideToEven positive (Nat.div_mul_le_self more den)
    omega
  · have first := Nat.div_add_mod num den
    have second := Nat.div_add_mod more den
    rw [← same] at second
    have rest : num % den ≤ more % den := by omega
    unfold divideToEven
    rw [← same]
    generalize num / den = quotient
    split_ifs <;> omega

theorem nearest_mono {num more den : Nat} (positive : 0 < den) (le : num ≤ more) :
    nearest num den ≤ nearest more den := by
  have quotients : num / den ≤ more / den := Nat.div_le_div_right le
  by_cases same : spacing (num / den) = spacing (more / den)
  · unfold nearest
    rw [← same]
    apply Nat.mul_le_mul_right
    exact divideToEven_mono (Nat.mul_pos positive (spacing_pos _)) le
  · -- A power of two, itself a double, lies between doubles of different spacings.
    have nonzero : more / den ≠ 0 := by
      intro zero
      rw [zero] at quotients same
      rw [Nat.le_zero.1 quotients] at same
      exact same rfl
    have apart : num / den < powerOfTwo (more / den).log2 := by
      refine Nat.lt_of_not_le fun above => same ?_
      have positive : num / den ≠ 0 := Nat.ne_of_gt (Nat.lt_of_lt_of_le (powerOfTwo_pos _) above)
      have low : (more / den).log2 ≤ (num / den).log2 := (Nat.le_log2 positive).2 above
      have high : (num / den).log2 ≤ (more / den).log2 :=
        (Nat.le_log2 nonzero).2 (Nat.le_trans (Nat.log2_self_le positive) quotients)
      rw [spacing, spacing, Nat.le_antisymm high low]
    have grid := spacing_dvd_powerOfTwo (more / den).log2
    apply Nat.le_trans (m := powerOfTwo (more / den).log2)
    · apply nearest_le_of_le grid
      exact Nat.le_of_lt ((Nat.div_lt_iff_lt_mul positive).1 apart)
    · apply le_nearest_of_le grid positive
      exact (Nat.le_div_iff_mul_le positive).1 (Nat.log2_self_le nonzero)

private theorem le_of_lt_next {units bound : Nat} (own : spacing units ∣ units)
    (grid : spacing bound ∣ bound) (less : units < bound + spacing bound) : units ≤ bound := by
  refine Nat.le_of_not_lt fun above => ?_
  rw [spacing_eq_of_le (Nat.le_of_lt above) less grid] at own
  have room := Nat.le_of_lt_add_of_dvd (Nat.add_lt_add_right above (spacing bound))
    (Nat.dvd_add grid (Nat.dvd_refl _)) own
  omega

/-- What holds from some double on holds exactly from there on, if it fails for the one before. -/
theorem iff_next_le {P : Nat → Prop} (upward : ∀ {less more : Nat}, less ≤ more → P less → P more)
    {low next units : Nat} (own : spacing units ∣ units) (grid : spacing low ∣ low)
    (step : next = low + spacing low) (fails : ¬ P low) (holds : P next) :
    P units ↔ next ≤ units := by
  refine ⟨fun here => ?_, fun above => upward above holds⟩
  refine Nat.le_of_not_lt fun less => fails ?_
  exact upward (le_of_lt_next own grid (step ▸ less)) here

def greatest : Nat := ceiling - powerOfTwo 2045

private theorem spacing_greatest :
    spacing greatest ∣ greatest ∧ ceiling = greatest + spacing greatest := by
  decide +kernel

theorem le_greatest {units : Nat} (fits : Fits units) : units ≤ greatest :=
  le_of_lt_next (Nat.dvd_of_mod_eq_zero fits.2) spacing_greatest.1 (spacing_greatest.2 ▸ fits.1)

def halfUp (units : Nat) : Nat := (2 * units + one) / (2 * one) * one

theorem halfUp_mono {less more : Nat} (le : less ≤ more) : halfUp less ≤ halfUp more := by
  apply Nat.mul_le_mul_right
  exact Nat.div_le_div_right (Nat.add_le_add_right (Nat.mul_le_mul_left 2 le) one)

theorem halfUp_lt {units : Nat} (fits : Fits units) : nearest (halfUp units) 1 < ceiling := by
  have most : halfUp greatest ≤ greatest * 1 := by decide +kernel
  apply Nat.lt_of_le_of_lt (m := greatest)
  · apply nearest_le_of_le spacing_greatest.1
    exact Nat.le_trans (halfUp_mono (le_greatest fits)) most
  · rw [spacing_greatest.2]
    exact Nat.lt_add_of_pos_right (spacing_pos greatest)

namespace Double

/-! ### Operations on magnitudes -/

theorem roundHalfAway_eq (negative : Bool) {units : Nat} (fits : Fits units) :
    (finite negative units fits).roundHalfAway =
      finite negative (Number.nearest (halfUp units) 1) (fits_nearest (halfUp_lt fits)) :=
  round_of_lt (halfUp_lt fits)

private theorem round_congr {num den other width : Nat} (negative : Bool)
    (same : Number.nearest num den = Number.nearest other width) :
    round negative num den = round negative other width := by
  unfold round
  simp only [same]

theorem div_positive (negative : Bool) {units : Nat} (fits : Fits units) (divisor : Nat)
    (exact : Fits (divisor * one)) (positive : 0 < divisor) :
    (finite negative units fits).div (ofInt divisor) = round negative units divisor := by
  have nonzero : (divisor * one == 0) = false :=
    beq_false_of_ne (Nat.ne_of_gt (Nat.mul_pos positive one_pos))
  rw [ofInt_of_fits exact]
  unfold Double.div
  dsimp only
  rw [nonzero, Bool.bne_false, if_neg Bool.false_ne_true]
  exact round_congr negative (nearest_mul_right units divisor one_pos)

theorem mul_positive (negative : Bool) {units : Nat} (fits : Fits units) (factor : Nat)
    (exact : Fits (factor * one)) :
    (finite negative units fits).mul (ofInt factor) = round negative (units * factor) 1 := by
  have same := nearest_mul_right (units * factor) 1 one_pos
  rw [Nat.one_mul, Nat.mul_assoc] at same
  rw [ofInt_of_fits exact]
  unfold Double.mul
  dsimp only
  rw [Bool.bne_false]
  exact round_congr negative same

theorem add_unsigned {a b : Nat} (first : Fits a) (second : Fits b) (positive : 0 < a) :
    (finite false a first).add (finite false b second) = round false (a + b) 1 := by
  have sum : signed false a + signed false b = ((a + b : Nat) : Int) := (Int.natCast_add a b).symm
  have nonzero : (((a + b : Nat) : Int) == 0) = false := by
    apply beq_false_of_ne
    omega
  unfold Double.add
  dsimp only
  rw [sum, nonzero, if_neg Bool.false_ne_true, decide_eq_false (by omega), Int.natAbs_natCast]

theorem add_negative {a b : Nat} (first : Fits a) (second : Fits b) (le : b ≤ a) :
    (finite false a first).add (finite true b second) = round false (a - b) 1 := by
  have sum : signed false a + signed true b = ((a - b : Nat) : Int) := by
    rw [Int.natCast_sub le]
    rfl
  unfold Double.add
  dsimp only
  rw [sum, Int.natAbs_natCast, decide_eq_false (by omega)]
  split
  · rename_i zero
    have none : a - b = 0 := Int.natCast_eq_zero.1 (beq_iff_eq.1 zero)
    rw [none, round_eq_zero (nearest_zero 1)]
    rfl
  · rfl

end Double

end StrategyCompiler.Number
