import StrategyCompiler.Number.Text
import StrategyCompiler.Proofs.Number.Decimal
/-!
Written numbers are read back.  The numerals that round to a double are those in its interval, and
the shortest numeral of a double is one of them; so the text of a number reads as the number, and
its value is kept.
-/

set_option autoImplicit false

namespace StrategyCompiler.Number

/-! ### Rounding to a multiple -/

private theorem divideToEven_split {rest den : Nat} (quotient : Nat) (small : rest < den) :
    divideToEven (quotient * den + rest) den =
      if 2 * rest < den then quotient
      else if den < 2 * rest then quotient + 1
      else quotient + quotient % 2 := by
  have whole : (quotient * den + rest) / den = quotient := by
    rw [Nat.add_comm, Nat.add_mul_div_right _ _ (by omega), Nat.div_eq_of_lt small, Nat.zero_add]
  have left : (quotient * den + rest) % den = rest := by
    rw [Nat.add_comm, Nat.add_mul_mod_self_right, Nat.mod_eq_of_lt small]
  rw [divideToEven, whole, left]

/-- What lies within half a width of a multiple is rounded to it, provided that the multiple is even
or neither end is met. -/
private theorem divideToEven_eq {num den steps : Nat} (positive : 0 < den)
    (low : 2 * (steps * den) ≤ 2 * num + den) (high : 2 * num ≤ 2 * (steps * den) + den)
    (inside : steps % 2 = 0 ∨
      2 * (steps * den) < 2 * num + den ∧ 2 * num < 2 * (steps * den) + den) :
    divideToEven num den = steps := by
  rcases Nat.lt_or_ge num (steps * den) with below | above
  · obtain ⟨before, rfl⟩ : ∃ before, steps = before + 1 := by
      refine ⟨steps - 1, ?_⟩
      have : steps ≠ 0 := by
        rintro rfl
        omega
      omega
    have width : (before + 1) * den = before * den + den := Nat.add_one_mul before den
    rw [width] at below low high inside
    obtain ⟨rest, rfl⟩ := Nat.exists_eq_add_of_le (show before * den ≤ num by omega)
    rw [divideToEven_split before (by omega)]
    split
    · omega
    · split
      · rfl
      · omega
  · obtain ⟨rest, rfl⟩ := Nat.exists_eq_add_of_le above
    rw [divideToEven_split steps (by omega)]
    split
    · rfl
    · split
      · omega
      · omega

/-! ### The interval of a double -/

theorem spacing_eq_of_le {units quotient : Nat} (le : units ≤ quotient)
    (less : quotient < units + spacing units) (own : spacing units ∣ units) :
    spacing quotient = spacing units := by
  by_cases fine : units.log2 ≤ 52
  · have unit : spacing units = 1 := by
      rw [spacing, Nat.sub_eq_zero_of_le fine]
      rfl
    have same : quotient = units := by omega
    rw [same]
  · have nonzero : units ≠ 0 := by
      rintro rfl
      exact fine (by decide)
    have top : units < powerOfTwo (units.log2 + 1) := Nat.lt_log2_self
    have divides : spacing units ∣ powerOfTwo (units.log2 + 1) := powerOfTwo_dvd (by omega)
    have room : units + spacing units ≤ powerOfTwo (units.log2 + 1) :=
      Nat.le_of_lt_add_of_dvd (by omega) (Nat.dvd_add own (Nat.dvd_refl _)) divides
    have logs : quotient.log2 = units.log2 := by
      apply Nat.le_antisymm
      · apply Nat.le_of_lt_succ
        exact log2_lt_of_lt (by omega) (Nat.lt_of_lt_of_le less room)
      · exact (Nat.le_log2 (by omega)).2 (Nat.le_trans (Nat.log2_self_le nonzero) le)
    rw [spacing, spacing, logs]

private theorem spacing_eq_of_lt {units quotient : Nat} (less : quotient < units)
    (near : units ≤ quotient + spacing units) (own : spacing units ∣ units)
    (apart : spacing units = 1 ∨ units ≠ powerOfTwo units.log2) :
    spacing quotient = spacing units := by
  by_cases fine : units.log2 ≤ 52
  · have logs : quotient.log2 ≤ 52 := by
      by_cases zero : quotient = 0
      · rw [zero]
        decide
      · apply Nat.le_trans _ fine
        exact (Nat.le_log2 (by omega)).2 (Nat.le_trans (Nat.log2_self_le zero) (Nat.le_of_lt less))
    rw [spacing, spacing, Nat.sub_eq_zero_of_le fine, Nat.sub_eq_zero_of_le logs]
  · have nonzero : units ≠ 0 := by omega
    have bottom : powerOfTwo units.log2 ≤ units := Nat.log2_self_le nonzero
    have wide : spacing units ≠ 1 := by
      have exponent : 0 < units.log2 - 52 := by omega
      exact (Nat.one_lt_two_pow (by omega)).ne'
    have above : powerOfTwo units.log2 < units :=
      Nat.lt_of_le_of_ne bottom (apart.resolve_left wide).symm
    have divides : spacing units ∣ powerOfTwo units.log2 := powerOfTwo_dvd (by omega)
    have room : powerOfTwo units.log2 + spacing units ≤ units :=
      Nat.le_of_lt_add_of_dvd (by omega) (Nat.dvd_add divides (Nat.dvd_refl _)) own
    have positive : 0 < powerOfTwo units.log2 := powerOfTwo_pos _
    have logs : quotient.log2 = units.log2 := by
      apply Nat.le_antisymm
      · apply Nat.le_of_lt_succ
        exact log2_lt_of_lt (by omega) (Nat.lt_trans less Nat.lt_log2_self)
      · apply (Nat.le_log2 (by omega)).2
        change powerOfTwo units.log2 ≤ quotient
        omega
    rw [spacing, spacing, logs]

private theorem spacing_of_lt_powerOfTwo {exponent quotient : Nat} (large : 53 ≤ exponent)
    (less : quotient < powerOfTwo exponent) (near : powerOfTwo (exponent - 1) ≤ quotient) :
    2 * spacing quotient = spacing (powerOfTwo exponent) := by
  have nonzero : quotient ≠ 0 := Nat.ne_of_gt (Nat.lt_of_lt_of_le (powerOfTwo_pos _) near)
  have logs : quotient.log2 = exponent - 1 := by
    have below := log2_lt_of_lt nonzero less
    have above : exponent - 1 ≤ quotient.log2 := (Nat.le_log2 nonzero).2 near
    omega
  have own : (powerOfTwo exponent).log2 = exponent := Nat.log2_two_pow
  rw [spacing, spacing, logs, own, powerOfTwo, powerOfTwo, Nat.pow_eq, Nat.pow_eq, ← Nat.pow_succ']
  congr 1
  omega

private theorem nearest_eq {num den units steps : Nat} (positive : 0 < den)
    (same : steps * spacing (num / den) = units)
    (low : 2 * (units * den) ≤ 2 * num + den * spacing (num / den))
    (high : 2 * num ≤ 2 * (units * den) + den * spacing (num / den))
    (inside : steps % 2 = 0 ∨
      2 * (units * den) < 2 * num + den * spacing (num / den) ∧
        2 * num < 2 * (units * den) + den * spacing (num / den)) :
    nearest num den = units := by
  have whole : steps * (den * spacing (num / den)) = units * den := by
    rw [Nat.mul_left_comm, same, Nat.mul_comm]
  rw [← whole] at low high inside
  rw [nearest, divideToEven_eq (Nat.mul_pos positive (spacing_pos _)) low high inside, same]

namespace Numeral

private theorem bounds_of_roundsTo {units digits num den whole steps : Nat}
    (own : units = steps * spacing units) (quarters : digits * num = 4 * whole)
    (rounds : roundsTo units digits num den = true) :
    4 * (units * den) ≤ 4 * whole + gapBelow units * den ∧
      4 * whole ≤ 4 * (units * den) + 2 * (den * spacing units) ∧
      (steps % 2 = 0 ∨ 4 * (units * den) < 4 * whole + gapBelow units * den ∧
        4 * whole < 4 * (units * den) + 2 * (den * spacing units)) := by
  have parity : units / spacing units = steps :=
    Nat.div_eq_of_eq_mul_left (spacing_pos units) own
  have low : (4 * units - gapBelow units) * den = 4 * (units * den) - gapBelow units * den := by
    rw [Nat.sub_mul, Nat.mul_assoc]
  have high : (4 * units + 2 * spacing units) * den =
      4 * (units * den) + 2 * (den * spacing units) := by
    rw [Nat.add_mul, Nat.mul_assoc, Nat.mul_assoc, Nat.mul_comm (spacing units)]
  unfold roundsTo at rounds
  dsimp only at rounds
  rw [parity, quarters, low, high] at rounds
  split at rounds
  · rename_i even
    simp only [Bool.and_eq_true, decide_eq_true_eq] at rounds
    have := beq_iff_eq.1 even
    omega
  · simp only [Bool.and_eq_true, decide_eq_true_eq] at rounds
    omega

private theorem gapBelow_of_power {units : Nat} (wide : spacing units ≠ 1)
    (power : units = powerOfTwo units.log2) : gapBelow units = spacing units := by
  have corner : (spacing units ≠ 1 && units == powerOfTwo units.log2) = true := by
    simp only [Bool.and_eq_true, decide_eq_true_eq, beq_iff_eq]
    exact ⟨wide, power⟩
  rw [gapBelow, corner, if_pos rfl]

private theorem gapBelow_of_plain {units : Nat}
    (plain : ¬ (spacing units ≠ 1 ∧ units = powerOfTwo units.log2)) :
    gapBelow units = 2 * spacing units := by
  have corner : (spacing units ≠ 1 && units == powerOfTwo units.log2) = false := by
    rw [Bool.eq_false_iff]
    simpa using plain
  rw [gapBelow, corner, if_neg Bool.false_ne_true]

section Interval

variable {units den whole steps : Nat} (positive : 0 < den) (same : units = steps * spacing units)
include positive same

private theorem nearest_of_lt_power (wide : spacing units ≠ 1)
    (power : units = powerOfTwo units.log2)
    (below : whole < units * den) (low : 4 * (units * den) ≤ 4 * whole + den * spacing units) :
    nearest whole den = units := by
  have large : 53 ≤ units.log2 := by
    refine Nat.lt_of_not_le fun fine => wide ?_
    rw [spacing, Nat.sub_eq_zero_of_le fine]
    rfl
  have twice : units = 2 * powerOfTwo (units.log2 - 1) := by
    conv_lhs => rw [power, powerOfTwo, Nat.pow_eq]
    rw [powerOfTwo, Nat.pow_eq, ← Nat.pow_succ']
    congr 1
    omega
  have less : whole / den < units := (Nat.div_lt_iff_lt_mul positive).2 below
  have near : powerOfTwo (units.log2 - 1) ≤ whole / den := by
    have most : den * spacing units ≤ units * den := by
      rw [Nat.mul_comm units]
      apply Nat.mul_le_mul_left
      exact Nat.le_of_dvd (Nat.zero_lt_of_lt less) (Dvd.intro_left steps same.symm)
    have size : units * den = 2 * (powerOfTwo (units.log2 - 1) * den) := by
      conv_lhs => rw [twice]
      exact Nat.mul_assoc _ _ _
    rw [Nat.le_div_iff_mul_le positive]
    omega
  have half : 2 * spacing (whole / den) = spacing units := by
    rw [power] at less
    rw [spacing_of_lt_powerOfTwo large less near, ← power]
  have wider : den * spacing units = 2 * (den * spacing (whole / den)) := by
    rw [← half, Nat.mul_left_comm]
  have doubled : 2 * steps * spacing (whole / den) = units := by
    rw [Nat.mul_assoc, Nat.mul_left_comm, half]
    exact same.symm
  apply nearest_eq positive doubled
  · omega
  · omega
  · exact .inl (Nat.mul_mod_right 2 steps)

private theorem nearest_of_spacing_eq (spaced : spacing (whole / den) = spacing units)
    (low : 4 * (units * den) ≤ 4 * whole + 2 * (den * spacing units))
    (high : 4 * whole ≤ 4 * (units * den) + 2 * (den * spacing units))
    (inside : steps % 2 = 0 ∨ 4 * (units * den) < 4 * whole + 2 * (den * spacing units) ∧
      4 * whole < 4 * (units * den) + 2 * (den * spacing units)) :
    nearest whole den = units := by
  apply nearest_eq positive (spaced ▸ same.symm) <;> rw [spaced] <;> omega

end Interval

private theorem nearest_of_roundsTo {units digits num den whole : Nat} (own : spacing units ∣ units)
    (positive : 0 < den) (quarters : digits * num = 4 * whole)
    (rounds : roundsTo units digits num den = true) : nearest whole den = units := by
  obtain ⟨steps, same⟩ := exists_eq_mul_left_of_dvd own
  obtain ⟨low, high, inside⟩ := bounds_of_roundsTo same quarters rounds
  have width : 0 < den * spacing units := Nat.mul_pos positive (spacing_pos units)
  rcases Nat.lt_or_ge whole (units * den) with below | above
  · by_cases power : spacing units ≠ 1 ∧ units = powerOfTwo units.log2
    · rw [gapBelow_of_power power.1 power.2, Nat.mul_comm (spacing units)] at low
      exact nearest_of_lt_power positive same power.1 power.2 below low
    · rw [gapBelow_of_plain power, Nat.mul_assoc, Nat.mul_comm (spacing units)] at low inside
      have less : whole / den < units := (Nat.div_lt_iff_lt_mul positive).2 below
      have near : units ≤ whole / den + spacing units := by
        rw [← Nat.sub_le_iff_le_add, Nat.le_div_iff_mul_le positive, Nat.sub_mul,
          Nat.mul_comm (spacing units)]
        omega
      have apart : spacing units = 1 ∨ units ≠ powerOfTwo units.log2 := by
        rw [Classical.or_iff_not_imp_left]
        exact fun wide exactly => power ⟨wide, exactly⟩
      exact nearest_of_spacing_eq positive same (spacing_eq_of_lt less near own apart) low high
        inside
  · have more : units ≤ whole / den := (Nat.le_div_iff_mul_le positive).2 above
    have less : whole / den < units + spacing units := by
      rw [Nat.div_lt_iff_lt_mul positive, Nat.add_mul, Nat.mul_comm (spacing units)]
      omega
    have spaced := spacing_eq_of_le more less own
    apply nearest_of_spacing_eq positive same spaced
    · omega
    · exact high
    · omega

/-! ### Numerals of a double -/

private theorem powerOfTen_eq (exponent : Nat) :
    powerOfTen exponent = Nat.pow 5 exponent * powerOfTwo exponent :=
  Nat.mul_pow 5 2 exponent

/-- Whether a magnitude is the one nearest to a numeral. -/
def Reads (n : Numeral) (units : Nat) : Prop :=
  nearest (n.digits * powerOfTen n.exponent.toNat * one) (powerOfTen (-n.exponent).toNat) = units

private theorem reads_onGrid {tie : Tie} {units : Nat} {exponent : Int} {n : Numeral}
    (own : spacing units ∣ units) (found : onGrid? tie units exponent = some n) :
    n.Reads units := by
  have reads {digits : Nat} (rounds : roundsTo units digits (powerOfTen exponent.toNat * (4 * one))
      (powerOfTen (-exponent).toNat) = true) : (Numeral.mk digits exponent).Reads units := by
    apply nearest_of_roundsTo own (powerOfTen_pos _) _ rounds
    rw [Nat.mul_left_comm _ 4, Nat.mul_left_comm _ 4, Nat.mul_assoc]
  unfold onGrid? at found
  dsimp only at found
  split at found
  · rename_i below above
    obtain rfl := Option.some.inj found
    apply reads
    split
    · exact above
    · exact below
  · rename_i below above
    obtain rfl := Option.some.inj found
    exact reads below
  · rename_i below above
    obtain rfl := Option.some.inj found
    exact reads above
  · exact absurd found (by simp)

private theorem reads_of_trailing {digits units : Nat} {exponent : Int}
    (reads : (Numeral.mk (10 * digits) exponent).Reads units) :
    (Numeral.mk digits (exponent + 1)).Reads units := by
  unfold Reads at reads ⊢
  dsimp only at reads ⊢
  by_cases whole : 0 ≤ exponent
  · have places : (exponent + 1).toNat = exponent.toNat + 1 := by omega
    have none : (-(exponent + 1)).toNat = (-exponent).toNat := by omega
    rw [places, none, powerOfTen_add, Nat.mul_comm _ (powerOfTen 1), ← Nat.mul_assoc,
      Nat.mul_comm digits]
    exact reads
  · have places : (-exponent).toNat = (-(exponent + 1)).toNat + 1 := by omega
    have none : exponent.toNat = (exponent + 1).toNat := by omega
    rw [places, none, powerOfTen_add, Nat.mul_comm 10, Nat.mul_right_comm digits 10,
      Nat.mul_right_comm _ 10] at reads
    rw [← reads]
    exact (nearest_mul_right _ _ (by decide)).symm

private theorem reads_normalize {n : Numeral} {units : Nat} (reads : n.Reads units) :
    n.normalize.Reads units := by
  fun_induction normalize n with
  | case1 n divides ih =>
    apply ih
    apply reads_of_trailing
    rwa [Nat.mul_div_cancel' (Nat.dvd_of_mod_eq_zero divides.2)]
  | case2 n kept => exact reads

private theorem nearest_scaled {units : Nat} (own : spacing units ∣ units) (places : Nat) :
    nearest (units * Nat.pow 5 places * powerOfTwo places) (powerOfTen places) = units := by
  have unit := nearest_mul_right units 1 (powerOfTen_pos places)
  rwa [nearest_of_dvd own, Nat.one_mul, powerOfTen_eq, ← Nat.mul_assoc, ← powerOfTen_eq] at unit

private theorem reads_exact {units : Nat} (own : spacing units ∣ units) :
    (exact units).Reads units := by
  have whole : powerOfTen (-1074 : Int).toNat = 1 := rfl
  have places : (-(-1074 : Int)).toNat = 1074 := rfl
  unfold Reads exact one
  dsimp only
  rw [whole, places]
  -- For any exponent, so that no power is computed.
  generalize 1074 = exponent
  rw [Nat.mul_one, nearest_scaled own]

theorem reads_shortest (tie : Tie) {units : Nat} (own : spacing units ∣ units) :
    (shortest tie units).Reads units := by
  unfold shortest
  dsimp only
  apply reads_normalize
  generalize found : List.findSome? _ _ = best
  cases best with
  | none => exact reads_exact own
  | some n =>
    obtain ⟨exponent, -, grid⟩ := List.exists_of_findSome?_eq_some found
    exact reads_onGrid own grid

end Numeral

/-! ### Digits -/

private theorem digitsValue_toDigits (n : Nat) : digitsValue (Nat.toDigits 10 n) = n :=
  Nat.ofDigitChars_ten_toDigits

theorem digitsValue_append_zeros (digits : List Char) (places : Nat) :
    digitsValue (digits ++ zeros places) = digitsValue digits * powerOfTen places := by
  change Nat.ofDigitChars 10 (digits ++ zeros places) 0 = _
  rw [Nat.ofDigitChars_append, zeros, Nat.ofDigitChars_replicate_zero, Nat.mul_comm]
  rfl

private theorem digitsValue_zeros_append (places : Nat) (digits : List Char) :
    digitsValue (zeros places ++ digits) = digitsValue digits := by
  change Nat.ofDigitChars 10 (zeros places ++ digits) 0 = _
  rw [Nat.ofDigitChars_append, zeros, Nat.ofDigitChars_replicate_zero, Nat.mul_zero]
  rfl

private theorem Mantissa.take_drop {digits : List Char} (own : isDigits digits = true)
    (point : Nat) :
    Mantissa (digits.take point ++ '.' :: digits.drop point) digits (digits.length - point) := by
  have all : isDigits (digits.take point ++ digits.drop point) = true := by
    rwa [List.take_append_drop]
  have pointed := Mantissa.pointed all
  rwa [List.take_append_drop, List.length_drop] at pointed

private theorem Mantissa.zeros_append {digits : List Char} (own : isDigits digits = true)
    (places : Nat) :
    Mantissa ('0' :: '.' :: zeros places ++ digits) (['0'] ++ (zeros places ++ digits))
      (places + digits.length) := by
  have all : isDigits (['0'] ++ (zeros places ++ digits)) = true := by
    apply isDigits_append rfl
    rw [List.all_append, all_isDigit_zeros]
    simp only [isDigits, Bool.and_eq_true] at own
    exact own.2
  have pointed := Mantissa.pointed all
  rwa [List.length_append, zeros, List.length_replicate] at pointed

/-- The digits of a numeral, with the zeros that stand for a positive exponent, and the places
behind the point that stand for a negative one. -/
private theorem Numeral.mantissa_positional (n : Numeral) :
    ∃ digits, Mantissa n.positional digits (-n.exponent).toNat ∧
      digitsValue digits = n.digits * powerOfTen n.exponent.toNat := by
  by_cases whole : 0 ≤ n.exponent
  · have none : (-n.exponent).toNat = 0 := by omega
    refine ⟨n.positional, none ▸ .whole (isDigits_positional whole), ?_⟩
    rw [positional, if_pos whole, digitsValue_append_zeros, digitsValue_toDigits]
  · have value : n.digits * powerOfTen n.exponent.toNat = n.digits := by
      rw [Int.toNat_of_nonpos (by omega)]
      exact Nat.mul_one _
    have own := isDigits_toDigits n.digits
    have same := digitsValue_toDigits n.digits
    rw [value, positional, if_neg whole]
    generalize Nat.toDigits 10 n.digits = digits at own same ⊢
    split
    · have places : (-n.exponent).toNat =
          digits.length - (digits.length + n.exponent).toNat := by omega
      exact ⟨digits, places ▸ .take_drop own _, same⟩
    · have places : (-n.exponent).toNat =
          (-(digits.length + n.exponent)).toNat + digits.length := by omega
      refine ⟨_, places ▸ Mantissa.zeros_append own _, ?_⟩
      change digitsValue (zeros 1 ++ _) = _
      rw [digitsValue_zeros_append, digitsValue_zeros_append, same]

private theorem Numeral.mantissa_of_reads {n : Numeral} {units : Nat} (reads : n.Reads units) :
    ∃ digits places, Mantissa n.positional digits places ∧ ∀ negative,
      let decimal : Decimal := ⟨negative, digitsValue digits, 0 - places⟩
      nearest decimal.fraction.num decimal.fraction.den = units := by
  obtain ⟨digits, mantissa, value⟩ := n.mantissa_positional
  have high : (0 - ((-n.exponent).toNat : Int)).toNat = 0 := by omega
  have low : (-(0 - ((-n.exponent).toNat : Int))).toNat = (-n.exponent).toNat := by omega
  refine ⟨digits, (-n.exponent).toNat, mantissa, fun negative => ?_⟩
  unfold Decimal.fraction
  dsimp only
  rw [value, high, low]
  change nearest (n.digits * powerOfTen n.exponent.toNat * 1 * one) _ = units
  rw [Nat.mul_one]
  exact reads

namespace Double

/-! ### Texts of doubles -/

def signMark (negative : Bool) : List Char := if negative then ['-'] else []

theorem sign_signMark (negative : Bool) : Sign (signMark negative) negative := by
  cases negative with
  | false => exact .none
  | true => exact .minus

theorem toList_withSign (negative : Bool) (text : List Char) :
    (withSign negative text).toList = signMark negative ++ text := by
  rw [withSign, String.toList_ofList]
  cases negative <;> rfl

theorem round_eq_finite {num den units : Nat} (negative : Bool) (fits : Fits units)
    (same : Number.nearest num den = units) :
    round negative num den = finite negative units fits := by
  subst same
  exact round_of_lt fits.1

private theorem ofText?_of_writes {text : String} {decimal : Decimal} {units : Nat}
    (fits : Fits units)
    (writes : Writes text.toList decimal)
    (near : Number.nearest decimal.fraction.num decimal.fraction.den = units) :
    ofText? text = some (finite decimal.negative units fits) :=
  (ofText?_eq_some_iff rfl).2 ⟨decimal, writes, round_eq_finite _ fits near⟩

private theorem writes_withSign {text digits : List Char} {places : Nat} (negative : Bool)
    (mantissa : Mantissa text digits places) :
    Writes (withSign negative text).toList ⟨negative, digitsValue digits, 0 - places⟩ := by
  have writes := Writes.mk (sign_signMark negative) mantissa .none
  rwa [List.append_nil, ← toList_withSign] at writes

private theorem ofText?_withSign_toDigits (negative : Bool) {value units : Nat} (fits : Fits units)
    (whole : units = value * one) :
    ofText? (withSign negative (Nat.toDigits 10 value)) = some (finite negative units fits) := by
  apply ofText?_of_writes fits (writes_withSign negative (.whole (isDigits_toDigits value)))
  rw [digitsValue_toDigits]
  change Number.nearest (value * 1 * one) 1 = _
  rw [Nat.mul_one, ← whole, nearest_of_fits fits]

theorem writes_plain (negative : Bool) {units : Nat} (fits : Fits units) :
    ∃ decimal : Decimal, decimal.negative = negative ∧
      Writes (finite negative units fits).plain.toList decimal ∧
      Number.nearest decimal.fraction.num decimal.fraction.den = units := by
  by_cases zero : units = 0
  · subst zero
    have value : digitsValue ['0'] = 0 := rfl
    refine ⟨⟨negative, digitsValue ['0'], 0 - (0 : Nat)⟩, rfl,
      writes_withSign negative (.whole (rfl : isDigits ['0'] = true)), ?_⟩
    rw [value, Decimal.fraction, Nat.zero_mul, Nat.zero_mul, nearest_zero]
  · have reads := Numeral.reads_shortest .upward (Nat.dvd_of_mod_eq_zero fits.2)
    have shape : (finite negative units fits).plain =
        withSign negative (Numeral.shortest .upward units).positional := by
      rw [plain, if_neg (by simpa using zero)]
    obtain ⟨digits, places, mantissa, near⟩ := Numeral.mantissa_of_reads reads
    rw [shape]
    exact ⟨_, rfl, writes_withSign negative mantissa, near negative⟩

private theorem ofText?_plain (negative : Bool) {units : Nat} (fits : Fits units) :
    ofText? (finite negative units fits).plain = some (finite negative units fits) := by
  obtain ⟨decimal, sign, writes, near⟩ := writes_plain negative fits
  have read := ofText?_of_writes fits writes near
  rwa [sign] at read

/-! ### Values -/

def value? : Double → Option Rat
  | finite negative units _ => some ((signed negative units : Rat) / one)
  | _ => none

def written? (text : String) : Option Rat := (ofText? text).bind value?

private theorem toString_int (i : Int) :
    toString i = withSign (decide (i < 0)) (Nat.toDigits 10 i.natAbs) := by
  cases i with
  | ofNat value =>
    have plus : ¬ Int.ofNat value < 0 := Int.not_lt.2 (Int.natCast_nonneg value)
    rw [decide_eq_false plus]
    exact Nat.toString_eq_ofList_toDigits
  | negSucc value =>
    rw [decide_eq_true (by omega)]
    change "-" ++ toString (value + 1) = _
    rw [Nat.toString_eq_ofList_toDigits, ← String.toList_inj]
    simp [withSign]

private theorem toInt64_of_small (negative : Bool) {value units : Nat} (fits : Fits units)
    (whole : units = value * one) (small : value < 1000000000000000) :
    (finite negative units fits).toInt64 = signed negative value := by
  have inside : leastInt64 ≤ signed negative value ∧ signed negative value ≤ greatestInt64 := by
    have size := natAbs_signed negative value
    unfold leastInt64 greatestInt64
    omega
  have quotient : units / one = value := by rw [whole, Nat.mul_div_cancel _ one_pos]
  rw [toInt64, quotient, Int.min_eq_right inside.2, Int.max_eq_right inside.1]

theorem written?_typed (x : Double) : written? x.typed = x.value? := by
  unfold written? typed
  split
  · rename_i short
    cases x with
    | nan => exact absurd short Bool.false_ne_true
    | infinite negative => exact absurd short Bool.false_ne_true
    | finite negative units fits =>
      obtain ⟨value, whole, small⟩ := units_of_isShortWhole short
      -- The sign of a zero is lost, which its value does not show.
      have same : signed (decide (signed negative value < 0)) units = signed negative units := by
        have own := signed_natAbs (signed negative value)
        rwa [natAbs_signed, ← signed_mul, ← whole] at own
      rw [toInt64_of_small negative fits whole small, toString_int, natAbs_signed,
        ofText?_withSign_toDigits _ fits whole, Option.bind_some, value?, value?, same]
  · cases x with
    | nan => decide
    | infinite negative => cases negative <;> decide
    | finite negative units fits =>
      rw [ofText?_plain]
      rfl

end Double

end StrategyCompiler.Number
