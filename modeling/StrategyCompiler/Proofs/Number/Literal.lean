import StrategyCompiler.Proofs.Number.Readback
/-!
Float literals of the script language.  The literal of a finite number always writes a decimal that
the number is nearest to.  It has a point, unless the number is whole and has more than fifteen
digits: then it is the literal of an integer.
-/

set_option autoImplicit false

namespace StrategyCompiler.Number

/-- A float literal has a point between digits, behind a minus sign if it has one. -/
inductive IsFloatLiteral : List Char → Prop
  | mk {digits more : List Char} (negative : Bool) : isDigits digits = true →
      isDigits more = true → IsFloatLiteral (Double.signMark negative ++ (digits ++ '.' :: more))

/-- An integer literal has digits alone, behind a minus sign if it has one. -/
inductive IsIntegerLiteral : List Char → Prop
  | mk {digits : List Char} (negative : Bool) : isDigits digits = true →
      IsIntegerLiteral (Double.signMark negative ++ digits)

theorem IsFloatLiteral.point_mem {text : List Char} (literal : IsFloatLiteral text) :
    '.' ∈ text := by
  cases literal with
  | mk negative _ _ => simp

theorem IsFloatLiteral.quote_not_mem {text : List Char} (literal : IsFloatLiteral text) :
    '"' ∉ text := by
  cases literal with
  | mk negative first second =>
    simp only [List.mem_append, List.mem_cons, not_or]
    refine ⟨?_, fun digit => ?_, by decide, fun digit => ?_⟩
    · cases negative <;> simp [Double.signMark]
    · exact absurd (isDigit_of_mem first digit) (by decide)
    · exact absurd (isDigit_of_mem second digit) (by decide)

theorem isIntegerLiteral_toString_int (value : Int) : IsIntegerLiteral (toString value).toList := by
  obtain ⟨negative, digits, own, shape⟩ := exists_digits_toString_int value
  rw [shape, Double.toList_withSign]
  exact .mk negative own

theorem IsIntegerLiteral.point_not_mem {text : List Char} (literal : IsIntegerLiteral text) :
    '.' ∉ text := by
  cases literal with
  | mk negative own =>
    rw [List.mem_append]
    rintro (mark | digit)
    · cases negative <;> simp [Double.signMark] at mark
    · exact absurd (isDigit_of_mem own digit) (by decide)

private theorem Numeral.exponent_shortest_neg (tie : Tie) {units : Nat}
    (own : spacing units ∣ units)
    (fraction : ¬ one ∣ units) : (shortest tie units).exponent < 0 := by
  refine Int.not_le.1 fun whole => fraction ?_
  have reads := reads_shortest tie own
  have scale : (-(shortest tie units).exponent).toNat = 0 := by omega
  unfold Reads at reads
  rw [scale] at reads
  exact reads ▸ one_dvd_nearest _

namespace Double

/-- A whole number of more than fifteen digits. -/
def IsLong (x : Double) : Prop :=
  x.isFinite = true ∧ ∃ i : Int, x.place? = some (i * one) ∧ 1000000000000000 ≤ i.natAbs

variable {negative : Bool} {units : Nat} {fits : Fits units}

private theorem isLong_finite_iff : (finite negative units fits).IsLong ↔
    ∃ value, units = value * one ∧ 1000000000000000 ≤ value := by
  constructor
  · rintro ⟨-, i, stands, large⟩
    have size := congrArg Int.natAbs (Option.some.inj stands)
    rw [natAbs_signed, Int.natAbs_mul, Int.natAbs_natCast] at size
    exact ⟨i.natAbs, size, large⟩
  · rintro ⟨value, whole, large⟩
    refine ⟨rfl, signed negative value, ?_, ?_⟩
    · rw [place?, whole, signed_mul]
    · rwa [natAbs_signed]

private theorem isShortWhole_iff : (finite negative units fits).isShortWhole = true ↔
    ∃ value, units = value * one ∧ value < 1000000000000000 := by
  refine ⟨units_of_isShortWhole, ?_⟩
  rintro ⟨value, whole, small⟩
  have bound : (ofInt 1000000000000000).place? = some ((1000000000000000 : Int) * one) := by
    rw [place?_ofInt, integerPlace_of_lt (by decide)]
  have below : (units : Int) < (1000000000000000 : Int) * one := by
    rw [whole, Int.natCast_mul]
    exact Int.mul_lt_mul_of_pos_right (by omega) one_pos_int
  have own : (finite negative units fits).abs.place? = some (units : Int) := rfl
  simp only [isShortWhole, isWhole, Bool.and_eq_true, beq_iff_eq, lt, own, bound,
    decide_eq_true_eq]
  exact ⟨whole ▸ Nat.mul_mod_left value one, below⟩

private theorem not_dvd_of_not_isLong (long : ¬ (finite negative units fits).IsLong)
    (short : (finite negative units fits).isShortWhole ≠ true) : ¬ one ∣ units := by
  rintro ⟨value, same⟩
  rw [Nat.mul_comm] at same
  rcases Nat.lt_or_ge value 1000000000000000 with small | large
  · exact short (isShortWhole_iff.2 ⟨value, same, small⟩)
  · exact long (isLong_finite_iff.2 ⟨value, same, large⟩)

/-! ### Points -/

private theorem toList_plain : (finite negative units fits).plain.toList = signMark negative ++
    if units == 0 then ['0'] else (Numeral.shortest .upward units).positional :=
  toList_withSign negative _

private theorem isIntegerLiteral_plain {value : Nat} (whole : units = value * one) :
    IsIntegerLiteral (finite negative units fits).plain.toList := by
  rw [toList_plain]
  exact .mk negative (isDigits_of_whole whole)

private theorem isFloatLiteral_plain (fraction : ¬ one ∣ units) :
    IsFloatLiteral (finite negative units fits).plain.toList := by
  have nonzero : units ≠ 0 := by
    rintro rfl
    exact fraction (Nat.dvd_zero one)
  have fine := Numeral.exponent_shortest_neg .upward (Nat.dvd_of_mod_eq_zero fits.2) fraction
  obtain ⟨digits, more, first, second, shape⟩ := Numeral.exists_point fine
  rw [toList_plain, if_neg (by simpa using nonzero), shape]
  exact .mk negative first second

private theorem literal_of_isShortWhole {x : Double} (short : x.isShortWhole = true) :
    x.literal.toList = x.plain.toList ++ ['.', '0'] := by
  rw [literal, if_pos short, String.toList_append]
  rfl

private theorem literal_of_not_isShortWhole {x : Double} (other : x.isShortWhole ≠ true) :
    x.literal = x.plain := if_neg other

private theorem isIntegerLiteral_literal {x : Double} (long : x.IsLong) :
    IsIntegerLiteral x.literal.toList := by
  cases x with
  | nan => exact absurd long.1 Bool.false_ne_true
  | infinite _ => exact absurd long.1 Bool.false_ne_true
  | finite negative units fits =>
    obtain ⟨value, whole, large⟩ := isLong_finite_iff.1 long
    rw [literal_of_not_isShortWhole]
    · exact isIntegerLiteral_plain whole
    · intro short
      obtain ⟨other, same, small⟩ := isShortWhole_iff.1 short
      obtain rfl := Nat.eq_of_mul_eq_mul_right one_pos (whole.symm.trans same)
      omega

private theorem isFloatLiteral_literal {x : Double} (real : x.isFinite = true)
    (other : ¬ x.IsLong) :
    IsFloatLiteral x.literal.toList := by
  cases x with
  | nan => exact absurd real Bool.false_ne_true
  | infinite _ => exact absurd real Bool.false_ne_true
  | finite negative units fits =>
    by_cases short : (finite negative units fits).isShortWhole = true
    · obtain ⟨value, whole, -⟩ := isShortWhole_iff.1 short
      rw [literal_of_isShortWhole short, toList_plain, List.append_assoc]
      exact .mk negative (isDigits_of_whole whole) rfl
    · rw [literal_of_not_isShortWhole short]
      exact isFloatLiteral_plain (not_dvd_of_not_isLong other short)

/-! ### Values -/

private theorem nearest_pointed (negative : Bool) (value : Nat) :
    Number.nearest (Decimal.mk negative (value * powerOfTen 1) (0 - (1 : Nat))).fraction.num
        (Decimal.mk negative (value * powerOfTen 1) (0 - (1 : Nat))).fraction.den =
      Number.nearest (Decimal.mk negative value (0 - (0 : Nat))).fraction.num
        (Decimal.mk negative value (0 - (0 : Nat))).fraction.den := by
  have same := nearest_mul_right (value * 1 * one) 1 (powerOfTen_pos 1)
  rw [Nat.mul_right_comm, Nat.mul_right_comm value, Nat.one_mul] at same
  exact same

private theorem writes_literal {x : Double} (real : x.isFinite = true) :
    ∃ decimal, Writes x.literal.toList decimal ∧ decimal.fraction.nearest = x := by
  cases x with
  | nan => exact absurd real Bool.false_ne_true
  | infinite _ => exact absurd real Bool.false_ne_true
  | finite negative units fits =>
    obtain ⟨decimal, sign, writes, near⟩ := writes_plain negative fits
    by_cases short : (finite negative units fits).isShortWhole = true
    · obtain ⟨value, whole, -⟩ := isShortWhole_iff.1 short
      have own := isDigits_of_whole whole
      rw [toList_plain] at writes
      rw [literal_of_isShortWhole short, toList_plain]
      generalize (if units == 0 then ['0'] else _) = digits at own writes ⊢
      have plain := Writes.mk (sign_signMark negative) (.whole own) .none
      rw [List.append_nil] at plain
      obtain rfl := writes.unique plain
      have pointed : Mantissa (digits ++ ['.', '0']) (digits ++ zeros 1) 1 :=
        .pointed (isDigits_append own rfl)
      have written := Writes.mk (sign_signMark negative) pointed .none
      rw [List.append_nil, ← List.append_assoc, digitsValue_append_zeros] at written
      exact ⟨_, written, round_eq_finite negative fits ((nearest_pointed negative _).trans near)⟩
    · rw [literal_of_not_isShortWhole short]
      exact ⟨decimal, writes, sign ▸ round_eq_finite decimal.negative fits near⟩

/-- The literal of a finite number writes a decimal that the number is nearest to.  It is a float
literal and has a point exactly when the number is not long, and the literal of an integer when it
is. -/
theorem literal_exact {x : Double} (real : x.isFinite = true) :
    (∃ decimal, Writes x.literal.toList decimal ∧ decimal.fraction.nearest = x) ∧
      (IsFloatLiteral x.literal.toList ↔ ¬ x.IsLong) ∧ ('.' ∈ x.literal.toList ↔ ¬ x.IsLong) ∧
      (IsIntegerLiteral x.literal.toList ↔ x.IsLong) := by
  refine ⟨writes_literal real, ⟨fun float long => ?_, isFloatLiteral_literal real⟩,
    ⟨fun point long => ?_, fun other => (isFloatLiteral_literal real other).point_mem⟩,
    ⟨fun integer => ?_, isIntegerLiteral_literal⟩⟩
  · exact (isIntegerLiteral_literal long).point_not_mem float.point_mem
  · exact (isIntegerLiteral_literal long).point_not_mem point
  · by_contra other
    exact integer.point_not_mem (isFloatLiteral_literal real other).point_mem

end Double

end StrategyCompiler.Number
