import StrategyCompiler.Proofs.Catalogue.Coercion
/-!
What an integer parameter makes of the number that it is given.  The number is rounded to a double
and the double is cut to 64 bits, so the parameter keeps the integers that are doubles, and the
greatest one.  The bounds are checked on the integer that is returned, rounded once more.
-/

set_option autoImplicit false

namespace StrategyCompiler.Catalogue

open Json.Value (Stands)
open Number (Double Fraction powerOfTwo)

namespace Parameter

variable {parameter : Parameter} {raw : Json.Value}

def Spans (parameter : Parameter) (f : Fraction) : Prop :=
  (∀ bound ∈ parameter.min, ∀ low ∈ bound.place?,
      low * f.den ≤ Double.signed f.negative f.num) ∧
    ∀ bound ∈ parameter.max, ∀ high ∈ bound.place?,
      Double.signed f.negative f.num ≤ high * f.den

private theorem spans_iff {f : Fraction} {i : Int} (whole : f.IsInteger i) :
    parameter.Spans f ↔ parameter.Within (.int i) := by
  have den : (0 : Int) < f.den := Int.natCast_pos.2 f.den_pos
  unfold Fraction.IsInteger at whole
  have below (low : Int) :
      low * f.den ≤ Double.signed f.negative f.num ↔ low ≤ i * Number.one := by
    rw [whole]
    exact Int.mul_le_mul_iff_of_pos_right den
  have above (high : Int) :
      Double.signed f.negative f.num ≤ high * f.den ↔ i * Number.one ≤ high := by
    rw [whole]
    exact Int.mul_le_mul_iff_of_pos_right den
  simp only [Spans, below, above]
  constructor
  · rintro ⟨least, most⟩ -
    exact ⟨fun bound given low shown => ⟨_, rfl, least bound given low shown⟩,
      fun bound given high shown => ⟨_, rfl, most bound given high shown⟩⟩
  · intro within
    obtain ⟨least, most⟩ := within rfl
    constructor
    · intro bound given low shown
      obtain ⟨place, own, le⟩ := least bound given low shown
      rwa [← Option.some.inj own] at le
    · intro bound given high shown
      obtain ⟨place, own, le⟩ := most bound given high shown
      rwa [← Option.some.inj own] at le

/-- An integer is accepted where a number is given whose double is whole, has this integer for its
64 bits, and passes the bounds when that integer is rounded. -/
private theorem coerce_eq_int_iff {k : Int} :
    parameter.coerce raw = .ok (.int k) ↔
      parameter.type = .int ∧
        (∃ f, Stands raw f ∧ f.nearest.isWhole = true ∧ f.nearest.toInt64 = k) ∧
        parameter.allows (Double.ofInt k) = true := by
  rw [coerce_eq_ok_iff, convert_eq_ok_iff]
  constructor
  · rintro ⟨⟨reads, -⟩, passed⟩
    have allowed : parameter.allows (Double.ofInt k) = true := allows_of_check rfl passed
    have type : parameter.type = .int := reads.type.symm
    refine ⟨type, ?_, allowed⟩
    rw [type] at reads
    generalize same : Setting.int k = value at reads
    cases reads with
    | int stands whole => exact ⟨_, stands, whole, (Setting.int.inj same).symm⟩
  · rintro ⟨type, ⟨f, stands, whole, rfl⟩, allowed⟩
    exact ⟨⟨type ▸ .int stands whole, nofun⟩, check_of_allows rfl allowed⟩

private theorem coerce_of_isKept {f : Fraction} {i : Int} (type : parameter.type = .int)
    (stands : Stands raw f) (whole : f.IsInteger i) (kept : Double.IsKept i)
    (spans : parameter.Spans f) : parameter.coerce raw = .ok (.int i) := by
  have place := Fraction.place?_nearest whole
  have read := Double.isWhole_of_integerPlace kept.inside place
  have same := Double.toInt64_of_isKept kept place
  have allowed := allows_of_within ((spans_iff whole).1 spans) (Double.place?_ofInt i)
  exact coerce_eq_int_iff.2 ⟨type, ⟨f, stands, read.1, same⟩, allowed⟩

/-- What an integer parameter returns is the number that was given, which lies between the bounds,
exactly when that number is an integer that a double keeps and the minimum is not next to the
greatest integer. -/
private theorem isInteger_and_spans_iff {f : Fraction} {k : Int} (stands : Stands raw f)
    (accepted : parameter.coerce raw = .ok (.int k)) :
    f.IsInteger k ∧ parameter.Spans f ↔
      (∃ i, f.IsInteger i ∧ Double.IsKept i) ∧ ¬ parameter.MinimumBeyond := by
  obtain ⟨-, ⟨g, again, read, rfl⟩, -⟩ := coerce_eq_int_iff.1 accepted
  obtain rfl := stands.unique again
  constructor
  · rintro ⟨whole, spans⟩
    exact ⟨⟨_, whole, Double.isKept_toInt64 read⟩,
      (within_of_coerce accepted).1 ((spans_iff whole).1 spans)⟩
  · rintro ⟨⟨i, whole, kept⟩, reached⟩
    have same := Double.toInt64_of_isKept kept (Fraction.place?_nearest whole)
    rw [same] at accepted ⊢
    exact ⟨whole, (spans_iff whole).2 ((within_of_coerce accepted).2 reached)⟩

/-- No integer of at most 53 bits is altered, and none of them passes bounds that it does not
keep. -/
private theorem spans_of_small {f : Fraction} {i k : Int} (stands : Stands raw f)
    (whole : f.IsInteger i) (small : i.natAbs < powerOfTwo 53)
    (accepted : parameter.coerce raw = .ok (.int k)) : k = i ∧ parameter.Spans f := by
  have kept := Double.isKept_of_lt small
  obtain ⟨-, ⟨g, again, -, rfl⟩, allowed⟩ := coerce_eq_int_iff.1 accepted
  obtain rfl := stands.unique again
  have same := Double.toInt64_of_isKept kept (Fraction.place?_nearest whole)
  rw [same] at allowed
  obtain ⟨least, -⟩ := (allows_iff (Double.place?_ofInt i)).1 allowed
  have reached : ¬ parameter.MinimumBeyond := by
    rintro ⟨-, bound, given, beyond⟩
    have le := least bound given _ beyond
    rw [Double.integerPlace_of_lt small, Double.mul_one_le_iff] at le
    have := kept.inside.2
    omega
  exact ⟨same, ((isInteger_and_spans_iff stands accepted).2 ⟨⟨i, whole, kept⟩, reached⟩).2⟩

/-- A parameter that returns an integer was given one number.  The integer is the number and lies
between the bounds exactly when a double keeps the number and the minimum is not next to the
greatest integer, so always when the number has at most 53 bits; and every number that a double
keeps is returned as itself between the bounds. -/
theorem coerce_integer_exact (parameter : Parameter) (raw : Json.Value) :
    (∀ k, parameter.coerce raw = .ok (.int k) →
      ∃ f, (∀ g, Stands raw g ↔ g = f) ∧ f.nearest.isWhole = true ∧ f.nearest.toInt64 = k ∧
        (f.IsInteger k ∧ parameter.Spans f ↔
          (∃ i, f.IsInteger i ∧ Double.IsKept i) ∧ ¬ parameter.MinimumBeyond) ∧
        ∀ i, f.IsInteger i → i.natAbs < powerOfTwo 53 → k = i ∧ parameter.Spans f) ∧
    ∀ f i, parameter.type = .int → Stands raw f → f.IsInteger i → Double.IsKept i →
      parameter.Spans f → parameter.coerce raw = .ok (.int i) := by
  refine ⟨fun k accepted => ?_, fun f i type stands => coerce_of_isKept type stands⟩
  obtain ⟨-, ⟨f, stands, read, same⟩, -⟩ := coerce_eq_int_iff.1 accepted
  have one (g : Fraction) : Stands raw g ↔ g = f :=
    ⟨fun again => again.unique stands, fun equal => equal ▸ stands⟩
  exact ⟨f, one, read, same, isInteger_and_spans_iff stands accepted,
    fun i whole small => spans_of_small stands whole small accepted⟩

def longLength : Parameter :=
  (ofDefault "length" (.int 0)).between (Double.ofInt 0) (Double.ofInt 9223372036854775808)

/-- The first integer that is no double is altered, and a number beyond the maximum is taken for
the greatest integer. -/
theorem coerce_longLength :
    longLength.coerce (.integer 9007199254740993) = .ok (.int 9007199254740992) ∧
      ¬ (Fraction.ofInt 9007199254740993).IsInteger 9007199254740992 ∧
      longLength.coerce (.integer 10000000000000000000) = .ok (.int 9223372036854775807) ∧
      ¬ longLength.Spans (Fraction.ofInt 10000000000000000000) := by
  have accept {i k : Int} (whole : (Fraction.ofInt i).nearest.isWhole = true)
      (same : (Fraction.ofInt i).nearest.toInt64 = k)
      (allowed : longLength.allows (Double.ofInt k) = true) :
      longLength.coerce (.integer i) = .ok (.int k) :=
    coerce_eq_int_iff.2 ⟨rfl, ⟨_, .integer i, whole, same⟩, allowed⟩
  refine ⟨?_, ?_, ?_, ?_⟩
  · apply accept <;> decide +kernel
  · unfold Fraction.IsInteger
    decide +kernel
  · apply accept <;> decide +kernel
  · intro spans
    have high : (Double.ofInt 9223372036854775808).place? =
        some (9223372036854775808 * Number.one) := by decide +kernel
    have most := spans.2 _ rfl _ high
    revert most
    decide +kernel

end Parameter

end StrategyCompiler.Catalogue
