import StrategyCompiler.Number.Decimal
import StrategyCompiler.Proofs.Number.Order
import StrategyCompiler.Proofs.Text.Folding
/-!
The numbers that texts write.  A numeral writes signed digits times a power of ten, which is a
fraction of units; what is read from the text is the double nearest to that fraction, also where no
power of ten is computed.
-/

set_option autoImplicit false

namespace StrategyCompiler.Number

/-! ### Fractions of units -/

structure Fraction where
  negative : Bool
  num : Nat
  den : Nat
  den_pos : 0 < den

namespace Fraction

def nearest (f : Fraction) : Double := Double.round f.negative f.num f.den

def ofInt (i : Int) : Fraction := ⟨decide (i < 0), i.natAbs * one, 1, Nat.one_pos⟩

theorem nearest_ofInt (i : Int) : (ofInt i).nearest = Double.ofInt i := rfl

def IsInteger (f : Fraction) (i : Int) : Prop :=
  Double.signed f.negative f.num = i * one * f.den

private theorem negative_eq {f : Fraction} {i : Int} (whole : f.IsInteger i) (nonzero : i ≠ 0) :
    f.negative = decide (i < 0) := by
  have unit := Double.one_pos_int
  have den : (0 : Int) < f.den := Int.natCast_pos.2 f.den_pos
  unfold IsInteger at whole
  cases minus : f.negative with
  | false =>
    rw [minus] at whole
    have nonnegative : 0 ≤ i * one * f.den := by
      rw [← whole]
      exact Int.natCast_nonneg _
    have := Int.nonneg_of_mul_nonneg_left (Int.nonneg_of_mul_nonneg_left nonnegative den) unit
    rw [decide_eq_false (Int.not_lt.2 this)]
  | true =>
    rw [minus] at whole
    have nonpositive : i * one * f.den ≤ 0 := by
      rw [← whole]
      exact Int.neg_nonpos_of_nonneg (Int.natCast_nonneg _)
    have : ¬ 0 < i := by
      intro positive
      have := Int.mul_pos (Int.mul_pos positive unit) den
      omega
    rw [decide_eq_true (by omega)]

theorem place?_nearest {f : Fraction} {i : Int} (whole : f.IsInteger i) :
    f.nearest.place? = some (Double.integerPlace i) := by
  have size : f.num = i.natAbs * one * f.den := by
    have same := congrArg Int.natAbs whole
    rwa [Double.natAbs_signed, Int.natAbs_mul, Int.natAbs_mul, Int.natAbs_natCast,
      Int.natAbs_natCast] at same
  have reduced : Number.nearest f.num f.den = Number.nearest (i.natAbs * one) 1 := by
    have common := nearest_mul_right (i.natAbs * one) 1 f.den_pos
    rwa [Nat.one_mul, ← size] at common
  rw [nearest, Double.place?_round, Double.integerPlace, Double.roundedPlace, Double.roundedPlace,
    reduced]
  by_cases zero : i = 0
  · have none : Number.nearest (i.natAbs * one) 1 = 0 := by
      apply Nat.le_zero.1
      apply nearest_le_of_le (Nat.dvd_zero _)
      simp [zero]
    rw [none, Nat.zero_min]
    cases f.negative <;> cases decide (i < 0) <;> rfl
  · rw [negative_eq whole zero]

end Fraction

/-! ### Numerals -/

inductive Sign : List Char → Bool → Prop
  | none : Sign [] false
  | plus : Sign ['+'] false
  | minus : Sign ['-'] true

/-- Digits with at most one point around or among them: the text, its digits and how many of them
stand behind the point. -/
inductive Mantissa : List Char → List Char → Nat → Prop
  | whole {digits : List Char} : isDigits digits = true → Mantissa digits digits 0
  | pointed {before after : List Char} : isDigits (before ++ after) = true →
      Mantissa (before ++ '.' :: after) (before ++ after) after.length

inductive Power : List Char → Int → Prop
  | none : Power [] 0
  | marked {letter : Char} {mark digits : List Char} {negative : Bool} :
      letter = 'e' ∨ letter = 'E' → Sign mark negative → isDigits digits = true →
      Power (letter :: (mark ++ digits)) (Double.signed negative (digitsValue digits))

structure Decimal where
  negative : Bool
  digits : Nat
  exponent : Int

inductive Writes : List Char → Decimal → Prop
  | mk {mark text digits tail : List Char} {negative : Bool} {places : Nat} {power : Int} :
      Sign mark negative → Mantissa text digits places → Power tail power →
      Writes (mark ++ (text ++ tail)) ⟨negative, digitsValue digits, power - places⟩

theorem powerOfTen_pos (exponent : Nat) : 0 < powerOfTen exponent := Nat.pow_pos (by decide)

def Decimal.fraction (decimal : Decimal) : Fraction where
  negative := decimal.negative
  num := decimal.digits * powerOfTen decimal.exponent.toNat * one
  den := powerOfTen (-decimal.exponent).toNat
  den_pos := powerOfTen_pos _

/-! ### Reading -/

private theorem exists_takeSign (cs : List Char) :
    ∃ mark, Sign mark (takeSign cs).1 ∧ cs = mark ++ (takeSign cs).2 := by
  unfold takeSign
  split
  · exact ⟨['-'], .minus, rfl⟩
  · exact ⟨['+'], .plus, rfl⟩
  · exact ⟨[], .none, rfl⟩

private theorem takeSign_append {mark rest : List Char} {negative : Bool}
    (sign : Sign mark negative)
    (unsigned : ∀ c ∈ rest.head?, c ≠ '-' ∧ c ≠ '+') :
    takeSign (mark ++ rest) = (negative, rest) := by
  cases sign with
  | plus => rfl
  | minus => rfl
  | none =>
    rw [List.nil_append]
    unfold takeSign
    split
    · exact absurd rfl (unsigned '-' rfl).1
    · exact absurd rfl (unsigned '+' rfl).2
    · rfl

theorem isDigit_of_mem {digits : List Char} {c : Char} (own : isDigits digits = true)
    (member : c ∈ digits) : c.isDigit = true := by
  simp only [isDigits, Bool.and_eq_true] at own
  exact List.all_eq_true.1 own.2 c member

private theorem isDigit_head {digits : List Char} {c : Char} (own : isDigits digits = true)
    (first : c ∈ digits.head?) : c.isDigit = true :=
  isDigit_of_mem own (List.mem_of_head? first)

private theorem not_sign_of_isDigit {c : Char} (digit : c.isDigit = true) : c ≠ '-' ∧ c ≠ '+' := by
  constructor <;> rintro rfl <;> exact absurd digit (by decide)

private theorem readExponent?_eq_some_iff {cs : List Char} {power : Int} :
    readExponent? cs = some power ↔ Power cs power := by
  constructor
  · intro read
    cases cs with
    | nil =>
      obtain rfl := Option.some.inj read
      exact .none
    | cons letter rest =>
      obtain ⟨mark, sign, split⟩ := exists_takeSign rest
      simp only [readExponent?, Option.ite_none_right_eq_some, Bool.and_eq_true, Bool.or_eq_true,
        beq_iff_eq, Option.some.injEq] at read
      obtain ⟨⟨⟨letters, nonempty⟩, digits⟩, rfl⟩ := read
      have own : isDigits (takeSign rest).2 = true := by
        rw [isDigits, nonempty, digits]
        rfl
      have marked := Power.marked letters sign own
      rwa [← split] at marked
  · intro power
    cases power with
    | none => rfl
    | @marked letter mark digits negative letters sign own =>
      have taken : takeSign (mark ++ digits) = (negative, digits) :=
        takeSign_append sign fun c first => not_sign_of_isDigit (isDigit_head own first)
      simp only [isDigits, Bool.and_eq_true] at own
      simp only [readExponent?, taken, own.1, own.2, Bool.and_true, Bool.or_eq_true, beq_iff_eq,
        letters, if_true]
      rfl

private theorem Power.not_isDigit {tail : List Char} {power : Int} (own : Power tail power) :
    ∀ c ∈ tail.head?, c.isDigit = false ∧ c ≠ '.' := by
  intro c first
  cases own with
  | none => exact absurd first (by simp)
  | marked letters =>
    obtain rfl : _ = c := by simpa using first
    rcases letters with rfl | rfl <;> decide

private theorem takeWhile_digits {digits tail : List Char} (own : ∀ c ∈ digits, c.isDigit = true)
    (ends : ∀ c ∈ tail.head?, c.isDigit = false) :
    (digits ++ tail).takeWhile Char.isDigit = digits ∧
      (digits ++ tail).dropWhile Char.isDigit = tail := by
  rw [List.takeWhile_append_of_pos own, List.dropWhile_append_of_pos own]
  cases tail with
  | nil => simp
  | cons c rest =>
    have stop := ends c rfl
    simp [stop]

/-- What stands behind the first digits of a numeral: the digits after a point, and the rest. -/
def afterWhole : List Char → List Char × List Char
  | '.' :: after => (after.takeWhile Char.isDigit, after.dropWhile Char.isDigit)
  | rest => ([], rest)

private theorem afterWhole_of_ne {rest : List Char} (ends : ∀ c ∈ rest.head?, c ≠ '.') :
    afterWhole rest = ([], rest) := by
  unfold afterWhole
  split
  · exact absurd rfl (ends '.' rfl)
  · rfl

private theorem readMagnitude?_eq {negative : Bool} {cs whole rest fraction tail : List Char}
    (digits : cs.takeWhile Char.isDigit = whole) (left : cs.dropWhile Char.isDigit = rest)
    (behind : afterWhole rest = (fraction, tail)) :
    readMagnitude? negative cs =
      if whole.isEmpty && fraction.isEmpty then none
      else (readExponent? tail).map fun power =>
        Double.ofDecimal negative (digitsValue (whole ++ fraction)) (power - fraction.length) := by
  subst digits left
  have first : fraction = (afterWhole (cs.dropWhile Char.isDigit)).1 := by rw [behind]
  have second : tail = (afterWhole (cs.dropWhile Char.isDigit)).2 := by rw [behind]
  rw [first, second]
  rfl

private theorem cut_of_mantissa {text digits tail : List Char} {places : Nat} {power : Int}
    (mantissa : Mantissa text digits places) (ends : Power tail power) :
    ∃ whole rest fraction, (text ++ tail).takeWhile Char.isDigit = whole ∧
      (text ++ tail).dropWhile Char.isDigit = rest ∧ afterWhole rest = (fraction, tail) ∧
      whole ++ fraction = digits ∧ fraction.length = places := by
  have stop : ∀ c ∈ tail.head?, c.isDigit = false := fun c first => (ends.not_isDigit c first).1
  cases mantissa with
  | whole own =>
    obtain ⟨taken, left⟩ := takeWhile_digits (fun c => isDigit_of_mem own) stop
    have behind := afterWhole_of_ne fun c first => (ends.not_isDigit c first).2
    exact ⟨_, _, [], taken, left, behind, List.append_nil _, rfl⟩
  | @pointed before after own =>
    have all : ∀ c ∈ before ++ after, c.isDigit = true := fun c => isDigit_of_mem own
    have point : ∀ c ∈ ('.' :: (after ++ tail)).head?, c.isDigit = false := by simp
    obtain ⟨taken, left⟩ :=
      takeWhile_digits (fun c member => all c (List.mem_append_left _ member)) point
    obtain ⟨more, rest⟩ := takeWhile_digits
      (fun c member => all c (List.mem_append_right _ member)) stop
    have behind : afterWhole ('.' :: (after ++ tail)) = (after, tail) := by
      rw [afterWhole, more, rest]
    rw [List.append_assoc, List.cons_append]
    exact ⟨_, _, after, taken, left, behind, rfl, rfl⟩

private theorem readMagnitude?_of_mantissa {text digits tail : List Char} {places : Nat}
    {power : Int}
    (negative : Bool) (mantissa : Mantissa text digits places) (ends : Power tail power) :
    readMagnitude? negative (text ++ tail) =
      some (Double.ofDecimal negative (digitsValue digits) (power - places)) := by
  have own : isDigits digits = true := by
    cases mantissa with
    | whole own => exact own
    | pointed own => exact own
  obtain ⟨whole, rest, fraction, taken, left, behind, rfl, rfl⟩ := cut_of_mantissa mantissa ends
  have nonempty : (whole.isEmpty && fraction.isEmpty) = false := by
    simp only [isDigits, Bool.and_eq_true, Bool.not_eq_true'] at own
    rw [← own.1]
    cases whole <;> rfl
  rw [readMagnitude?_eq taken left behind, nonempty, readExponent?_eq_some_iff.2 ends]
  rfl

private theorem mantissa_of_readMagnitude? {cs : List Char} {negative : Bool} {x : Double}
    (read : readMagnitude? negative cs = some x) :
    ∃ text digits tail places power, Mantissa text digits places ∧ Power tail power ∧
      cs = text ++ tail ∧ x = Double.ofDecimal negative (digitsValue digits) (power - places) := by
  obtain ⟨fraction, tail, behind⟩ : ∃ fraction tail,
    afterWhole (cs.dropWhile Char.isDigit) = (fraction, tail) := ⟨_, _, rfl⟩
  have whole : (cs.takeWhile Char.isDigit).all Char.isDigit = true := List.all_takeWhile
  have split : cs.takeWhile Char.isDigit ++ cs.dropWhile Char.isDigit = cs :=
    List.takeWhile_append_dropWhile
  rw [readMagnitude?_eq rfl rfl behind, Option.ite_none_left_eq_some,
    Option.map_eq_some_iff] at read
  generalize cs.takeWhile Char.isDigit = digits at read whole split
  generalize cs.dropWhile Char.isDigit = rest at behind split
  obtain ⟨nonempty, power, exponent, rfl⟩ := read
  have ends := readExponent?_eq_some_iff.1 exponent
  unfold afterWhole at behind
  split at behind
  · rename_i after
    obtain ⟨rfl, rfl⟩ := Prod.mk.inj behind
    have own : isDigits (digits ++ after.takeWhile Char.isDigit) = true := by
      simp only [isDigits, List.all_append, whole, List.all_takeWhile, Bool.and_true]
      revert nonempty
      cases digits <;> simp
    refine ⟨_, _, _, _, power, .pointed own, ends, ?_, rfl⟩
    rw [← split, List.append_assoc, List.cons_append, List.takeWhile_append_dropWhile]
  · obtain ⟨rfl, rfl⟩ := Prod.mk.inj behind
    have own : isDigits digits = true := by
      rw [isDigits, whole, Bool.and_true]
      simpa using nonempty
    refine ⟨_, _, _, _, power, .whole own, ends, split.symm, ?_⟩
    rw [List.append_nil]
    rfl

/-! ### The nearest double -/

theorem nearest_zero (den : Nat) : nearest 0 den = 0 := by
  apply Nat.le_zero.1
  apply nearest_le_of_le (Nat.dvd_zero _)
  omega

private theorem lt_ten_pow_digitCount (n : Nat) : n < powerOfTen (digitCount n) :=
  (Nat.length_toDigits_le_iff (by decide) Nat.length_toDigits_pos).1 (Nat.le_refl _)

private theorem ten_pow_le {n places : Nat} (positive : 0 < n) (more : places < digitCount n) :
    powerOfTen places ≤ n := by
  by_cases none : places = 0
  · rw [none]
    exact positive
  · refine Nat.le_of_not_lt fun small => Nat.not_le.2 more ?_
    exact (Nat.length_toDigits_le_iff (by decide) (Nat.pos_of_ne_zero none)).2 small

theorem powerOfTen_add (places more : Nat) :
    powerOfTen (places + more) = powerOfTen places * powerOfTen more := Nat.pow_add 10 places more

private theorem powerOfTen_le {places more : Nat} (le : places ≤ more) :
    powerOfTen places ≤ powerOfTen more := Nat.pow_le_pow_right (by decide) le

private theorem nearest_eq_zero {num den : Nat} (half : 2 * num < den) : nearest num den = 0 := by
  have none : num / den = 0 := Nat.div_eq_of_lt (by omega)
  have unit : spacing (num / den) = 1 := by rw [none]; rfl
  rw [nearest, unit, Nat.mul_one, Nat.mul_one, divideToEven, Nat.mod_eq_of_lt (by omega),
    if_pos half, none]

theorem round_eq_zero {negative : Bool} {num den : Nat} (none : nearest num den = 0) :
    Double.round negative num den = Double.zero negative := by
  have small : nearest num den < ceiling := none ▸ ceiling_pos
  rw [Double.round_of_lt small]
  simp only [none]
  rfl

private theorem round_eq_infinite {digits : Nat} {exponent : Int} (negative : Bool)
    (positive : 0 < digits)
    (large : 310 < exponent + digitCount digits) :
    Double.round negative (digits * powerOfTen exponent.toNat * one)
      (powerOfTen (-exponent).toNat) = Double.infinite negative := by
  have written : 0 < digitCount digits := Nat.length_toDigits_pos
  have leading : powerOfTen (digitCount digits - 1) ≤ digits := ten_pow_le positive (by omega)
  have size : powerOfTen 310 * powerOfTen (-exponent).toNat ≤
      digits * powerOfTen exponent.toNat := by
    calc powerOfTen 310 * powerOfTen (-exponent).toNat
        = powerOfTen (310 + (-exponent).toNat) := (powerOfTen_add _ _).symm
      _ ≤ powerOfTen (digitCount digits - 1 + exponent.toNat) := powerOfTen_le (by omega)
      _ = powerOfTen (digitCount digits - 1) * powerOfTen exponent.toNat := powerOfTen_add _ _
      _ ≤ digits * powerOfTen exponent.toNat := Nat.mul_le_mul_right _ leading
  have beyond : ceiling ≤ powerOfTen 310 * one := by decide +kernel
  have above : ceiling ≤ nearest (digits * powerOfTen exponent.toNat * one)
      (powerOfTen (-exponent).toNat) := by
    apply le_nearest_of_le (spacing_dvd_powerOfTwo 2098) (powerOfTen_pos _)
    calc ceiling * powerOfTen (-exponent).toNat
        ≤ powerOfTen 310 * one * powerOfTen (-exponent).toNat := Nat.mul_le_mul_right _ beyond
      _ = powerOfTen 310 * powerOfTen (-exponent).toNat * one := Nat.mul_right_comm _ _ _
      _ ≤ digits * powerOfTen exponent.toNat * one := Nat.mul_le_mul_right _ size
  rw [Double.round, dif_neg (Nat.not_lt.2 above)]

private theorem round_eq_zero_of_small {digits : Nat} {exponent : Int} (negative : Bool)
    (positive : 0 < digits) (small : exponent + digitCount digits < -330) :
    Double.round negative (digits * powerOfTen exponent.toNat * one)
      (powerOfTen (-exponent).toNat) = Double.zero negative := by
  have most := Nat.le_of_lt (lt_ten_pow_digitCount digits)
  have size : digits * powerOfTen exponent.toNat * powerOfTen 330 ≤
      powerOfTen (-exponent).toNat := by
    calc digits * powerOfTen exponent.toNat * powerOfTen 330
        ≤ powerOfTen (digitCount digits) * powerOfTen exponent.toNat * powerOfTen 330 :=
          Nat.mul_le_mul_right _ (Nat.mul_le_mul_right _ most)
      _ = powerOfTen (digitCount digits + exponent.toNat + 330) := by
          rw [powerOfTen_add, powerOfTen_add]
      _ ≤ powerOfTen (-exponent).toNat := powerOfTen_le (by omega)
  have unit : 2 * one < powerOfTen 330 := by decide +kernel
  have scale : 0 < digits * powerOfTen exponent.toNat := Nat.mul_pos positive (powerOfTen_pos _)
  apply round_eq_zero
  apply nearest_eq_zero
  calc 2 * (digits * powerOfTen exponent.toNat * one)
      = digits * powerOfTen exponent.toNat * (2 * one) := Nat.mul_left_comm _ _ _
    _ < digits * powerOfTen exponent.toNat * powerOfTen 330 := (Nat.mul_lt_mul_left scale).2 unit
    _ ≤ powerOfTen (-exponent).toNat := size

private theorem ofDecimal_eq_nearest (decimal : Decimal) :
    Double.ofDecimal decimal.negative decimal.digits decimal.exponent =
      decimal.fraction.nearest := by
  obtain ⟨negative, digits, exponent⟩ := decimal
  unfold Double.ofDecimal Fraction.nearest Decimal.fraction
  dsimp only
  split
  · rename_i zero
    rw [beq_iff_eq.1 zero, Nat.zero_mul, Nat.zero_mul]
    exact (round_eq_zero (nearest_zero _)).symm
  · rename_i nonzero
    have positive : 0 < digits := Nat.pos_of_ne_zero (by simpa using nonzero)
    split
    · rename_i large
      exact (round_eq_infinite negative positive large).symm
    · split
      · rename_i small
        exact (round_eq_zero_of_small negative positive small).symm
      · rfl

/-! ### Texts -/

private theorem toLower_of_isDigit {c : Char} (digit : c.isDigit = true) : c.toLower = c := by
  apply Text.toLower_of_not_isUpper
  simp only [Char.isDigit, Bool.and_eq_true, decide_eq_true_eq, UInt32.le_iff_toNat_le] at digit
  have most : c.val.toNat ≤ 57 := digit.2
  rw [Bool.eq_false_iff, Ne, Text.isUpper_iff_toNat, ← Char.toNat_val]
  omega

theorem Mantissa.head {text digits : List Char} {places : Nat}
    (own : Mantissa text digits places) :
    ∃ c rest, text = c :: rest ∧ (c.isDigit = true ∨ c = '.') := by
  cases own with
  | whole own =>
    cases text with
    | nil => exact absurd own (by decide)
    | cons c rest => exact ⟨c, rest, rfl, .inl (isDigit_head own rfl)⟩
  | @pointed before after own =>
    cases before with
    | nil => exact ⟨'.', after, rfl, .inr rfl⟩
    | cons c rest => exact ⟨c, _, rfl, .inl (isDigit_head own rfl)⟩

private theorem takeSign_of_mantissa {mark text digits : List Char} {negative : Bool} {places : Nat}
    (sign : Sign mark negative) (mantissa : Mantissa text digits places) (tail : List Char) :
    takeSign (mark ++ (text ++ tail)) = (negative, text ++ tail) := by
  obtain ⟨c, rest, rfl, kind⟩ := mantissa.head
  refine takeSign_append sign fun first found => ?_
  obtain rfl : c = first := by simpa using found
  rcases kind with digit | rfl
  · exact not_sign_of_isDigit digit
  · decide

theorem Writes.unique {text : List Char} {decimal other : Decimal} (first : Writes text decimal)
    (second : Writes text other) : decimal = other := by
  cases first with
  | @mk mark body digits tail negative places power sign mantissa ends =>
    generalize same : mark ++ (body ++ tail) = text at second
    cases second with
    | @mk mark' body' digits' tail' negative' places' power' sign' mantissa' ends' =>
      have signs := congrArg takeSign same
      rw [takeSign_of_mantissa sign mantissa, takeSign_of_mantissa sign' mantissa'] at signs
      obtain ⟨rfl, bodies⟩ := Prod.mk.inj signs
      obtain ⟨_, _, fraction, rfl, rfl, behind, rfl, rfl⟩ := cut_of_mantissa mantissa ends
      obtain ⟨_, _, _, rfl, rfl, behind', rfl, rfl⟩ := cut_of_mantissa mantissa' ends'
      rw [bodies, behind'] at behind
      obtain ⟨rfl, rfl⟩ := Prod.mk.inj behind
      have powers := readExponent?_eq_some_iff.2 ends
      rw [readExponent?_eq_some_iff.2 ends'] at powers
      rw [Option.some.inj powers, bodies]

theorem ofText?_eq_some_iff {text : String} {x : Double} (real : x.isFinite = true) :
    Double.ofText? text = some x ↔
      ∃ decimal, Writes text.toList decimal ∧ decimal.fraction.nearest = x := by
  constructor
  · intro read
    obtain ⟨mark, sign, cut⟩ := exists_takeSign text.toList
    unfold Double.ofText? at read
    dsimp only at read
    split at read
    · rw [← Option.some.inj read] at real
      exact absurd real Bool.false_ne_true
    · split at read
      · rw [← Option.some.inj read] at real
        exact absurd real Bool.false_ne_true
      · obtain ⟨middle, digits, tail, places, power, mantissa, ends, parts, value⟩ :=
          mantissa_of_readMagnitude? read
        have writes := Writes.mk sign mantissa ends
        rw [← parts, ← cut] at writes
        exact ⟨_, writes, by rw [← ofDecimal_eq_nearest, value]⟩
  · rintro ⟨decimal, writes, rfl⟩
    rw [← ofDecimal_eq_nearest]
    generalize shape : text.toList = cs at writes
    cases writes with
    | @mk mark middle digits tail negative places power sign mantissa ends =>
      have taken := takeSign_of_mantissa sign mantissa tail
      obtain ⟨c, rest, rfl, kind⟩ := mantissa.head
      have letter : c.toLower ≠ 'i' ∧ c.toLower ≠ 'n' := by
        rcases kind with digit | rfl
        · rw [toLower_of_isDigit digit]
          constructor <;> rintro rfl <;> exact absurd digit (by decide)
        · decide
      have read := readMagnitude?_of_mantissa negative mantissa ends
      rw [List.cons_append] at read taken
      rw [Double.ofText?, shape, List.cons_append, taken]
      simpa [letter] using read

end StrategyCompiler.Number
