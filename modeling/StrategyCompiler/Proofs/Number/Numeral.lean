import Mathlib.Algebra.Group.Nat.Defs
import StrategyCompiler.Number.Text
import StrategyCompiler.Proofs.Naming.Fresh
/-!
The written forms of finite numbers are decimals: digits with at most one point among them, behind
an optional minus sign.  A float literal of a whole number has a single point, because the shortest
numeral of a whole number is whole.
-/

set_option autoImplicit false

namespace StrategyCompiler.Number

def isDigits (cs : List Char) : Bool := !cs.isEmpty && cs.all Char.isDigit

/-- A decimal without a sign: digits, and more digits behind a point if there is one. -/
inductive IsUnsigned : List Char → Prop
  | whole {digits : List Char} : isDigits digits = true → IsUnsigned digits
  | fraction {digits more : List Char} : isDigits digits = true → isDigits more = true →
      IsUnsigned (digits ++ '.' :: more)

inductive IsDecimal : String → Prop
  | positive {cs : List Char} : IsUnsigned cs → IsDecimal (String.ofList cs)
  | negative {cs : List Char} : IsUnsigned cs → IsDecimal (String.ofList ('-' :: cs))

/-! ### Digits -/

theorem isDigits_append {cs more : List Char} (first : isDigits cs = true)
    (digits : more.all Char.isDigit = true) : isDigits (cs ++ more) = true := by
  simp only [isDigits, Bool.and_eq_true, Bool.not_eq_true', List.isEmpty_eq_false_iff] at first ⊢
  refine ⟨List.append_ne_nil_of_left_ne_nil first.1 more, ?_⟩
  rw [List.all_append, first.2, digits]
  rfl

private theorem all_isDigit_toDigits (number : Nat) :
    (Nat.toDigits 10 number).all Char.isDigit = true :=
  List.all_eq_true.2 fun _ member => Naming.isDigit_of_mem_toDigits member

private theorem isDigits_of_sublist {cs : List Char} {number : Nat} (nonempty : cs ≠ [])
    (subset : cs ⊆ Nat.toDigits 10 number) : isDigits cs = true := by
  simp only [isDigits, Bool.and_eq_true, Bool.not_eq_true', List.isEmpty_eq_false_iff]
  exact ⟨nonempty, List.all_eq_true.2 fun c member =>
    Naming.isDigit_of_mem_toDigits (subset member)⟩

theorem isDigits_toDigits (number : Nat) : isDigits (Nat.toDigits 10 number) = true :=
  isDigits_of_sublist Nat.toDigits_ne_nil fun _ member => member

theorem all_isDigit_zeros (n : Nat) : (zeros n).all Char.isDigit = true := by
  refine List.all_eq_true.2 fun c member => ?_
  rw [List.eq_of_mem_replicate member]
  rfl

/-! ### Numerals -/

theorem Numeral.isDigits_positional {n : Numeral} (whole : 0 ≤ n.exponent) :
    isDigits n.positional = true := by
  unfold positional
  dsimp only
  rw [if_pos whole]
  exact isDigits_append (isDigits_toDigits n.digits) (all_isDigit_zeros _)

theorem Numeral.exists_point {n : Numeral} (fine : n.exponent < 0) :
    ∃ digits more, isDigits digits = true ∧ isDigits more = true ∧
      n.positional = digits ++ '.' :: more := by
  unfold positional
  dsimp only
  rw [if_neg (by omega)]
  have long : 0 < (Nat.toDigits 10 n.digits).length := Nat.length_toDigits_pos
  split
  · -- The point stands behind the first digit and in front of the last.
    rename_i inside
    refine ⟨_, _, isDigits_of_sublist ?_ (List.take_subset _ _),
      isDigits_of_sublist ?_ (List.drop_subset _ _), rfl⟩
    · refine List.ne_nil_of_length_pos ?_
      rw [List.length_take]
      omega
    · refine List.ne_nil_of_length_pos ?_
      rw [List.length_drop]
      omega
  · have shown : isDigits (zeros (-(((Nat.toDigits 10 n.digits).length : Int) +
        n.exponent)).toNat ++ Nat.toDigits 10 n.digits) = true := by
      simp only [isDigits, Bool.and_eq_true, Bool.not_eq_true', List.isEmpty_eq_false_iff]
      refine ⟨List.append_ne_nil_of_right_ne_nil _ Nat.toDigits_ne_nil, ?_⟩
      rw [List.all_append, all_isDigit_zeros, all_isDigit_toDigits]
      rfl
    exact ⟨['0'], _, rfl, shown, rfl⟩

private theorem Numeral.isUnsigned_positional (n : Numeral) : IsUnsigned n.positional := by
  by_cases whole : 0 ≤ n.exponent
  · exact .whole (isDigits_positional whole)
  · obtain ⟨digits, more, first, second, shape⟩ := exists_point (Int.not_le.1 whole)
    rw [shape]
    exact .fraction first second

private theorem Numeral.exponent_normalize (n : Numeral) : n.exponent ≤ n.normalize.exponent := by
  fun_induction normalize n with
  | case1 n divides ih => exact Int.le_trans (Int.le_add_one (Int.le_refl n.exponent)) ih
  | case2 n kept => exact Int.le_refl _

private theorem Numeral.exponent_normalize_of_zeros {digits : Nat} (positive : 0 < digits)
    (places : Nat) (exponent : Int) :
    exponent + places ≤ (Numeral.mk (digits * 10 ^ places) exponent).normalize.exponent := by
  induction places generalizing exponent with
  | zero =>
    have kept := exponent_normalize ⟨digits * 10 ^ 0, exponent⟩
    dsimp only at kept
    omega
  | succ places ih =>
    have moved : digits * 10 ^ (places + 1) = digits * 10 ^ places * 10 := by
      rw [Nat.pow_succ, Nat.mul_assoc]
    have written : 0 < digits * 10 ^ places := Nat.mul_pos positive (Nat.pow_pos (by decide))
    have divides : digits * 10 ^ places * 10 ≠ 0 ∧ digits * 10 ^ places * 10 % 10 = 0 := by omega
    rw [moved, normalize, dif_pos divides]
    dsimp only
    rw [Nat.mul_div_cancel _ (by decide)]
    have := ih (exponent + 1)
    omega

/-! ### Whole numbers -/

theorem one_pos : 0 < one := powerOfTwo_pos 1074

theorem spacing_pos (units : Nat) : 0 < spacing units := powerOfTwo_pos _

private theorem Numeral.gapBelow_pos (units : Nat) : 0 < gapBelow units := by
  have := spacing_pos units
  unfold gapBelow
  split <;> omega

private theorem Numeral.exponent_onGrid? {tie : Tie} {units : Nat} {exponent : Int} {n : Numeral}
    (found : onGrid? tie units exponent = some n) : n.exponent = exponent := by
  unfold onGrid? at found
  dsimp only at found
  split at found
  · rw [← Option.some.inj found]
  · rw [← Option.some.inj found]
  · rw [← Option.some.inj found]
  · exact absurd found (by simp)

private theorem Numeral.roundsTo_exact {units digits num : Nat} (positive : 0 < units)
    (exact : digits * num = 4 * units) : roundsTo units digits num 1 = true := by
  have gap := gapBelow_pos units
  have wide := spacing_pos units
  unfold roundsTo
  simp only [exact, Nat.mul_one]
  split
  · simp only [Bool.and_eq_true, decide_eq_true_eq]
    omega
  · simp only [Bool.and_eq_true, decide_eq_true_eq]
    omega

private theorem mul_quarters (value unit : Nat) : value * (1 * (4 * unit)) = 4 *
    (value * unit) := by
  rw [Nat.one_mul, Nat.mul_left_comm]

private theorem quarters_div {unit : Nat} (positive : 0 < unit) (value : Nat) :
    4 * (value * unit) * 1 / (1 * (4 * unit)) = value := by
  rw [Nat.mul_one, ← mul_quarters, Nat.mul_div_cancel]
  omega

private theorem Numeral.isSome_onGrid? (tie : Tie) {units digits num den : Nat} {exponent : Int}
    (scale : powerOfTen exponent.toNat * (4 * one) = num)
    (fraction : powerOfTen (-exponent).toNat = den) (below : 4 * units * den / num = digits)
    (rounds : roundsTo units digits num den = true) :
    (onGrid? tie units exponent).isSome = true := by
  unfold onGrid?
  dsimp only
  rw [scale, fraction, below, rounds]
  cases roundsTo units (digits + 1) num den with
  | false => rfl
  | true => rfl

private theorem Numeral.isSome_onGrid?_zero (tie : Tie) {value : Nat} (positive : 0 < value) :
    (onGrid? tie (value * one) 0).isSome = true := by
  have rounds : roundsTo (value * one) value (1 * (4 * one)) 1 = true :=
    roundsTo_exact (Nat.mul_pos positive one_pos) (mul_quarters value one)
  have powers : powerOfTen (0 : Int).toNat = 1 ∧ powerOfTen (-0 : Int).toNat = 1 := by decide
  have scale : powerOfTen (0 : Int).toNat * (4 * one) = 1 * (4 * one) := by rw [powers.1]
  exact isSome_onGrid? tie scale powers.2 (quarters_div one_pos value) rounds

private theorem lt_digitCount_shifted {value : Nat} (places : Nat) (positive : 0 < value) :
    places < digitCount (value * powerOfTen places) := by
  rw [powerOfTen, Nat.pow_eq, digitCount]
  have least : 10 ^ places ≤ value * 10 ^ places := Nat.le_mul_of_pos_left _ positive
  by_cases none : places = 0
  · exact none ▸ Nat.length_toDigits_pos
  · refine Nat.lt_of_not_le fun few => Nat.not_lt.2 least ?_
    exact (Nat.length_toDigits_le_iff (by decide) (Nat.pos_of_ne_zero none)).1 few

private theorem mul_mul_div {unit : Nat} (positive : 0 < unit) (value power : Nat) :
    value * unit * power / unit = value * power := by
  rw [Nat.mul_right_comm, Nat.mul_div_cancel _ positive]

private theorem Numeral.leading_of_digitCount {units count : Nat}
    (same : digitCount (units * powerOfTen 400 / one) = count) : leading units = count - 401 := by
  rw [← same]
  rfl

private theorem Numeral.leading_nonneg {value : Nat} (positive : 0 < value) :
    0 ≤ leading (value * one) := by
  have more := lt_digitCount_shifted 400 positive
  have same := congrArg digitCount (mul_mul_div one_pos value (powerOfTen 400))
  rw [leading_of_digitCount same]
  omega

/-- The shortest numeral is whole if the grid of whole numbers has one: that grid is tried before
the finer ones. -/
private theorem Numeral.exponent_shortest_of_onGrid {tie : Tie} {units : Nat}
    (least : 0 ≤ leading units)
    (most : leading units ≤ 16) (whole : (onGrid? tie units 0).isSome = true) :
    0 ≤ (shortest tie units).exponent := by
  unfold shortest
  dsimp only
  generalize leading units = top at least most
  have cut : List.range 17 = List.range (top.toNat + 1) ++
      (List.range (16 - top.toNat)).map fun n => top.toNat + 1 + n := by
    rw [← List.range_add]
    congr 1
    omega
  have coarse : (((List.range (top.toNat + 1)).map fun n : Nat => top - n).findSome?
      (onGrid? tie units)).isSome = true := by
    rw [List.findSome?_isSome_iff]
    refine ⟨0, List.mem_map.2 ⟨top.toNat, List.mem_range.2 (Nat.lt_succ_self _), ?_⟩, whole⟩
    omega
  obtain ⟨numeral, found⟩ := Option.isSome_iff_exists.1 coarse
  obtain ⟨exponent, member, stands⟩ := List.exists_of_findSome?_eq_some found
  obtain ⟨n, inside, rfl⟩ := List.mem_map.1 member
  rw [List.mem_range] at inside
  have own := exponent_onGrid? stands
  rw [cut, List.map_append, List.findSome?_append, found, Option.some_or, Option.getD_some]
  refine Int.le_trans ?_ (exponent_normalize numeral)
  omega

private theorem Numeral.exponent_normalize_exact {units value : Nat} (positive : 0 < value)
    (whole : units = value * one) : 0 ≤ (exact units).normalize.exponent := by
  -- For any number of places, so that no power is computed.
  unfold exact
  unfold one powerOfTwo at whole
  generalize places : 1074 = exponent at whole ⊢
  have digits : units * Nat.pow 5 exponent = value * 10 ^ exponent := by
    rw [whole, Nat.mul_assoc, Nat.pow_eq, Nat.pow_eq, ← Nat.mul_pow]
  have zeros := exponent_normalize_of_zeros positive exponent (-1074)
  rw [digits]
  omega

private theorem Numeral.exponent_shortest_of_large {tie : Tie} {units : Nat}
    (large : 16 < leading units) (whole : 0 ≤ (exact units).normalize.exponent) :
    0 ≤ (shortest tie units).exponent := by
  unfold shortest
  dsimp only
  generalize found : List.findSome? _ _ = best
  cases best with
  | none => exact whole
  | some n =>
    obtain ⟨exponent, member, grid⟩ := List.exists_of_findSome?_eq_some found
    obtain ⟨step, inside, rfl⟩ := List.mem_map.1 member
    rw [List.mem_range] at inside
    have own := exponent_onGrid? grid
    refine Int.le_trans ?_ (exponent_normalize n)
    omega

private theorem Numeral.exponent_shortest (tie : Tie) {units value : Nat} (positive : 0 < value)
    (whole : units = value * one) : 0 ≤ (shortest tie units).exponent := by
  by_cases most : leading units ≤ 16
  · exact exponent_shortest_of_onGrid (whole ▸ leading_nonneg positive) most
      (whole ▸ isSome_onGrid?_zero tie positive)
  · exact exponent_shortest_of_large (Int.not_le.1 most) (exponent_normalize_exact positive whole)

/-! ### Written forms -/

private theorem Double.isDecimal_withSign {text : List Char} (negative : Bool)
    (own : IsUnsigned text) :
    IsDecimal (withSign negative text) := by
  cases negative with
  | false => exact .positive own
  | true => exact .negative own

private theorem Double.isDecimal_plain (negative : Bool) (units : Nat) (fits : Fits units) :
    IsDecimal (finite negative units fits).plain := by
  refine isDecimal_withSign negative ?_
  split
  · exact .whole rfl
  · exact (Numeral.shortest .upward units).isUnsigned_positional

theorem exists_digits_toString_int (value : Int) :
    ∃ negative digits, isDigits digits = true ∧ toString value = Double.withSign negative digits := by
  cases value with
  | ofNat value =>
    exact ⟨false, _, isDigits_toDigits value, Nat.toString_eq_ofList_toDigits⟩
  | negSucc value =>
    refine ⟨true, _, isDigits_toDigits (value + 1), ?_⟩
    change "-" ++ toString (value + 1) = String.ofList ('-' :: _)
    rw [Nat.toString_eq_ofList_toDigits, ← String.toList_inj]
    simp

theorem isDecimal_toString_int (value : Int) : IsDecimal (toString value) := by
  obtain ⟨negative, digits, own, shape⟩ := exists_digits_toString_int value
  rw [shape]
  exact Double.isDecimal_withSign negative (.whole own)

theorem Double.isDecimal_typed (negative : Bool) (units : Nat) (fits : Fits units) :
    IsDecimal (finite negative units fits).typed := by
  unfold typed
  split
  · exact isDecimal_toString_int _
  · exact isDecimal_plain negative units fits

theorem nearest_of_fits {units : Nat} (fits : Fits units) : nearest units 1 = units := by
  have wide := spacing_pos units
  unfold nearest divideToEven
  rw [Nat.div_one, Nat.one_mul, fits.2, if_pos (by omega)]
  exact Nat.div_mul_cancel (Nat.dvd_of_mod_eq_zero fits.2)

theorem Double.round_of_fits (negative : Bool) {units : Nat} (fits : Fits units) :
    round negative units 1 = finite negative units fits := by
  unfold round
  simp only [nearest_of_fits fits, fits.1, dite_true]

private theorem Double.lt_finite {units bound : Nat} {fits : Fits units} {exact : Fits bound}
    (below : (finite false units fits).lt (finite false bound exact) = true) : units < bound :=
  Int.ofNat_lt.1 (of_decide_eq_true below)

theorem Double.ofInt_of_fits {value : Nat} (exact : Fits (value * one)) :
    ofInt value = finite false (value * one) exact := by
  unfold ofInt
  rw [Int.natAbs_natCast, decide_eq_false (by omega)]
  exact round_of_fits false exact

theorem Double.lt_ofInt {units bound : Nat} {fits : Fits units} (exact : Fits (bound * one))
    (below : (finite false units fits).lt (ofInt bound) = true) : units < bound * one := by
  rw [ofInt_of_fits exact] at below
  exact lt_finite below

theorem Double.units_of_isShortWhole {negative : Bool} {units : Nat} {fits : Fits units}
    (short : (finite negative units fits).isShortWhole = true) :
    ∃ value, units = value * one ∧ value < 1000000000000000 := by
  simp only [isShortWhole, isWhole, Bool.and_eq_true, beq_iff_eq] at short
  obtain ⟨whole, small⟩ := short
  have under : units < 1000000000000000 * one := lt_ofInt (by decide +kernel) small
  refine ⟨units / one, (Nat.div_mul_cancel (Nat.dvd_of_mod_eq_zero whole)).symm, ?_⟩
  exact (Nat.div_lt_iff_lt_mul one_pos).2 under

theorem Double.isDigits_of_whole {units value : Nat} (whole : units = value * one) :
    isDigits (if units == 0 then ['0'] else (Numeral.shortest .upward units).positional) =
      true := by
  split
  · rfl
  · rename_i nonzero
    have positive : 0 < value := by
      refine Nat.pos_of_ne_zero fun zero => nonzero ?_
      rw [whole, zero, Nat.zero_mul]
      rfl
    exact Numeral.isDigits_positional (Numeral.exponent_shortest .upward positive whole)

theorem Double.isDecimal_literal (negative : Bool) (units : Nat) (fits : Fits units) :
    IsDecimal (finite negative units fits).literal := by
  unfold literal
  split
  · rename_i short
    obtain ⟨value, same, -⟩ := units_of_isShortWhole short
    have shape {text : List Char} : withSign negative text ++ ".0" =
        withSign negative (text ++ '.' :: ['0']) := by
      rw [← String.toList_inj]
      cases negative <;> simp [withSign]
    rw [plain, shape]
    exact isDecimal_withSign negative (.fraction (isDigits_of_whole same) (by decide))
  · exact isDecimal_plain negative units fits

end StrategyCompiler.Number
