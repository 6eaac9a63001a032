import Mathlib.Tactic.ByContra
import StrategyCompiler.Proofs.Json.Numeric
import StrategyCompiler.Proofs.Validation.Parameters
/-!
What a parameter takes from a configured value.  The values that it admits are said without the
reader: by their type, their exact place between the bounds, the options and the price series.  A
value that denotes an admitted one is accepted, what is accepted is admitted, and what is refused
is refused for the first check that it fails.
-/

set_option autoImplicit false

namespace StrategyCompiler.Catalogue

open Json.Value (Stands)
open Number (Double Fraction)
open Validation (KnownSeries)

namespace Setting

/-- The exact place of a number on the line of units. -/
def place? : Setting → Option Int
  | int value => some (value * Number.one)
  | float value => value.place?
  | _ => none

def IsReal : Setting → Prop
  | int value => Double.IsInt64 value
  | float value => value.isFinite = true
  | _ => True

def toJson : Setting → Json.Value
  | int value => .integer value
  | float value => .float value
  | bool value => .bool value
  | string value => .string value
  | source series => .string series

end Setting

/-! ### Values and their texts -/

/-- A value is written by a configured one, exactly. -/
inductive Denotes : Json.Value → Setting → Prop
  | int {raw : Json.Value} {f : Fraction} {i : Int} :
      Stands raw f → f.IsInteger i → Denotes raw (.int i)
  | float {raw : Json.Value} {f : Fraction} : Stands raw f → Denotes raw (.float f.nearest)
  | bool {value : Bool} : Denotes (.bool value) (.bool value)
  | truth {text : String} {value : Bool} :
      Text.lower text = toString value → Denotes (.string text) (.bool value)
  | string {text : String} : Denotes (.string text) (.string text)
  | source {text : String} : Denotes (.string text) (.source (Text.lower (Text.trim text)))

/-- A value of a type is read from a configured one: a number by the double nearest to it, which is
whole and cut to 64 bits where an integer is read. -/
inductive Reads : SettingType → Json.Value → Setting → Prop
  | int {raw : Json.Value} {f : Fraction} : Stands raw f → f.nearest.isWhole = true →
      Reads .int raw (.int f.nearest.toInt64)
  | float {raw : Json.Value} {f : Fraction} : Stands raw f → f.nearest.isFinite = true →
      Reads .float raw (.float f.nearest)
  | bool {value : Bool} : Reads .bool (.bool value) (.bool value)
  | truth {text : String} {value : Bool} :
      Text.lower text = toString value → Reads .bool (.string text) (.bool value)
  | string {text : String} : Reads .string (.string text) (.string text)
  | source {text : String} :
      Reads .source (.string text) (.source (Text.lower (Text.trim text)))

private theorem truth?_eq_some_iff {text : String} {value : Bool} :
    Parameter.truth? text = some value ↔ Text.lower text = toString value := by
  unfold Parameter.truth?
  cases value with
  | true =>
    change _ ↔ Text.lower text = "true"
    by_cases yes : Text.lower text = "true"
    · simp [yes]
    · by_cases no : Text.lower text = "false" <;> simp [yes, no]
  | false =>
    change _ ↔ Text.lower text = "false"
    by_cases yes : Text.lower text = "true"
    · simp [yes]
    · by_cases no : Text.lower text = "false" <;> simp [yes, no]

theorem Reads.type {type : SettingType} {raw : Json.Value} {value : Setting}
    (reads : Reads type raw value) : value.type = type := by
  cases reads <;> rfl

private theorem Reads.isReal {type : SettingType} {raw : Json.Value} {value : Setting}
    (reads : Reads type raw value) : value.IsReal := by
  cases reads with
  | int _ _ => exact Double.isInt64_toInt64 _
  | float _ real => exact real
  | _ => trivial

namespace Parameter

variable {parameter : Parameter} {raw : Json.Value} {value : Setting}

inductive Outcome (type : SettingType) (raw : Json.Value) : Except Violation Setting → Prop
  | ok {value : Setting} : Reads type raw value → KnownSeries value → Outcome type raw (.ok value)
  | wrongType : (∀ value, ¬ Reads type raw value) → Outcome type raw (.error (.wrongType raw))
  | unknownSeries {text series : String} : raw = .string text →
      Reads type raw (.source series) → series ∉ Script.priceSeries →
      Outcome type raw (.error (.notAnOption text Script.priceSeries))

private theorem outcome_int (raw : Json.Value) :
    Outcome .int raw
      (match raw.numeric? with
        | some number =>
          if number.isWhole then .ok (.int number.toInt64) else .error (.wrongType raw)
        | none => .error (.wrongType raw)) := by
  cases read : raw.numeric? with
  | none =>
    refine .wrongType ?_
    intro _ reads
    cases reads with
    | int stands whole =>
      have found := Json.Value.numeric?_of_stands stands (Double.isFinite_of_isWhole whole)
      exact nomatch read.symm.trans found
  | some x =>
    obtain ⟨real, f, stands, rfl⟩ := Json.Value.numeric?_eq_some_iff.1 read
    dsimp only
    cases whole : f.nearest.isWhole with
    | true => exact .ok (.int stands whole) nofun
    | false =>
      refine .wrongType ?_
      intro _ reads
      cases reads with
      | int other fits =>
        have found := Json.Value.numeric?_of_stands other (Double.isFinite_of_isWhole fits)
        rw [← Option.some.inj (read.symm.trans found), whole] at fits
        exact Bool.false_ne_true fits

private theorem outcome_float (raw : Json.Value) :
    Outcome .float raw
      (match raw.numeric? with
        | some number => .ok (.float number)
        | none => .error (.wrongType raw)) := by
  cases read : raw.numeric? with
  | none =>
    refine .wrongType ?_
    intro _ reads
    cases reads with
    | float stands real =>
      exact nomatch read.symm.trans (Json.Value.numeric?_of_stands stands real)
  | some x =>
    obtain ⟨real, f, stands, rfl⟩ := Json.Value.numeric?_eq_some_iff.1 read
    exact .ok (.float stands real) nofun

private theorem outcome_convert (parameter : Parameter) (raw : Json.Value) :
    Outcome parameter.type raw (parameter.convert raw) := by
  unfold convert
  cases parameter.type with
  | int => exact outcome_int raw
  | float => exact outcome_float raw
  | bool =>
    cases raw with
    | bool b => exact .ok .bool nofun
    | string text =>
      dsimp only
      cases truth : truth? text with
      | some b => exact .ok (.truth (truth?_eq_some_iff.1 truth)) nofun
      | none =>
        refine .wrongType ?_
        intro _ reads
        cases reads with
        | truth same =>
          have read := truth?_eq_some_iff.2 same
          rw [truth] at read
          exact nomatch read
    | _ => exact .wrongType fun _ reads => nomatch reads
  | string =>
    cases raw with
    | string text => exact .ok .string nofun
    | _ => exact .wrongType fun _ reads => nomatch reads
  | source =>
    cases raw with
    | string text =>
      dsimp only
      split
      · rename_i known
        refine .ok .source fun series same => ?_
        rw [← Setting.source.inj same]
        exact List.contains_iff_mem.1 known
      · rename_i unknown
        exact .unknownSeries rfl .source fun known => unknown (List.contains_iff_mem.2 known)
    | _ => exact .wrongType fun _ reads => nomatch reads

private theorem reads_unique {type : SettingType} {other : Setting} (first : Reads type raw value)
    (second : Reads type raw other) : value = other := by
  have numbers {f g : Fraction} (left : Stands raw f) (real : f.nearest.isFinite = true)
      (right : Stands raw g) (fits : g.nearest.isFinite = true) : f.nearest = g.nearest := by
    have first := Json.Value.numeric?_of_stands left real
    have second := Json.Value.numeric?_of_stands right fits
    exact Option.some.inj (first.symm.trans second)
  cases first with
  | int stands whole =>
    cases second with
    | int stays fits =>
      rw [numbers stands (Double.isFinite_of_isWhole whole) stays
        (Double.isFinite_of_isWhole fits)]
  | float stands real =>
    cases second with
    | float stays fits => rw [numbers stands real stays fits]
  | bool => cases second; rfl
  | truth same =>
    cases second with
    | truth again =>
      have read := truth?_eq_some_iff.2 same
      rw [truth?_eq_some_iff.2 again] at read
      rw [Option.some.inj read]
  | string => cases second; rfl
  | source => cases second; rfl

theorem convert_eq_ok_iff :
    parameter.convert raw = .ok value ↔ Reads parameter.type raw value ∧ KnownSeries value := by
  have outcome := outcome_convert parameter raw
  generalize parameter.convert raw = result at outcome
  constructor
  · rintro rfl
    cases outcome with
    | ok reads known => exact ⟨reads, known⟩
  · rintro ⟨reads, known⟩
    cases outcome with
    | ok found _ => rw [reads_unique found reads]
    | wrongType none => exact absurd reads (none value)
    | unknownSeries text found unknown =>
      obtain rfl := reads_unique found reads
      exact absurd (known _ rfl) unknown

def Outside (parameter : Parameter) (number : Double) : Prop :=
  (∃ bound ∈ parameter.min, number.lt bound = true) ∨
    ∃ bound ∈ parameter.max, bound.lt number = true

private theorem allows_eq_false_iff {number : Double} :
    parameter.allows number = false ↔ parameter.Outside number := by
  have bounds : parameter.allows number = false ↔
      (parameter.min.any fun bound => number.lt bound) = true ∨
        (parameter.max.any fun bound => bound.lt number) = true := by
    rw [allows, Bool.and_eq_false_iff, Bool.not_eq_false', Bool.not_eq_false']
  rw [bounds, Option.any_eq_true, Option.any_eq_true]
  rfl

/-- Why a value that was read is not accepted: a number for the bounds, a text for the options. -/
inductive Breach (parameter : Parameter) : Setting → Violation → Prop
  | outOfRange {value : Setting} {number : Double} : value.number? = some number →
      parameter.Outside number →
      Breach parameter value (.outOfRange number parameter.min parameter.max)
  | notAnOption {text : String} : parameter.options ≠ [] → text ∉ parameter.options →
      Breach parameter (.string text) (.notAnOption text parameter.options)

private theorem check_number {number : Double} (shown : value.number? = some number) :
    parameter.check value =
      if parameter.allows number then .ok ()
      else .error (.outOfRange number parameter.min parameter.max) := by
  cases value with
  | int i => obtain rfl := Option.some.inj shown; rfl
  | float d => obtain rfl := Option.some.inj shown; rfl
  | bool _ => exact nomatch shown
  | string _ => exact nomatch shown
  | source _ => exact nomatch shown

private theorem check_eq_error_iff {violation : Violation} :
    parameter.check value = .error violation ↔ parameter.Breach value violation := by
  constructor
  · intro failed
    cases shown : value.number? with
    | some number =>
      rw [check_number shown] at failed
      split at failed
      · exact nomatch failed
      · rename_i outside
        rw [← Except.error.inj failed]
        exact .outOfRange shown (allows_eq_false_iff.1 (Bool.eq_false_iff.2 outside))
    | none =>
      cases value with
      | string text =>
        rw [check] at failed
        split at failed
        · exact nomatch failed
        · rename_i other
          simp only [Bool.or_eq_true, List.isEmpty_iff, List.contains_iff_mem, not_or] at other
          rw [← Except.error.inj failed]
          exact .notAnOption other.1 other.2
      | int _ => exact nomatch shown
      | float _ => exact nomatch shown
      | bool _ => exact nomatch failed
      | source _ => exact nomatch failed
  · rintro (⟨shown, outside⟩ | ⟨given, other⟩)
    · rw [check_number shown, allows_eq_false_iff.2 outside]
      rfl
    · rw [check, if_neg]
      simp only [Bool.or_eq_true, List.isEmpty_iff, List.contains_iff_mem, not_or]
      exact ⟨given, other⟩

private theorem check_eq_ok_iff :
    parameter.check value = .ok () ↔ ∀ violation, ¬ parameter.Breach value violation := by
  simp only [← check_eq_error_iff]
  cases parameter.check value with
  | ok _ => simp
  | error violation => simp

theorem coerce_eq_ok_iff :
    parameter.coerce raw = .ok value ↔
      parameter.convert raw = .ok value ∧ parameter.check value = .ok () := by
  unfold coerce
  cases parameter.convert raw with
  | error violation => exact ⟨nofun, fun both => nomatch both.1⟩
  | ok found =>
    constructor
    · intro accepted
      cases checked : parameter.check found with
      | error violation =>
        simp [checked, bind, Except.bind] at accepted
      | ok _ =>
        obtain rfl : found = value := by
          simpa [checked, bind, Except.bind, pure, Except.pure] using accepted
        exact ⟨rfl, checked⟩
    · rintro ⟨same, checked⟩
      rw [Except.ok.inj same]
      simp [checked, bind, Except.bind, pure, Except.pure]

private theorem coerce_eq_error_iff {violation : Violation} :
    parameter.coerce raw = .error violation ↔
      parameter.convert raw = .error violation ∨
        ∃ value, parameter.convert raw = .ok value ∧ parameter.check value = .error violation := by
  unfold coerce
  cases parameter.convert raw with
  | error cause => simp [bind, Except.bind]
  | ok found => cases checked : parameter.check found <;>
      simp [checked, bind, Except.bind, pure, Except.pure]

/-- Why a configured value is refused, by the first check that it fails: nothing of the type is
read from it, it names no series, or what is read is not accepted. -/
inductive Refuses (parameter : Parameter) (raw : Json.Value) : Violation → Prop
  | wrongType : (∀ value, ¬ Reads parameter.type raw value) →
      Refuses parameter raw (.wrongType raw)
  | unknownSeries {text series : String} : raw = .string text →
      Reads parameter.type raw (.source series) → series ∉ Script.priceSeries →
      Refuses parameter raw (.notAnOption text Script.priceSeries)
  | breach {value : Setting} {violation : Violation} : Reads parameter.type raw value →
      parameter.Breach value violation → Refuses parameter raw violation

private theorem coerce_eq_error_iff_refuses {violation : Violation} :
    parameter.coerce raw = .error violation ↔ parameter.Refuses raw violation := by
  rw [coerce_eq_error_iff]
  have outcome := outcome_convert parameter raw
  constructor
  · rintro (failed | ⟨value, converted, failed⟩)
    · rw [failed] at outcome
      cases outcome with
      | wrongType none => exact .wrongType none
      | unknownSeries text reads unknown => exact .unknownSeries text reads unknown
    · exact .breach (convert_eq_ok_iff.1 converted).1 (check_eq_error_iff.1 failed)
  · intro refused
    generalize converted : parameter.convert raw = result at outcome
    cases refused with
    | wrongType none =>
      cases outcome with
      | ok reads _ => exact absurd reads (none _)
      | wrongType _ => exact .inl rfl
      | unknownSeries _ reads _ => exact absurd reads (none _)
    | unknownSeries text reads unknown =>
      cases outcome with
      | ok found known =>
        obtain rfl := reads_unique reads found
        exact absurd (known _ rfl) unknown
      | wrongType none => exact absurd reads (none _)
      | unknownSeries other found _ =>
        obtain rfl := Json.Value.string.inj (text.symm.trans other)
        exact .inl rfl
    | @breach value _ reads breach =>
      have known : KnownSeries value := by
        rintro series rfl
        cases breach with
        | outOfRange shown _ => exact nomatch shown
      exact .inr ⟨value, converted ▸ convert_eq_ok_iff.2 ⟨reads, known⟩,
        check_eq_error_iff.2 breach⟩

/-! ### Places between the bounds -/

/-- A number lies between the bounds, exactly.  NaN lies between no bounds, and bounds nothing. -/
def Within (parameter : Parameter) (value : Setting) : Prop :=
  value.type.isNumeric = true →
    (∀ bound ∈ parameter.min, ∀ low ∈ bound.place?, ∃ place ∈ value.place?, low ≤ place) ∧
      ∀ bound ∈ parameter.max, ∀ high ∈ bound.place?, ∃ place ∈ value.place?, place ≤ high

/-- A value has the type of a parameter, is one of the options of a text, and one of the price
series when it is a source. -/
structure Admits (parameter : Parameter) (value : Setting) : Prop where
  type : value.type = parameter.type
  real : value.IsReal
  option : ∀ text, value = .string text → parameter.options = [] ∨ text ∈ parameter.options
  series : KnownSeries value

/-- The minimum of an integer is the double next to the greatest integer, so that no integer
reaches it. -/
def MinimumBeyond (parameter : Parameter) : Prop :=
  parameter.type = .int ∧
    ∃ bound ∈ parameter.min, bound.place? = some ((Double.greatestInt64 + 1) * Number.one)

theorem allows_iff {number : Double} {place : Int} (stands : number.place? = some place) :
    parameter.allows number = true ↔
      (∀ bound ∈ parameter.min, ∀ low ∈ bound.place?, low ≤ place) ∧
        ∀ bound ∈ parameter.max, ∀ high ∈ bound.place?, place ≤ high := by
  have below (bound : Double) : number.lt bound = false ↔ ∀ low ∈ bound.place?, low ≤ place := by
    cases other : bound.place? with
    | none => simp [Double.lt, stands, other]
    | some low => simpa using Double.lt_eq_false_iff stands other
  have above (bound : Double) : bound.lt number = false ↔ ∀ high ∈ bound.place?, place ≤ high := by
    cases other : bound.place? with
    | none => simp [Double.lt, other]
    | some high => simpa using Double.lt_eq_false_iff other stands
  simp only [← below, ← above]
  unfold allows
  cases parameter.min <;> cases parameter.max <;> simp

private theorem exists_place? {x : Double} (real : x.isFinite = true) :
    ∃ place, x.place? = some place := by
  cases x with
  | nan => exact absurd real Bool.false_ne_true
  | infinite negative => exact ⟨_, rfl⟩
  | finite negative units fits => exact ⟨_, rfl⟩

theorem allows_of_check {number : Double} (shown : value.number? = some number)
    (passed : parameter.check value = .ok ()) : parameter.allows number = true := by
  rw [check_number shown] at passed
  split at passed
  · rename_i allowed
    exact allowed
  · exact nomatch passed

theorem check_of_allows {number : Double} (shown : value.number? = some number)
    (allowed : parameter.allows number = true) : parameter.check value = .ok () := by
  rw [check_number shown, if_pos allowed]

/-- What is accepted lies between the bounds, but for the greatest integer in the place of numbers
beyond it. -/
private theorem within_iff {type : SettingType} (own : parameter.type = type)
    (reads : Reads type raw value)
    (passed : parameter.check value = .ok ()) :
    parameter.Within value ↔ ¬ parameter.MinimumBeyond := by
  have other (ne : type ≠ .int) : ¬ parameter.MinimumBeyond := fun beyond =>
    ne (own.symm.trans beyond.1)
  cases reads with
  | @int _ f stands whole =>
    have keeps := Double.keepsPlace_toInt64 whole
    have inside := Double.isInt64_toInt64 f.nearest
    have place := Double.place?_ofInt f.nearest.toInt64
    obtain ⟨least, most⟩ := (allows_iff place).1 (allows_of_check rfl passed)
    constructor
    · rintro within ⟨-, bound, given, beyond⟩
      obtain ⟨place, shown, le⟩ := (within rfl).1 bound given _ beyond
      rw [← Option.some.inj shown, Double.mul_one_le_iff] at le
      have := inside.2
      omega
    · intro reached _
      constructor
      · intro bound given low shown
        refine ⟨_, rfl, ?_⟩
        have le := least bound given low shown
        rcases (Double.le_integerPlace_iff shown keeps).1 le with exact | ⟨-, rfl⟩
        · exact exact
        · exact absurd ⟨own, bound, given, shown⟩ reached
      · intro bound given high shown
        refine ⟨_, rfl, ?_⟩
        exact (Double.integerPlace_le_iff shown keeps).1 (most bound given high shown)
  | @float _ f stands real =>
    have allowed : parameter.allows f.nearest = true := allows_of_check rfl passed
    obtain ⟨place, stands⟩ := exists_place? real
    obtain ⟨least, most⟩ := (allows_iff stands).1 allowed
    refine ⟨fun _ => other nofun, fun _ _ => ⟨fun bound given low shown => ?_, ?_⟩⟩
    · exact ⟨place, stands, least bound given low shown⟩
    · exact fun bound given high shown => ⟨place, stands, most bound given high shown⟩
  | bool => exact ⟨fun _ => other nofun, fun _ numeric => nomatch numeric⟩
  | truth _ => exact ⟨fun _ => other nofun, fun _ numeric => nomatch numeric⟩
  | string => exact ⟨fun _ => other nofun, fun _ numeric => nomatch numeric⟩
  | source => exact ⟨fun _ => other nofun, fun _ numeric => nomatch numeric⟩

theorem admits_of_coerce (accepted : parameter.coerce raw = .ok value) :
    parameter.Admits value := by
  obtain ⟨converted, passed⟩ := coerce_eq_ok_iff.1 accepted
  obtain ⟨reads, known⟩ := convert_eq_ok_iff.1 converted
  refine ⟨reads.type, reads.isReal, ?_, known⟩
  rintro text rfl
  by_contra neither
  rw [not_or] at neither
  exact check_eq_ok_iff.1 passed _ (.notAnOption neither.1 neither.2)

theorem within_of_coerce (accepted : parameter.coerce raw = .ok value) :
    parameter.Within value ↔ ¬ parameter.MinimumBeyond := by
  obtain ⟨converted, passed⟩ := coerce_eq_ok_iff.1 accepted
  exact within_iff rfl (convert_eq_ok_iff.1 converted).1 passed

/-! ### Written values -/

private theorem reads_toJson {type : SettingType} (reads : Reads type raw value) :
    Reads type value.toJson value := by
  cases reads with
  | @int _ f stands whole =>
    have place := Double.place?_ofInt f.nearest.toInt64
    have again := Double.isWhole_of_integerPlace (Double.isInt64_toInt64 f.nearest) place
    have same : (Double.ofInt f.nearest.toInt64).toInt64 = f.nearest.toInt64 :=
      Double.toInt64_ofInt_toInt64 whole
    generalize f.nearest.toInt64 = i at again same
    rw [← Fraction.nearest_ofInt] at again same
    have written := Reads.int (.integer i) again.1
    rwa [same] at written
  | @float _ f stands real =>
    generalize f.nearest = x at real
    cases x with
    | nan => exact absurd real Bool.false_ne_true
    | infinite _ => exact absurd real Bool.false_ne_true
    | finite negative units fits =>
      have nearest : Fraction.nearest ⟨negative, units, 1, Nat.one_pos⟩ =
          .finite negative units fits := Double.round_of_fits negative fits
      have written := Reads.float (.float fits) (nearest ▸ real)
      rwa [nearest] at written
  | bool => exact .bool
  | truth _ => exact .bool
  | string => exact .string
  | @source text =>
    have written : Reads .source (.string (Text.lower (Text.trim text)))
        (.source (Text.lower (Text.trim (Text.lower (Text.trim text))))) := .source
    rwa [Text.lower_trim_lower_trim] at written

private theorem coerce_toJson (accepted : parameter.coerce raw = .ok value) :
    parameter.coerce value.toJson = .ok value := by
  obtain ⟨converted, passed⟩ := coerce_eq_ok_iff.1 accepted
  obtain ⟨reads, known⟩ := convert_eq_ok_iff.1 converted
  exact coerce_eq_ok_iff.2 ⟨convert_eq_ok_iff.2 ⟨reads_toJson reads, known⟩, passed⟩

/-- An integer that is denoted is read as one at the same place, which is itself when it has at
most 53 bits. -/
private theorem reads_int {f : Fraction} {i : Int} (stands : Stands raw f) (whole : f.IsInteger i)
    (inside : Double.IsInt64 i) :
    ∃ j, Reads .int raw (.int j) ∧ Double.integerPlace j = Double.integerPlace i ∧
      (i.natAbs < Number.powerOfTwo 53 → j = i) := by
  have place := Fraction.place?_nearest whole
  obtain ⟨own, same⟩ := Double.isWhole_of_integerPlace inside place
  exact ⟨f.nearest.toInt64, .int stands own, same,
    fun small => Double.toInt64_of_isKept (Double.isKept_of_lt small) place⟩

theorem allows_of_within {i : Int} {number : Double} (within : parameter.Within (.int i))
    (stands : number.place? = some (Double.integerPlace i)) : parameter.allows number = true := by
  obtain ⟨least, most⟩ := within rfl
  refine (allows_iff stands).2
    ⟨fun bound given low shown => ?_, fun bound given high shown => ?_⟩
  · obtain ⟨own, place, le⟩ := least bound given low shown
    rw [← Option.some.inj place] at le
    exact Double.le_integerPlace shown le
  · obtain ⟨own, place, le⟩ := most bound given high shown
    rw [← Option.some.inj place] at le
    exact Double.integerPlace_le shown le

private theorem coerce_of_denotes (denotes : Denotes raw value) (admits : parameter.Admits value)
    (within : parameter.Within value) :
    ∃ accepted, parameter.coerce raw = .ok accepted ∧
      ((∀ i, value = .int i → i.natAbs < Number.powerOfTwo 53) → accepted = value) := by
  have accept {found : Setting} (reads : Reads parameter.type raw found) (known : KnownSeries found)
      (passed : parameter.check found = .ok ()) : parameter.coerce raw = .ok found :=
    coerce_eq_ok_iff.2 ⟨convert_eq_ok_iff.2 ⟨reads, known⟩, passed⟩
  have type := admits.type
  cases denotes with
  | @int _ f i stands whole =>
    obtain ⟨j, reads, same, small⟩ := reads_int stands whole admits.real
    have place : (Double.ofInt j).place? = some (Double.integerPlace i) := by
      rw [Double.place?_ofInt, same]
    have allowed : parameter.allows (Double.ofInt j) = true := allows_of_within within place
    have known : KnownSeries (.int j) := nofun
    refine ⟨.int j, accept (type ▸ reads) known (check_of_allows rfl allowed), fun bits => ?_⟩
    rw [small (bits i rfl)]
  | @float _ f stands =>
    obtain ⟨place, own⟩ := exists_place? admits.real
    obtain ⟨least, most⟩ := within rfl
    have allowed : parameter.allows f.nearest = true := by
      refine (allows_iff own).2 ⟨fun bound given low shown => ?_, fun bound given high shown => ?_⟩
      · obtain ⟨other, stands, le⟩ := least bound given low shown
        rwa [Option.some.inj (stands.symm.trans own)] at le
      · obtain ⟨other, stands, le⟩ := most bound given high shown
        rwa [Option.some.inj (stands.symm.trans own)] at le
    exact ⟨_, accept (type ▸ .float stands admits.real) admits.series (check_of_allows rfl allowed),
      fun _ => rfl⟩
  | bool => exact ⟨_, accept (type ▸ .bool) admits.series rfl, fun _ => rfl⟩
  | truth same => exact ⟨_, accept (type ▸ .truth same) admits.series rfl, fun _ => rfl⟩
  | @string text =>
    have passed : parameter.check (.string text) = .ok () := by
      refine check_eq_ok_iff.2 fun violation breach => ?_
      cases breach with
      | outOfRange shown _ => exact nomatch shown
      | notAnOption given other => exact (admits.option text rfl).elim given other
    exact ⟨_, accept (type ▸ .string) admits.series passed, fun _ => rfl⟩
  | source => exact ⟨_, accept (type ▸ .source) admits.series rfl, fun _ => rfl⟩

/-- What a parameter accepts is admitted, lies between the bounds unless no integer reaches the
minimum, and is accepted again in its written form.  Whatever denotes an admitted value between the
bounds is accepted, and all else is refused for the first check that fails. -/
theorem coerce_exact (parameter : Parameter) (raw : Json.Value) :
    (∀ value, parameter.coerce raw = .ok value →
      parameter.Admits value ∧ (parameter.Within value ↔ ¬ parameter.MinimumBeyond) ∧
        parameter.coerce value.toJson = .ok value) ∧
    (∀ value, Denotes raw value → parameter.Admits value → parameter.Within value →
      ∃ accepted, parameter.coerce raw = .ok accepted ∧
        ((∀ i, value = .int i → i.natAbs < Number.powerOfTwo 53) → accepted = value)) ∧
    ∀ violation, parameter.coerce raw = .error violation ↔ parameter.Refuses raw violation := by
  refine ⟨fun value accepted => ?_, fun value denotes admits within => ?_, fun violation => ?_⟩
  · exact ⟨admits_of_coerce accepted, within_of_coerce accepted, coerce_toJson accepted⟩
  · exact coerce_of_denotes denotes admits within
  · exact coerce_eq_error_iff_refuses

def farLength : Parameter :=
  ((ofDefault "length" (.int 0)).between (Double.ofInt 9223372036854775808)
    (Double.ofInt 10000000000000000000)).mandatory

/-- The greatest integer lies below the minimum and is accepted: the bounds are checked on the
double that the integer is rounded to. -/
theorem coerce_farLength :
    farLength.coerce (.integer 9223372036854775807) = .ok (.int 9223372036854775807) ∧
      ¬ farLength.Within (.int 9223372036854775807) := by
  have whole : (Fraction.ofInt 9223372036854775807).nearest.isWhole = true := by decide +kernel
  have read : (Fraction.ofInt 9223372036854775807).nearest.toInt64 = 9223372036854775807 := by
    decide +kernel
  have reads := Reads.int (.integer 9223372036854775807) whole
  rw [read] at reads
  have allowed : farLength.allows (Double.ofInt 9223372036854775807) = true := by decide +kernel
  have accepted : farLength.coerce (.integer 9223372036854775807) =
      .ok (.int 9223372036854775807) :=
    coerce_eq_ok_iff.2 ⟨convert_eq_ok_iff.2 ⟨reads, nofun⟩, check_of_allows rfl allowed⟩
  have beyond : (Double.ofInt 9223372036854775808).place? =
      some ((Double.greatestInt64 + 1) * Number.one) := by decide +kernel
  refine ⟨accepted, fun within => ?_⟩
  exact (within_of_coerce accepted).1 within ⟨rfl, _, rfl, beyond⟩

end Parameter

end StrategyCompiler.Catalogue
