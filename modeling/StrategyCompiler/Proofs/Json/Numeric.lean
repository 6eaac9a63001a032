import StrategyCompiler.Json.Numeric
import StrategyCompiler.Proofs.Number.Decimal
/-!
The numbers that values denote, exactly.  What is read from a value as a number is the double
nearest to the number it denotes.
-/

set_option autoImplicit false

namespace StrategyCompiler.Json.Value

open Number (Double Fits Fraction Writes)

/-- The exact number that a value denotes: a number denotes itself, a text the decimal it writes. -/
inductive Stands : Value → Fraction → Prop
  | integer (i : Int) : Stands (.integer i) (Fraction.ofInt i)
  | float {negative : Bool} {units : Nat} (fits : Fits units) :
      Stands (.float (.finite negative units fits)) ⟨negative, units, 1, Nat.one_pos⟩
  | text {text : String} {decimal : Number.Decimal} :
      Writes (Text.trim text).toList decimal → Stands (.string text) decimal.fraction

theorem Stands.unique {value : Value} {f g : Fraction} (first : Stands value f)
    (second : Stands value g) : f = g := by
  cases first with
  | integer i => cases second; rfl
  | float fits => cases second; rfl
  | text writes =>
    cases second with
    | text again => rw [writes.unique again]

theorem numeric?_eq_some_iff {value : Value} {x : Double} :
    value.numeric? = some x ↔ x.isFinite = true ∧ ∃ f, Stands value f ∧ f.nearest = x := by
  have filtered : value.numeric? = some x ↔ x.isFinite = true ∧ value.denoted? = some x := by
    rw [numeric?, Option.filter_eq_some_iff, and_comm]
  rw [filtered]
  refine and_congr_right fun real => ?_
  cases value with
  | null => exact ⟨nofun, fun ⟨_, stands, _⟩ => nomatch stands⟩
  | bool _ => exact ⟨nofun, fun ⟨_, stands, _⟩ => nomatch stands⟩
  | array _ => exact ⟨nofun, fun ⟨_, stands, _⟩ => nomatch stands⟩
  | object _ => exact ⟨nofun, fun ⟨_, stands, _⟩ => nomatch stands⟩
  | integer i =>
    constructor
    · intro read
      exact ⟨_, .integer i, Option.some.inj read⟩
    · rintro ⟨f, stands, rfl⟩
      cases stands
      rfl
  | float d =>
    constructor
    · intro read
      obtain rfl := Option.some.inj read
      cases d with
      | nan => exact absurd real Bool.false_ne_true
      | infinite _ => exact absurd real Bool.false_ne_true
      | finite negative units fits =>
        exact ⟨_, .float fits, Double.round_of_fits negative fits⟩
    · rintro ⟨f, stands, rfl⟩
      cases stands with
      | float fits => exact congrArg some (Double.round_of_fits _ fits).symm
  | string text =>
    change Double.ofText? (Text.trim text) = some x ↔ _
    rw [Number.ofText?_eq_some_iff real]
    constructor
    · rintro ⟨decimal, writes, same⟩
      exact ⟨_, .text writes, same⟩
    · rintro ⟨f, stands, same⟩
      cases stands with
      | text writes => exact ⟨_, writes, same⟩

theorem numeric?_of_stands {value : Value} {f : Fraction} (stands : Stands value f)
    (real : f.nearest.isFinite = true) : value.numeric? = some f.nearest :=
  numeric?_eq_some_iff.2 ⟨real, f, stands, rfl⟩

end StrategyCompiler.Json.Value
