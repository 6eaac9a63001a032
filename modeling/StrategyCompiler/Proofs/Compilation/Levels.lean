import Mathlib.Algebra.Order.Field.Basic
import Mathlib.Algebra.Order.Field.Rat
import StrategyCompiler.Proofs.Compilation.Accounting
import StrategyCompiler.Proofs.Number.Monotone
/-!
The prices that protect a position.  A level is a percentage away from the entry price, and the
script multiplies that price by a factor of ten decimals.  The factor moves with the level, but it
has a grid and an end: levels near zero and near a hundred per cent are lost in the rounding, and
profits beyond all measure have no number.
-/

set_option autoImplicit false

namespace StrategyCompiler.Compilation

open Catalogue (builtin)
open Number (Double Fits ceiling fits_whole halfUp halfUp_mono nearest nearest_mono nearest_of_fits
  one powerOfTen spacing)
open StrategyCompiler.Graph (Levels Node)
open Script (Argument Call Expr)
open Validation (validate validate_errors_eq_nil_iff)

/-! ### Ten decimals -/

def tenBillionths (units : Nat) : Nat := nearest (units * 10000000000) 1

def tenDecimals (units : Nat) : Nat :=
  nearest (nearest (halfUp (tenBillionths units)) 1) 10000000000

private theorem tenBillionths_mono {less more : Nat} (le : less ≤ more) :
    tenBillionths less ≤ tenBillionths more :=
  nearest_mono Nat.one_pos (Nat.mul_le_mul_right _ le)

private theorem tenDecimals_mono {less more : Nat} (le : less ≤ more) :
    tenDecimals less ≤ tenDecimals more := by
  apply nearest_mono (by decide)
  apply nearest_mono Nat.one_pos
  exact halfUp_mono (tenBillionths_mono le)

private theorem fits_scale : Fits (10000000000 * one) := fits_whole (by decide)

private theorem tenBillionths_one_lt : tenBillionths one < ceiling := by
  rw [tenBillionths, Nat.mul_comm, nearest_of_fits fits_scale]
  exact fits_scale.1

private theorem tenDecimals_one : tenDecimals one = one := by decide +kernel

section Factor

variable {percent : Double} {units : Nat} {fits : Fits units}
  (base : (Double.ofInt 1).add (percent.div (Double.ofInt 100)) = .finite false units fits)
include base

private theorem percentFactor_eq :
    percentFactor percent =
      (Double.round false (units * 10000000000) 1).roundHalfAway.div
        (Double.ofInt (10000000000 : Nat)) := by
  rw [← Double.mul_positive false fits 10000000000 fits_scale, ← base]
  rfl

private theorem percentFactor_of_lt (small : tenBillionths units < ceiling) :
    ∃ own, percentFactor percent = .finite false (tenDecimals units) own := by
  have counted : Fits (tenBillionths units) := Number.fits_nearest small
  have decimal : Fits (nearest (halfUp (tenBillionths units)) 1) :=
    Number.fits_nearest (Number.halfUp_lt counted)
  have inside : tenDecimals units < ceiling := by
    refine Nat.lt_of_le_of_lt (Number.nearest_le_of_le ?_ ?_) decimal.1
    · exact Nat.dvd_of_mod_eq_zero decimal.2
    · exact Nat.le_mul_of_pos_right _ (by decide)
  have own : Fits (tenDecimals units) := Number.fits_nearest inside
  refine ⟨own, ?_⟩
  rw [percentFactor_eq base, Double.round_eq_finite false counted rfl, Double.roundHalfAway_eq,
    Double.div_positive false decimal 10000000000 fits_scale (by decide)]
  exact Double.round_eq_finite false own rfl

private theorem percentFactor_of_le (large : ceiling ≤ tenBillionths units) :
    percentFactor percent = .infinite false := by
  have beyond : Double.round false (units * 10000000000) 1 = .infinite false :=
    dif_neg (Nat.not_lt.2 large)
  rw [percentFactor_eq base, beyond, Double.ofInt_of_fits fits_scale]
  rfl

end Factor

/-! ### Factors by the size of the level -/

def lossBase (percent : Nat) : Nat := nearest (one - nearest percent 100) 1

def profitBase (percent : Nat) : Nat := nearest (one + nearest percent 100) 1

private theorem lossBase_mono {less more : Nat} (le : less ≤ more) :
    lossBase more ≤ lossBase less := by
  apply nearest_mono Nat.one_pos
  apply Nat.sub_le_sub_left
  exact nearest_mono (by decide) le

private theorem profitBase_mono {less more : Nat} (le : less ≤ more) :
    profitBase less ≤ profitBase more := by
  apply nearest_mono Nat.one_pos
  apply Nat.add_le_add_left
  exact nearest_mono (by decide) le

private theorem fits_one : Fits (1 * one) := fits_whole (by decide)

private theorem lossBase_zero : lossBase 0 = one := by
  rw [lossBase, Number.nearest_zero, Nat.sub_zero, ← Nat.one_mul one, nearest_of_fits fits_one]

private theorem profitBase_zero : profitBase 0 = one := by
  rw [profitBase, Number.nearest_zero, Nat.add_zero, ← Nat.one_mul one, nearest_of_fits fits_one]

private theorem fits_hundred : Fits (100 * one) := fits_whole (by decide)

private theorem nearest_hundred_lt {percent : Nat} (fits : Fits percent) :
    nearest percent 100 < ceiling := by
  refine Nat.lt_of_le_of_lt (Number.nearest_le_of_le ?_ ?_) fits.1
  · exact Nat.dvd_of_mod_eq_zero fits.2
  · exact Nat.le_mul_of_pos_right _ (by decide)

private theorem div_hundred (negative : Bool) {percent : Nat} (fits : Fits percent) :
    (Double.finite negative percent fits).div (Double.ofInt 100) =
      .finite negative (nearest percent 100) (Number.fits_nearest (nearest_hundred_lt fits)) := by
  rw [← Double.round_eq_finite negative (Number.fits_nearest (nearest_hundred_lt fits)) rfl]
  exact Double.div_positive negative fits 100 fits_hundred (by decide)

private theorem ofInt_one : ∃ exact, Double.ofInt 1 = .finite false one exact := by
  rw [← Nat.one_mul one]
  exact ⟨fits_one, Double.ofInt_of_fits fits_one⟩

private theorem base_loss {percent : Nat} (fits : Fits percent) (less : percent < 100 * one) :
    ∃ own, (Double.ofInt 1).add ((Double.finite false percent fits).neg.div (Double.ofInt 100)) =
      .finite false (lossBase percent) own := by
  obtain ⟨exact, unit⟩ := ofInt_one
  have share : nearest percent 100 ≤ one := by
    apply Number.nearest_le_of_le (Nat.dvd_of_mod_eq_zero exact.2)
    rw [Nat.mul_comm]
    exact Nat.le_of_lt less
  have inside : lossBase percent < ceiling := by
    refine Nat.lt_of_le_of_lt (Number.nearest_le_of_le ?_ ?_) exact.1
    · exact Nat.dvd_of_mod_eq_zero exact.2
    · rw [Nat.mul_one]
      exact Nat.sub_le _ _
  refine ⟨Number.fits_nearest inside, ?_⟩
  rw [Double.neg, Bool.not_false, div_hundred true fits, unit, Double.add_negative _ _ share]
  exact Double.round_eq_finite false (Number.fits_nearest inside) rfl

private theorem base_profit {percent : Nat} (fits : Fits percent) :
    ∃ own, (Double.ofInt 1).add ((Double.finite false percent fits).div (Double.ofInt 100)) =
      .finite false (profitBase percent) own := by
  obtain ⟨exact, unit⟩ := ofInt_one
  have inside : profitBase percent < ceiling := by
    have most : profitBase Number.greatest < ceiling := by decide +kernel
    exact Nat.lt_of_le_of_lt (profitBase_mono (Number.le_greatest fits)) most
  refine ⟨Number.fits_nearest inside, ?_⟩
  rw [div_hundred false fits, unit, Double.add_unsigned _ _ Number.one_pos]
  exact Double.round_eq_finite false (Number.fits_nearest inside) rfl

/-! ### Where the factors are lost -/

/-- The least loss whose factor is less than one, `5.000005964816979e-9`. -/
def leastLoss : Double := .ofDecimal false 5000005964816979 (-24)

def fullLoss : Double := .ofDecimal false 9999999999500001 (-14)

/-- The least profit whose factor is greater than one, `4.999989311471609e-9`. -/
def leastProfit : Double := .ofDecimal false 4999989311471609 (-24)

/-- The least profit whose factor is infinite, `1.797693134862316e300`. -/
def endlessProfit : Double := .ofDecimal false 1797693134862316 285

/-- What holds of all percentages from some double on, if it holds there and fails right below. -/
private theorem iff_not_lt {P : Nat → Prop}
    (upward : ∀ less more : Nat, less ≤ more → P less → P more)
    (threshold : Double) (low : Nat) (grid : spacing low ∣ low)
    (stands : threshold.place? = some ((low + spacing low : Nat) : Int)) (fails : ¬ P low)
    (holds : P (low + spacing low)) {percent : Nat} (fits : Fits percent) :
    P percent ↔ (Double.finite false percent fits).lt threshold = false := by
  have own := Nat.dvd_of_mod_eq_zero fits.2
  have place : (Double.finite false percent fits).place? = some (percent : Int) := rfl
  rw [Number.iff_next_le (upward _ _) own grid rfl fails holds, Double.lt_eq_false_iff place stands,
    Int.ofNat_le]

private theorem tenDecimals_loss_lt_iff {percent : Nat} (fits : Fits percent) :
    tenDecimals (lossBase percent) < one ↔
      (Double.finite false percent fits).lt leastLoss = false := by
  have upward (less more : Nat) (le : less ≤ more) (below : tenDecimals (lossBase less) < one) :
      tenDecimals (lossBase more) < one :=
    Nat.lt_of_le_of_lt (tenDecimals_mono (lossBase_mono le)) below
  exact iff_not_lt upward leastLoss (nearest (5000005964816978 * one) (powerOfTen 24))
    (by decide +kernel) (by decide +kernel) (by decide +kernel) (by decide +kernel) fits

private theorem tenDecimals_loss_eq_zero_iff {percent : Nat} (fits : Fits percent) :
    tenDecimals (lossBase percent) = 0 ↔
      (Double.finite false percent fits).lt fullLoss = false := by
  have upward (less more : Nat) (le : less ≤ more) (none : tenDecimals (lossBase less) = 0) :
      tenDecimals (lossBase more) = 0 :=
    Nat.le_zero.1 (none ▸ tenDecimals_mono (lossBase_mono le))
  exact iff_not_lt upward fullLoss (nearest (99999999995 * one) (powerOfTen 9)) (by decide +kernel)
    (by decide +kernel) (by decide +kernel) (by decide +kernel) fits

private theorem lt_tenDecimals_profit_iff {percent : Nat} (fits : Fits percent) :
    one < tenDecimals (profitBase percent) ↔
      (Double.finite false percent fits).lt leastProfit = false := by
  have upward (less more : Nat) (le : less ≤ more) (above : one < tenDecimals (profitBase less)) :
      one < tenDecimals (profitBase more) :=
    Nat.lt_of_lt_of_le above (tenDecimals_mono (profitBase_mono le))
  exact iff_not_lt upward leastProfit (nearest (4999989311471608 * one) (powerOfTen 24))
    (by decide +kernel) (by decide +kernel) (by decide +kernel) (by decide +kernel) fits

private theorem ceiling_le_profit_iff {percent : Nat} (fits : Fits percent) :
    ceiling ≤ tenBillionths (profitBase percent) ↔
      (Double.finite false percent fits).lt endlessProfit = false := by
  have upward (less more : Nat) (le : less ≤ more)
      (beyond : ceiling ≤ tenBillionths (profitBase less)) :
      ceiling ≤ tenBillionths (profitBase more) :=
    Nat.le_trans beyond (tenBillionths_mono (profitBase_mono le))
  exact iff_not_lt upward endlessProfit (nearest (17976931348623156 * powerOfTen 284 * one) 1)
    (by decide +kernel) (by decide +kernel) (by decide +kernel) (by decide +kernel) fits

/-! ### Texts of factors -/

/-- The text of the factor for a loss: it lies between zero and one, and strictly so for the losses
from the least one on that are less than the full one. -/
def StopFactor (percent : Double) (text : String) : Prop :=
  ∃ factor, Double.written? text = some factor ∧ 0 ≤ factor ∧ factor ≤ 1 ∧
    (factor < 1 ↔ percent.lt leastLoss = false) ∧ (0 < factor ↔ percent.lt fullLoss = true)

/-- The text of the factor for a profit: at least one, and greater from the least profit on; an
endless profit has a word in its place. -/
inductive LimitFactor (percent : Double) : String → Prop
  | finite {text : String} {factor : Rat} : percent.lt endlessProfit = true →
      Double.written? text = some factor → 1 ≤ factor →
      (1 < factor ↔ percent.lt leastProfit = false) → LimitFactor percent text
  | infinite : percent.lt endlessProfit = false → LimitFactor percent "inf"

private theorem written?_of_factor {factor : Double} {units : Nat} {fits : Fits units}
    (counts : factor = .finite false units fits) :
    Double.written? factor.typed = some ((units : Rat) / one) := by
  rw [counts, Double.written?_typed]
  rfl

private theorem one_pos_rat : (0 : Rat) < one := Nat.cast_pos.2 Number.one_pos

private theorem stopFactor {node : Node} {percent : Double}
    (given : percent ∈ (Levels.of node).stopLoss) :
    StopFactor percent (percentFactor percent.neg).typed := by
  obtain ⟨stated, bounds⟩ := Option.filter_eq_some_iff.1 given
  rw [Bool.and_eq_true] at bounds
  obtain ⟨units, fits, rfl⟩ :=
    Double.exists_units_of_positive (isFinite_of_number? stated) bounds.1
  obtain ⟨whole, base⟩ := base_loss fits (Double.lt_ofInt fits_hundred bounds.2)
  have most : lossBase units ≤ one := lossBase_zero ▸ lossBase_mono (Nat.zero_le units)
  have small : tenBillionths (lossBase units) < ceiling :=
    Nat.lt_of_le_of_lt (tenBillionths_mono most) tenBillionths_one_lt
  obtain ⟨own, factor⟩ := percentFactor_of_lt base small
  have bound : tenDecimals (lossBase units) ≤ one := by
    rw [← tenDecimals_one]
    exact tenDecimals_mono most
  refine ⟨_, written?_of_factor factor, ?_, ?_, ?_, ?_⟩
  · exact div_nonneg (Nat.cast_nonneg _) (Nat.cast_nonneg _)
  · rw [div_le_one one_pos_rat]
    exact Nat.cast_le.2 bound
  · rw [div_lt_one one_pos_rat, Nat.cast_lt, tenDecimals_loss_lt_iff fits]
  · rw [div_pos_iff_of_pos_right one_pos_rat, Nat.cast_pos, Nat.pos_iff_ne_zero, Ne,
      tenDecimals_loss_eq_zero_iff fits, Bool.not_eq_false]

private theorem limitFactor {node : Node} {percent : Double}
    (given : percent ∈ (Levels.of node).takeProfit) :
    LimitFactor percent (percentFactor percent).typed := by
  obtain ⟨stated, above⟩ := Option.filter_eq_some_iff.1 given
  obtain ⟨units, fits, rfl⟩ := Double.exists_units_of_positive (isFinite_of_number? stated) above
  obtain ⟨whole, base⟩ := base_profit fits
  by_cases endless : (Double.finite false units fits).lt endlessProfit = false
  · rw [percentFactor_of_le base ((ceiling_le_profit_iff fits).2 endless)]
    exact .infinite endless
  · have small : tenBillionths (profitBase units) < ceiling :=
      Nat.lt_of_not_le fun beyond => endless ((ceiling_le_profit_iff fits).1 beyond)
    obtain ⟨own, factor⟩ := percentFactor_of_lt base small
    have bound : one ≤ tenDecimals (profitBase units) := by
      have least := tenDecimals_mono (profitBase_mono (Nat.zero_le units))
      rwa [profitBase_zero, tenDecimals_one] at least
    refine .finite (Bool.not_eq_false _ ▸ endless) (written?_of_factor factor) ?_ ?_
    · rw [one_le_div one_pos_rat]
      exact Nat.cast_le.2 bound
    · rw [one_lt_div one_pos_rat, Nat.cast_lt, lt_tenDecimals_profit_iff fits]

/-! ### Protections -/

/-- The line that protects positions by the levels of a risk node: prices relative to the average
entry price, by the factors of the levels that the node has. -/
def GuardedAt (node : Node) (line : Option String × String) : Prop :=
  ∃ stop limit,
    Option.Rel StopFactor (Levels.of node).stopLoss stop ∧
    Option.Rel LimitFactor (Levels.of node).takeProfit limit ∧
    line = (none, "strategy.exit(" ++ ", ".intercalate
      ([Script.literal (Plan.labelOr node "Risk Management")] ++
        (stop.map fun factor => "stop=strategy.position_avg_price * " ++ factor).toList ++
        (limit.map fun factor => "limit=strategy.position_avg_price * " ++ factor).toList) ++ ")")

private theorem rel_map {α β : Type} {R : α → β → Prop} {choice : Option α} {text : α → β}
    (each : ∀ item ∈ choice, R item (text item)) : Option.Rel R choice (choice.map text) := by
  cases choice with
  | none => exact .none
  | some item => exact .some (each item rfl)

private theorem render_relativePrice (name : String) (percent : Double) :
    (Argument.named name (relativePrice percent)).render =
      name ++ "=strategy.position_avg_price * " ++ (percentFactor percent).typed := by
  change name ++ "=" ++
    ("strategy.position_avg_price" ++ " " ++ "*" ++ " " ++ (percentFactor percent).typed) = _
  rw [← String.toList_inj]
  simp

private theorem guardedAt_of_protection {node : Node} {line : Option String × String}
    (protects : IsProtection node line) : GuardedAt node line := by
  obtain ⟨call, protection, rfl⟩ := protects
  refine ⟨_, _, rel_map fun percent => stopFactor, rel_map fun percent => limitFactor, ?_⟩
  unfold protection? at protection
  dsimp only at protection
  split at protection
  · exact absurd protection (by simp)
  · obtain rfl := Option.some.inj protection
    have label : (Argument.expr (.string (Plan.labelOr node "Risk Management"))).render =
        Script.literal (Plan.labelOr node "Risk Management") := rfl
    rw [Call.render]
    cases (Levels.of node).stopLoss <;> cases (Levels.of node).takeProfit <;>
      simp only [Option.map_none, Option.map_some, Option.toList_none, Option.toList_some,
        List.append_nil, List.cons_append, List.nil_append, List.map_cons, List.map_nil, label,
        render_relativePrice] <;>
      rfl

section Valid

variable (options : Options) {graph : Graph} (valid : (validate builtin graph).errors = [])
include valid

private theorem callsOf_protections :
    callsOf "strategy.exit" (compile builtin options graph).code =
      (planOf graph).protections.map fun call => (none, call.render) := by
  obtain ⟨-, -, code⟩ := compile_of_valid options valid
  rw [code, callsOf_render, (trades_ofPlan options graph).callsOf_protection, List.map_map]
  rfl

/-- The protections of a script are those of the risk nodes with levels.  A factor may meet the
entry price itself, or no price at all, where the level lies too close to an end of its range. -/
theorem factors_of_protections :
    (compile builtin options graph).success = true ∧
      List.Forall₂ GuardedAt (protectedIn graph)
        (callsOf "strategy.exit" (compile builtin options graph).code) := by
  obtain ⟨success, -, -⟩ := compile_of_valid options valid
  exact ⟨success, (callsOf_code options valid).2.2.imp fun _ _ => guardedAt_of_protection⟩

end Valid

/-! ### Levels at the ends of their range -/

def guardedBy (config : Json.Object) : Graph where
  nodes :=
    [ { id := "price", kind := .dataSource, label := "" },
      { id := "guard", kind := .risk, label := "Guard", config } ]
  edges := []

private theorem valid_guardedBy (config : Json.Object) :
    (validate builtin (guardedBy config)).errors = [] := by
  refine validate_errors_eq_nil_iff.2 ⟨?_, ?_, ?_, ?_, ?_⟩
  · exact ⟨_, List.mem_cons_self, rfl⟩
  · change ["price", "guard"].Nodup
    decide
  · exact List.forall_mem_cons.2 ⟨trivial, List.forall_mem_singleton.2 trivial⟩
  · exact fun edge member => absurd member List.not_mem_nil
  · exact Validation.not_consumes_self_of_rank (fun _ => 0)
      fun edge member => absurd member List.not_mem_nil

theorem factors_of_protections_guarded :
    (validate builtin (guardedBy [("stopLoss", .integer 5)])).errors = [] ∧
      List.Forall₂ GuardedAt (protectedIn (guardedBy [("stopLoss", .integer 5)]))
        (callsOf "strategy.exit"
          (compile builtin {} (guardedBy [("stopLoss", .integer 5)])).code) :=
  ⟨valid_guardedBy _, (factors_of_protections {} (valid_guardedBy _)).2⟩

/-- A loss of a billionth of a per cent stops at the entry price itself, and a limit of `1e308` per
cent has no price. -/
theorem levels_without_price :
    Double.ofDecimal false 1 (-9) ∈ (Levels.of (guardedBy
        [("stopLoss", .float (.ofDecimal false 1 (-9)))]).nodes[1]).stopLoss ∧
      callsOf "strategy.exit" (compile builtin {} (guardedBy
          [("stopLoss", .float (.ofDecimal false 1 (-9)))])).code =
        [(none, "strategy.exit(\"Guard\", stop=strategy.position_avg_price * 1)")] ∧
      Double.written? "1" = some 1 ∧
      Double.ofDecimal false 1 308 ∈ (Levels.of (guardedBy
        [("takeProfit", .float (.ofDecimal false 1 308))]).nodes[1]).takeProfit ∧
      callsOf "strategy.exit" (compile builtin {} (guardedBy
          [("takeProfit", .float (.ofDecimal false 1 308))])).code =
        [(none, "strategy.exit(\"Guard\", limit=strategy.position_avg_price * inf)")] ∧
      Double.written? "inf" = none := by
  rw [callsOf_protections {} (valid_guardedBy _), callsOf_protections {} (valid_guardedBy _)]
  refine ⟨?_, ?_, ?_, ?_, ?_, ?_⟩ <;> decide +kernel

end StrategyCompiler.Compilation
