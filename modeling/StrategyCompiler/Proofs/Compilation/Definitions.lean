import StrategyCompiler.Proofs.Compilation.Assigned
import StrategyCompiler.Proofs.Compilation.Structure
import StrategyCompiler.Proofs.Naming.Hygiene
/-!
Definition before use.  In the script of a graph without errors every name of the table, and either
combined condition, is assigned on a line in front of every line that reads it.
-/

set_option autoImplicit false

namespace StrategyCompiler.Compilation

open Catalogue (Signature)
open StrategyCompiler.Graph (Index Node Placed)
open Script (Statement isFixed)
open Validation (validate validate_errors_eq_nil_iff)

variable {graph : Graph}

/-- A name that a script has to assign before it reads it. -/
def Tracked (graph : Graph) (name : String) : Prop :=
  name ∈ (Naming.bind Catalogue.builtin graph).identifiers ∨
    name = Naming.entryCondition ∨ name = Naming.exitCondition

/-- Words of the script language are reserved or have a point in them; names of values never do. -/
theorem not_tracked_of_fixed {name : String} (fixed : Fixed name) : ¬ Tracked graph name := by
  rintro (member | rfl | rfl)
  · simp only [Fixed, isFixed, Bool.and_eq_true, Bool.or_eq_true, List.contains_iff_mem] at fixed
    rcases fixed.2 with reserved | point
    · exact Naming.not_mem_initiallyTaken member (List.mem_append_left _ reserved)
    · have names := List.all_eq_true.1 (Naming.all_isNameChar_of_mem_identifiers member) '.' point
      exact absurd names (by decide)
  · exact absurd fixed (by decide)
  · exact absurd fixed (by decide)

/-! ### Calculations assign what is bound -/

section Valid

variable (valid : (validate Catalogue.builtin graph).errors = [])
include valid

theorem assigned_calculationsOf {placed : Placed} {binding : Naming.Binding}
    (found : graph.nodes[placed.position]? = some placed.node)
    (produces : placed.node.kind.producesValue = true)
    (bound : (planOf graph).names.bindingAt? placed.position = some binding) :
    ((planOf graph).calculationsOf placed).flatMap Statement.assigned = binding.identifiers := by
  have all := assigned_node valid templated_builtin found
  have undefined := (planWith Catalogue.builtin graph).definition?_eq_none produces
  have names : boundAt (Naming.bind Catalogue.builtin graph) placed.position =
      binding.identifiers := by
    rw [boundAt, ← names_planOf, bound]
    rfl
  rw [names, undefined] at all
  exact (List.append_nil _).symm.trans all

theorem supplied_of_valid : Supplied graph fun name => ¬ Tracked graph name where
  fixed := fun _ => not_tracked_of_fixed
  calculated := by
    intro before placed after order source supplier binding bound name member
    have earlier : source ∈ before :=
      Index.placed_before (Validation.cycle?_of_valid valid) order (List.mem_filter.1 supplier).1
    obtain ⟨found, produces⟩ := mem_suppliers supplier
    refine .inr ?_
    rw [List.flatMap_assoc]
    refine List.mem_flatMap.2 ⟨source, earlier, ?_⟩
    rw [assigned_calculationsOf valid found produces bound]
    exact member
  plotted := by
    rintro name ⟨placed, signature, binding, indicator, bound, member⟩
    obtain ⟨inside, selected⟩ := mem_indicators.1 indicator
    have found := mem_order_planOf.1 inside
    have produces : placed.node.kind.producesValue = true := by
      rw [kind_of_signatureOf? selected]
      rfl
    refine .inr ?_
    rw [Plan.calculations, List.flatMap_assoc]
    refine List.mem_flatMap.2 ⟨placed, inside, ?_⟩
    rw [assigned_calculationsOf valid found produces bound]
    exact member

end Valid

/-- A strategy that buys when one moving average of the price crosses another. -/
def averageCrossing : Graph where
  nodes :=
    [ { id := "price", kind := .dataSource, label := "" },
      { id := "buy", kind := .action, label := "Buy" },
      { id := "crossing", kind := .condition, label := "Crossing",
        config := [("operator", .string "crosses_above"), ("role", .string "entry")] },
      { id := "slow", kind := .indicator, label := "Slow",
        config := [("indicatorId", .string "ema"), ("length", .integer 30)] },
      { id := "fast", kind := .indicator, label := "Fast",
        config := [("indicatorId", .string "sma"), ("length", .integer 10)] } ]
  edges :=
    [ ⟨"e1", "price", "fast"⟩, ⟨"e2", "price", "slow"⟩, ⟨"e3", "fast", "crossing"⟩,
      ⟨"e4", "slow", "crossing"⟩, ⟨"e5", "crossing", "buy"⟩ ]

private def rankOf (id : String) : Nat :=
  if id = "price" then 0 else if id = "crossing" then 2 else if id = "buy" then 3 else 1

theorem valid_averageCrossing :
    (validate Catalogue.builtin averageCrossing).errors = [] := by
  refine validate_errors_eq_nil_iff.2 ⟨?_, by decide, ?_, by decide, ?_⟩
  · exact ⟨_, List.mem_cons_self, rfl⟩
  · exact Validation.forall_nodeAccepted_iff.2 (by decide +kernel)
  · exact Validation.not_consumes_self_of_rank rankOf (by decide)

end StrategyCompiler.Compilation
