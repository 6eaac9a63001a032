import StrategyCompiler.Compilation.Compile
import StrategyCompiler.Proofs.Graph.Exchange
/-!
Nodes that read alike.  What is written for a graph depends on the configuration of a node only
through the entries that nodes of its kind are read by, the function that it selects and the values
of its parameters.  Nodes that agree on these have the same errors, warnings and texts.
-/

set_option autoImplicit false

namespace StrategyCompiler

open Catalogue (Parameter Signature)
open StrategyCompiler.Graph (Exchange Index Kind Levels Node Placed Role)

/-- The keys that nodes of a kind are read by, apart from those of an indicator's id and
parameters. -/
def Graph.Kind.entryKeys : Kind → List String
  | .dataSource => ["source", "timeframe"]
  | .indicator => []
  | .condition => ["operator", "threshold", "output", "role"]
  | .action => ["orderType", "quantity", "price", "role"]
  | .risk => ["stopLoss", "takeProfit"]
  | .timing => ["session"]
  | .math => ["operation", "value"]

def Graph.Node.withConfig (node : Node) (config : Json.Object) : Node := { node with config }

/-- Whether whatever a compilation asks of a node is answered in the same way by another one. -/
structure Alike (catalogue : Catalogue) (node other : Node) : Prop where
  id : other.id = node.id
  kind : other.kind = node.kind
  label : other.label = node.label
  base : Naming.nodeBase other = Naming.nodeBase node
  entries : ∀ key ∈ node.kind.entryKeys, other.value? key = node.value? key
  errors : node.kind = .indicator →
    Validation.indicatorErrors catalogue other = Validation.indicatorErrors catalogue node
  selection : Naming.signatureOf? catalogue other = Naming.signatureOf? catalogue node
  resolution : ∀ signature, Naming.signatureOf? catalogue node = some signature →
    Validation.resolve signature other = Validation.resolve signature node

namespace Alike

variable {catalogue : Catalogue} {node other : Node}

theorem refl (catalogue : Catalogue) (node : Node) : Alike catalogue node node :=
  ⟨rfl, rfl, rfl, rfl, fun _ _ => rfl, fun _ => rfl, rfl, fun _ _ => rfl⟩

/-! ### Other configurations -/

section Configurations

variable {config : Json.Object} {signature : Signature}

private theorem resolve_withConfig (configured : ∀ parameter ∈ signature.parameters,
      parameter.configured? config = parameter.configured? node.config) :
    Validation.resolve signature (node.withConfig config) =
      Validation.resolve signature node := by
  have settled : ∀ parameter ∈ signature.parameters,
      Validation.settle signature (node.withConfig config) parameter =
        Validation.settle signature node parameter := by
    intro parameter member
    have same : parameter.configured? (node.withConfig config).config =
        parameter.configured? node.config := configured parameter member
    rw [Validation.settle, Validation.settle, same]
    rfl
  have all : Validation.settleAll signature (node.withConfig config) =
      Validation.settleAll signature node := by
    refine List.foldl_ext _ _ _ fun resolution parameter member => ?_
    rw [settled parameter member]
  rw [Validation.resolve, Validation.resolve, all]
  rfl

private theorem nodeBase_withConfig
    (selected : (node.withConfig config).indicatorId? = node.indicatorId?) :
    Naming.nodeBase (node.withConfig config) = Naming.nodeBase node := by
  rw [Naming.nodeBase, Naming.nodeBase, selected]
  rfl

private theorem signatureOf?_withConfig
    (selected : (node.withConfig config).indicatorId? = node.indicatorId?) :
    Naming.signatureOf? catalogue (node.withConfig config) =
      Naming.signatureOf? catalogue node := by
  rw [Naming.signatureOf?, Naming.signatureOf?, selected]
  rfl

theorem of_readings (selected : (node.withConfig config).indicatorId? = node.indicatorId?)
    (entries : ∀ key ∈ node.kind.entryKeys, (node.withConfig config).value? key = node.value? key)
    (configured : ∀ signature, Naming.signatureOf? catalogue node = some signature →
      ∀ parameter ∈ signature.parameters,
        parameter.configured? config = parameter.configured? node.config) :
    Alike catalogue node (node.withConfig config) where
  id := rfl
  kind := rfl
  label := rfl
  base := nodeBase_withConfig selected
  entries := entries
  errors kind := by
    rw [Validation.indicatorErrors, Validation.indicatorErrors, selected]
    cases selects : node.indicatorId? with
    | none => rfl
    | some id =>
      dsimp only
      cases found : Validation.indicator? catalogue id with
      | none => rfl
      | some signature =>
        have signed : Naming.signatureOf? catalogue node = some signature := by
          rw [Naming.signatureOf?, if_pos (beq_iff_eq.2 kind), selects]
          exact (Option.filter_eq_some_iff.1 found).1
        dsimp only
        rw [resolve_withConfig (configured signature signed)]
  selection := signatureOf?_withConfig selected
  resolution signature signed := resolve_withConfig (configured signature signed)

private theorem indicatorErrors_of_signatureOf? (usable : signature.category ≠ .operator)
    (signed : Naming.signatureOf? catalogue node = some signature) :
    Validation.indicatorErrors catalogue node = (Validation.resolve signature node).errors := by
  rw [Naming.signatureOf?] at signed
  split at signed
  · obtain ⟨id, selects, found⟩ := Option.bind_eq_some_iff.1 signed
    have admitted : Validation.indicator? catalogue id = some signature :=
      Option.filter_eq_some_iff.2 ⟨found, bne_iff_ne.2 usable⟩
    rw [Validation.indicatorErrors, selects]
    dsimp only
    rw [admitted]
  · exact absurd signed (by simp)

/-- A configuration that selects the same function with the same parameters for a node whose label
gives it its name. -/
theorem of_selection (kind : node.kind = .indicator) (labelled : Naming.sanitize node.label ≠ "")
    (usable : signature.category ≠ .operator)
    (signed : Naming.signatureOf? catalogue node = some signature)
    (again : Naming.signatureOf? catalogue (node.withConfig config) = some signature)
    (configured : ∀ parameter ∈ signature.parameters,
      parameter.configured? config = parameter.configured? node.config) :
    Alike catalogue node (node.withConfig config) where
  id := rfl
  kind := rfl
  label := rfl
  base := by
    have named (other : Node) (word : Naming.sanitize other.label ≠ "") :
        Naming.nodeBase other = Naming.sanitize other.label := if_pos (bne_iff_ne.2 word)
    exact (named (node.withConfig config) labelled).trans (named node labelled).symm
  entries key read := by
    rw [kind] at read
    exact absurd read List.not_mem_nil
  errors _ := by
    rw [indicatorErrors_of_signatureOf? usable again, indicatorErrors_of_signatureOf? usable signed,
      resolve_withConfig configured]
  selection := again.trans signed.symm
  resolution other same := by
    cases Option.some.inj (signed.symm.trans same)
    exact resolve_withConfig configured

end Configurations

variable (alike : Alike catalogue node other)
include alike

theorem text? (key : String) (read : key ∈ node.kind.entryKeys) :
    other.text? key = node.text? key := by
  rw [Node.text?, Node.text?, alike.entries key read]

theorem number? (key : String) (read : key ∈ node.kind.entryKeys) :
    other.number? key = node.number? key := by
  rw [Node.number?, Node.number?, alike.entries key read]

theorem displayLabel (signature : Signature) :
    Compilation.Plan.displayLabel other signature =
      Compilation.Plan.displayLabel node signature := by
  rw [Compilation.Plan.displayLabel, Compilation.Plan.displayLabel, alike.label]

theorem labelOr (text : String) :
    Compilation.Plan.labelOr other text = Compilation.Plan.labelOr node text := by
  rw [Compilation.Plan.labelOr, Compilation.Plan.labelOr, alike.label]

/-! ### Nodes of each kind -/

theorem seriesOf (kind : node.kind = .dataSource) :
    Compilation.Plan.seriesOf other = Compilation.Plan.seriesOf node := by
  rw [Compilation.Plan.seriesOf, Compilation.Plan.seriesOf,
    alike.text? "source" (by rw [kind]; decide)]

theorem role (kind : node.kind = .condition ∨ node.kind = .action) :
    Role.ofConfig? other = Role.ofConfig? node := by
  rw [Role.ofConfig?, Role.ofConfig?,
    alike.text? "role" (by rcases kind with kind | kind <;> rw [kind] <;> decide)]

theorem actionRole (kind : node.kind = .action) : Role.of? other = Role.of? node := by
  rw [Role.of?, Role.of?, alike.role (.inr kind), alike.label]

private theorem orderQuantity (kind : node.kind = .action) :
    Graph.orderQuantity? other = Graph.orderQuantity? node := by
  rw [Graph.orderQuantity?, Graph.orderQuantity?,
    alike.number? "quantity" (by rw [kind]; decide)]

theorem orderTypeEntry (kind : node.kind = .action) :
    Validation.orderTypeEntry other = Validation.orderTypeEntry node := by
  rw [Validation.orderTypeEntry, Validation.orderTypeEntry,
    alike.entries "orderType" (by rw [kind]; decide)]

theorem entryOrder (kind : node.kind = .action) :
    Compilation.entryOrder other = Compilation.entryOrder node := by
  have price : Compilation.priceOf other = Compilation.priceOf node := by
    rw [Compilation.priceOf, Compilation.priceOf,
      alike.number? "price" (by rw [kind]; decide)]
  have type : Compilation.orderTypeOf other = Compilation.orderTypeOf node := by
    rw [Compilation.orderTypeOf, Compilation.orderTypeOf,
      alike.text? "orderType" (by rw [kind]; decide)]
  rw [Compilation.entryOrder, Compilation.entryOrder, Compilation.quantityOf,
    Compilation.quantityOf, alike.labelOr, alike.orderQuantity kind, type, price]

theorem exitOrder : Compilation.exitOrder other = Compilation.exitOrder node := by
  rw [Compilation.exitOrder, Compilation.exitOrder, alike.labelOr]

theorem levels (kind : node.kind = .risk) : Levels.of other = Levels.of node := by
  rw [Levels.of, Levels.of, alike.number? "stopLoss" (by rw [kind]; decide),
    alike.number? "takeProfit" (by rw [kind]; decide)]

theorem protection? (kind : node.kind = .risk) :
    Compilation.protection? other = Compilation.protection? node := by
  rw [Compilation.protection?, Compilation.protection?, alike.levels kind, alike.labelOr]

theorem sessionExpr (kind : node.kind = .timing) :
    Compilation.sessionExpr other = Compilation.sessionExpr node := by
  rw [Compilation.sessionExpr, Compilation.sessionExpr,
    alike.text? "session" (by rw [kind]; decide)]

theorem namedOutputs? :
    Naming.namedOutputs? catalogue other = Naming.namedOutputs? catalogue node := by
  rw [Naming.namedOutputs?, Naming.namedOutputs?, alike.kind, alike.selection]
  cases kind : node.kind with
  | dataSource =>
    dsimp only
    rw [alike.text? "timeframe" (by rw [kind]; decide)]
  | _ => rfl

/-! ### Checks -/

theorem nodeErrors :
    Validation.nodeErrors catalogue other = Validation.nodeErrors catalogue node := by
  rw [Validation.nodeErrors, Validation.nodeErrors, alike.kind]
  cases kind : node.kind with
  | indicator => exact alike.errors kind
  | condition =>
    dsimp only
    rw [Validation.conditionErrors, Validation.conditionErrors, alike.id,
      alike.text? "operator" (by rw [kind]; decide)]
  | action =>
    dsimp only
    rw [Validation.actionErrors, Validation.actionErrors, alike.id, alike.orderTypeEntry kind]
  | math =>
    dsimp only
    rw [Validation.mathErrors, Validation.mathErrors, alike.id,
      alike.text? "operation" (by rw [kind]; decide)]
  | dataSource | risk | timing => rfl

theorem nodeWarnings : Validation.nodeWarnings other = Validation.nodeWarnings node := by
  rw [Validation.nodeWarnings, Validation.nodeWarnings, alike.kind]
  cases kind : node.kind with
  | dataSource =>
    dsimp only
    rw [Validation.dataSourceWarnings, Validation.dataSourceWarnings, alike.id,
      alike.text? "source" (by rw [kind]; decide)]
  | condition =>
    dsimp only
    rw [alike.id, alike.number? "threshold" (by rw [kind]; decide)]
  | action =>
    dsimp only
    rw [Validation.actionWarnings, Validation.actionWarnings, alike.id,
      alike.orderTypeEntry kind, alike.orderQuantity kind]
  | risk =>
    dsimp only
    rw [alike.id, alike.levels kind]
  | timing =>
    dsimp only
    rw [alike.id, alike.text? "session" (by rw [kind]; decide)]
  | indicator | math => rfl

end Alike

end StrategyCompiler
