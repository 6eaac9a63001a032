import Mathlib.Data.List.Find
import StrategyCompiler.Proofs.Compilation.Alike
import StrategyCompiler.Proofs.Compilation.Reads
import StrategyCompiler.Proofs.Graph.Exchange
/-!
Graphs whose nodes are exchanged for others that read alike.  Checks, names and every section of the
script stay the same, and so does what a compilation hands back.
-/

set_option autoImplicit false

namespace StrategyCompiler

open Catalogue (Parameter Setting Settings Signature)
open Diagnostic (Warning)
open StrategyCompiler.Graph (Exchange Index Kind Node Placed Role)
open Script (Expr)

/-- An exchange of nodes for others that read alike. -/
structure Rewording (catalogue : Catalogue) where
  exchange : Exchange
  alike : ∀ position node, Alike catalogue node (exchange position node)

namespace Rewording

section Graphs

variable {catalogue : Catalogue} (rewording : Rewording catalogue)

theorem ids (position : Nat) (node : Node) : (rewording.exchange position node).id = node.id :=
  (rewording.alike position node).id

theorem kinds (position : Nat) (node : Node) :
    (rewording.exchange position node).kind = node.kind :=
  (rewording.alike position node).kind

def placed (source : Placed) : Placed := source.exchanged rewording.exchange

private theorem placed_alike (source : Placed) :
    Alike catalogue source.node (rewording.placed source).node :=
  rewording.alike source.position source.node

private theorem position_placed (source : Placed) :
    (rewording.placed source).position = source.position := rfl

private theorem placed_kind (source : Placed) :
    (rewording.placed source).node.kind = source.node.kind :=
  (rewording.placed_alike source).kind

/-! ### Checks -/

theorem flowWarnings (index : Index) :
    Validation.flowWarnings (index.exchanged rewording.exchange) =
      Validation.flowWarnings index := by
  have producing (position : Nat) :
      Validation.hasValue (index.exchanged rewording.exchange) position =
        Validation.hasValue index position := by
    rw [Validation.hasValue, Validation.hasValue, Index.dependencies_exchanged,
      Index.placed_exchanged, List.any_map]
    congr 1
    funext source
    exact congrArg Kind.producesValue (rewording.placed_kind source)
  rw [Validation.flowWarnings, Validation.flowWarnings, Index.ofKind_exchanged rewording.kinds,
    Index.ofKind_exchanged rewording.kinds, List.filter_map, List.filter_map, List.map_map,
    List.map_map]
  congr 1
  · refine List.map_congr_left fun source _ => ?_
    exact congrArg₂ Warning.unconnectedIndicator (rewording.placed_alike source).id
      (rewording.placed_alike source).label
  · have same : (fun source => !Validation.hasValue (index.exchanged rewording.exchange)
        source.position) ∘ Placed.exchanged rewording.exchange =
        fun source => !Validation.hasValue index source.position :=
      funext fun source => congrArg (!·) (producing source.position)
    rw [same]
    refine List.map_congr_left fun source _ => ?_
    exact congrArg Warning.unconnectedCondition (rewording.placed_alike source).id

theorem validateIndex (index : Index) :
    Validation.validateIndex catalogue (index.exchanged rewording.exchange) =
      Validation.validateIndex catalogue index := by
  have components : Validation.componentErrors (index.graph.exchanged rewording.exchange) =
      Validation.componentErrors index.graph := by
    rw [Validation.componentErrors, Validation.componentErrors,
      Graph.countKind_exchanged rewording.kinds, Graph.map_nodes_exchanged rewording.ids]
  have actions : Validation.componentWarnings (index.graph.exchanged rewording.exchange) =
      Validation.componentWarnings index.graph := by
    rw [Validation.componentWarnings, Validation.componentWarnings,
      Graph.countKind_exchanged rewording.kinds]
  have edges : Validation.edgeErrors (index.graph.exchanged rewording.exchange) =
      Validation.edgeErrors index.graph := by
    funext edge
    simp only [Validation.edgeErrors, Graph.position?_exchanged rewording.ids]
  have cycles : Validation.cycleErrors (index.exchanged rewording.exchange) =
      Validation.cycleErrors index := by
    rw [Validation.cycleErrors, Validation.cycleErrors, Index.cycle?_exchanged]
    cases index.cycle? with
    | none => rfl
    | some position =>
      rw [Option.bind_some, Option.bind_some, Index.node?_exchanged]
      cases index.node? position with
      | none => rfl
      | some node =>
        exact congrArg (fun id => [Diagnostic.Error.circularDependency id])
          (rewording.ids position node)
  have errors := Graph.flatMap_nodes_exchanged
    (fun position node => (rewording.alike position node).nodeErrors) index.graph
  have warnings := Graph.flatMap_nodes_exchanged
    (fun position node => (rewording.alike position node).nodeWarnings) index.graph
  have graph : (index.exchanged rewording.exchange).graph =
      index.graph.exchanged rewording.exchange := rfl
  have ends : (index.graph.exchanged rewording.exchange).edges = index.graph.edges := rfl
  rw [Validation.validateIndex, Validation.validateIndex, graph, components, errors, ends, edges,
    cycles, actions, warnings, rewording.flowWarnings]

/-! ### Names -/

theorem nameAllInputs (order : List Placed) (taken : List String) :
    Naming.nameAllInputs catalogue taken (order.map rewording.placed) =
      Naming.nameAllInputs catalogue taken order := by
  induction order generalizing taken with
  | nil => rfl
  | cons first rest ih =>
    rw [List.map_cons, Naming.nameAllInputs, Naming.nameAllInputs,
      (rewording.placed_alike first).selection]
    cases Naming.signatureOf? catalogue first.node with
    | none => exact ih taken
    | some signature =>
      dsimp only
      rw [ih]
      rfl

theorem nameNodes (order : List Placed) (taken : List String) :
    Naming.nameNodes catalogue taken (order.map rewording.placed) =
      Naming.nameNodes catalogue taken order := by
  induction order generalizing taken with
  | nil => rfl
  | cons first rest ih =>
    have alike := rewording.placed_alike first
    rw [List.map_cons, Naming.nameNodes, Naming.nameNodes, alike.namedOutputs?]
    cases Naming.namedOutputs? catalogue first.node with
    | none => exact ih taken
    | some outputs =>
      have bound : Naming.bindNode taken (rewording.placed first).node outputs =
          Naming.bindNode taken first.node outputs := by
        rw [Naming.bindNode, Naming.bindNode, alike.base, alike.id]
      dsimp only
      rw [bound, ih]
      rfl

theorem bindAlong (index : Index) (order : List Placed) :
    Naming.bindAlong catalogue (index.exchanged rewording.exchange)
        (order.map rewording.placed) =
      Naming.bindAlong catalogue index order := by
  rw [Naming.bindAlong, Naming.bindAlong, rewording.nameAllInputs]
  dsimp only
  rw [rewording.nameNodes]
  congr 1
  refine List.ext_getElem? fun position => ?_
  rw [Index.exchanged, Graph.exchanged, List.getElem?_mapIdx, List.getElem?_mapIdx,
    List.getElem?_mapIdx, Option.map_map]
  refine congrArg (Option.map · index.graph.nodes[position]?) (funext fun node => ?_)
  exact congrArg (Naming.Entry.mk · _ _) (rewording.ids position node)

end Graphs

/-! ### Sections -/

section Plans

open Compilation (Plan arguments_cons)

variable {plan : Plan} (rewording : Rewording plan.catalogue)

def reworded : Plan :=
  { plan with
    index := plan.index.exchanged rewording.exchange
    order := plan.order.map rewording.placed }

private theorem index_reworded :
    rewording.reworded.index = plan.index.exchanged rewording.exchange := rfl

private theorem order_reworded : rewording.reworded.order = plan.order.map rewording.placed := rfl

private theorem names_reworded : rewording.reworded.names = plan.names := rfl

private theorem signatureOf?_placed (source : Placed) :
    Naming.signatureOf? rewording.reworded.catalogue (rewording.placed source).node =
      Naming.signatureOf? plan.catalogue source.node :=
  (rewording.placed_alike source).selection

theorem suppliers (consumer : Placed) :
    rewording.reworded.suppliers (rewording.placed consumer) =
      (plan.suppliers consumer).map rewording.placed := by
  rw [Plan.suppliers, Plan.suppliers, rewording.index_reworded, rewording.position_placed,
    Index.dependencies_exchanged, Index.placed_exchanged, List.filter_map]
  refine congrArg (List.map _) (List.filter_congr fun source _ => ?_)
  exact congrArg Kind.producesValue (rewording.placed_kind source)

theorem read? (source : Placed) (output : Option String) :
    rewording.reworded.read? (rewording.placed source) output = plan.read? source output := by
  rw [Plan.read?, Plan.read?, rewording.names_reworded, rewording.position_placed,
    rewording.placed_kind]
  cases kind : source.node.kind with
  | dataSource =>
    cases plan.names.bindingAt? source.position with
    | some binding => rfl
    | none => exact congrArg (some ∘ Expr.name) ((rewording.placed_alike source).seriesOf kind)
  | indicator | math => cases plan.names.bindingAt? source.position <;> rfl
  | condition | action | risk | timing => rfl

theorem indicators : rewording.reworded.indicators =
    plan.indicators.map fun entry => (rewording.placed entry.1, entry.2) := by
  rw [Plan.indicators, Plan.indicators, List.map_filterMap]
  rw [rewording.order_reworded, List.filterMap_map]
  refine List.filterMap_congr fun placed _ => ?_
  rw [Function.comp_apply, rewording.signatureOf?_placed, Option.map_map]
  rfl

private theorem selected_of_mem_indicators {entry : Placed × Signature}
    (member : entry ∈ plan.indicators) :
    Naming.signatureOf? plan.catalogue entry.1.node = some entry.2 := by
  obtain ⟨placed, -, found⟩ := List.mem_filterMap.1 member
  obtain ⟨signature, selected, rfl⟩ := Option.map_eq_some_iff.1 found
  exact selected

theorem inputs : rewording.reworded.inputs = plan.inputs := by
  rw [Plan.inputs, Plan.inputs, rewording.indicators, List.flatMap_map]
  refine List.flatMap_congr fun ⟨placed, signature⟩ member => ?_
  have alike := rewording.placed_alike placed
  have resolution := alike.resolution signature (selected_of_mem_indicators member)
  dsimp only
  rw [Plan.inputsOf, Plan.inputsOf, resolution, rewording.names_reworded, rewording.position_placed,
    alike.displayLabel]

theorem passed (consumer : Placed) (values : Settings) (source? : Option Placed)
    (parameter : Parameter) :
    rewording.reworded.passed (rewording.placed consumer) values
        (source?.map rewording.placed) parameter =
      plan.passed consumer values source? parameter := by
  rw [Plan.passed, Plan.passed, Option.bind_map]
  simp only [Function.comp_def, rewording.read?]
  rfl

theorem arguments (consumer : Placed) (values : Settings) (parameters : List Parameter)
    (sources : List Placed) :
    rewording.reworded.arguments (rewording.placed consumer) values
        (sources.map rewording.placed) parameters =
      plan.arguments consumer values sources parameters := by
  induction parameters generalizing sources with
  | nil => rfl
  | cons parameter rest ih =>
    rw [arguments_cons, arguments_cons, List.getElem?_map, rewording.passed, ← List.map_tail]
    split
    · rw [ih]
    · rw [ih]

theorem indicatorLines (placed : Placed) :
    rewording.reworded.indicatorLines (rewording.placed placed) = plan.indicatorLines placed := by
  have alike := rewording.placed_alike placed
  rw [Plan.indicatorLines, Plan.indicatorLines, rewording.names_reworded, rewording.position_placed,
    rewording.signatureOf?_placed]
  cases selected : Naming.signatureOf? plan.catalogue placed.node with
  | none => rfl
  | some signature =>
    have arguments : rewording.reworded.argumentsOf (rewording.placed placed) signature =
        plan.argumentsOf placed signature := by
      rw [Plan.argumentsOf, Plan.argumentsOf, alike.resolution signature selected,
        rewording.suppliers, rewording.arguments]
    cases plan.names.bindingAt? placed.position with
    | none => rfl
    | some binding =>
      dsimp only
      rw [arguments]

theorem securityLine? {placed : Placed} (kind : placed.node.kind = .dataSource) :
    rewording.reworded.securityLine? (rewording.placed placed) = plan.securityLine? placed := by
  have alike := rewording.placed_alike placed
  rw [Plan.securityLine?, Plan.securityLine?, rewording.names_reworded, rewording.position_placed,
    alike.seriesOf kind, alike.text? "timeframe" (by rw [kind]; decide)]

theorem mathExpr? {placed : Placed} (kind : placed.node.kind = .math) :
    rewording.reworded.mathExpr? (rewording.placed placed) = plan.mathExpr? placed := by
  have alike := rewording.placed_alike placed
  rw [Plan.mathExpr?, Plan.mathExpr?, alike.text? "operation" (by rw [kind]; decide),
    alike.number? "value" (by rw [kind]; decide), rewording.suppliers]
  simp only [List.getElem?_map, Option.bind_map, Function.comp_def, rewording.read?]

theorem calculations : rewording.reworded.calculations = plan.calculations := by
  rw [Plan.calculations, Plan.calculations, rewording.order_reworded, List.flatMap_map]
  refine List.flatMap_congr fun placed _ => ?_
  rw [Plan.calculationsOf, Plan.calculationsOf, rewording.placed_kind]
  cases kind : placed.node.kind with
  | dataSource =>
    dsimp only
    rw [rewording.securityLine? kind]
  | indicator => exact rewording.indicatorLines placed
  | math =>
    dsimp only
    rw [Plan.mathLine?, Plan.mathLine?, rewording.names_reworded, rewording.position_placed,
      rewording.mathExpr? kind]
  | condition | action | risk | timing => rfl

theorem examined? (sources : List Placed) :
    Plan.examined? (sources.map rewording.placed) =
      (Plan.examined? sources).map rewording.placed := by
  have sorted (test : Kind → Bool) :
      (sources.map rewording.placed).find? (fun source => test source.node.kind) =
        (sources.find? fun source => test source.node.kind).map rewording.placed := by
    rw [List.find?_map]
    refine congrArg (Option.map _) (List.find?_congr fun source _ => ?_)
    exact congrArg test (rewording.placed_kind source)
  rw [Plan.examined?, Plan.examined?, sorted fun kind => kind == .indicator || kind == .math,
    sorted fun kind => kind == .dataSource]
  cases sources.find? fun source =>
    source.node.kind == .indicator || source.node.kind == .math <;> rfl

theorem leftOperand {placed : Placed} (kind : placed.node.kind = .condition) :
    rewording.reworded.leftOperand (rewording.placed placed) = plan.leftOperand placed := by
  have alike := rewording.placed_alike placed
  rw [Plan.leftOperand, Plan.leftOperand, rewording.suppliers, rewording.examined?,
    alike.text? "output" (by rw [kind]; decide), Option.bind_map]
  simp only [Function.comp_def, rewording.read?]

theorem rightOperand {placed : Placed} (kind : placed.node.kind = .condition) :
    rewording.reworded.rightOperand (rewording.placed placed) = plan.rightOperand placed := by
  have alike := rewording.placed_alike placed
  rw [Plan.rightOperand, Plan.rightOperand, rewording.suppliers,
    alike.number? "threshold" (by rw [kind]; decide)]
  cases placed.node.number? "threshold" with
  | some threshold => rfl
  | none =>
    dsimp only
    rw [rewording.examined?, Option.map_map, List.find?_map, Option.bind_map]
    simp only [Function.comp_def, rewording.read?]
    rfl

theorem conditionExpr {placed : Placed} (kind : placed.node.kind = .condition) :
    rewording.reworded.conditionExpr (rewording.placed placed) = plan.conditionExpr placed := by
  have alike := rewording.placed_alike placed
  have operators : rewording.reworded.operatorFunction = plan.operatorFunction := rfl
  rw [Plan.conditionExpr, Plan.conditionExpr, rewording.leftOperand kind,
    rewording.rightOperand kind, operators,
    alike.text? "operator" (by rw [kind]; decide)]

theorem definitions : rewording.reworded.definitions = plan.definitions := by
  rw [Plan.definitions, Plan.definitions, rewording.order_reworded, List.filterMap_map]
  refine List.filterMap_congr fun placed _ => ?_
  have logic : rewording.reworded.logicExpr? (rewording.placed placed) =
      plan.logicExpr? placed := by
    rw [Plan.logicExpr?, Plan.logicExpr?, rewording.placed_kind]
    cases kind : placed.node.kind with
    | condition => exact congrArg some (rewording.conditionExpr kind)
    | timing => exact congrArg some ((rewording.placed_alike placed).sessionExpr kind)
    | dataSource | indicator | action | risk | math => rfl
  rw [Function.comp_apply, logic, rewording.names_reworded, rewording.position_placed]

/-! ### Roles -/

theorem conditionRole? {placed : Placed} (kind : placed.node.kind = .condition) :
    Compilation.conditionRole? rewording.reworded.index (rewording.placed placed) =
      Compilation.conditionRole? plan.index placed := by
  have alike := rewording.placed_alike placed
  have actions (nodes : List Placed) :
      ((nodes.map rewording.placed).filter fun dependent =>
          dependent.node.kind == .action).findSome? (fun dependent => Role.of? dependent.node) =
        (nodes.filter fun dependent => dependent.node.kind == .action).findSome?
          fun dependent => Role.of? dependent.node := by
    induction nodes with
    | nil => rfl
    | cons first rest ih =>
      rw [List.map_cons, List.filter_cons, List.filter_cons, rewording.placed_kind]
      split
      · rename_i isAction
        rw [List.findSome?_cons, List.findSome?_cons, ih,
          (rewording.placed_alike first).actionRole (beq_iff_eq.1 isAction)]
      · exact ih
  rw [Compilation.conditionRole?, Compilation.conditionRole?, rewording.index_reworded,
    rewording.position_placed, Index.dependents_exchanged, Index.placed_exchanged,
    alike.role (.inl kind), alike.label]
  exact congrArg (fun role => ((Role.ofConfig? placed.node).or role).or _) (actions _)

private theorem filter_kind {test other : Placed → Bool} {kind : Kind} (nodes : List Placed)
    (same : ∀ placed, placed.node.kind = kind → other (rewording.placed placed) = test placed) :
    ((nodes.map rewording.placed).filter fun placed => placed.node.kind == kind && other placed) =
      (nodes.filter fun placed => placed.node.kind == kind && test placed).map
        rewording.placed := by
  rw [List.filter_map]
  refine congrArg (List.map _) (List.filter_congr fun placed _ => ?_)
  rw [Function.comp_apply, rewording.placed_kind]
  by_cases own : placed.node.kind = kind
  · rw [same placed own]
  · rw [beq_eq_false_iff_ne.2 own, Bool.false_and, Bool.false_and]

theorem conditionsOf (role : Role) :
    Compilation.conditionsOf rewording.reworded.index rewording.reworded.order role =
      (Compilation.conditionsOf plan.index plan.order role).map rewording.placed :=
  rewording.filter_kind plan.order fun _ kind =>
    congrArg (· == some role) (rewording.conditionRole? kind)

theorem actionsOf (role : Role) : Compilation.actionsOf rewording.reworded.order role =
    (Compilation.actionsOf plan.order role).map rewording.placed :=
  rewording.filter_kind plan.order fun placed kind =>
    congrArg (· == some role) ((rewording.placed_alike placed).actionRole kind)

theorem liveActionsOf (role : Role) :
    Compilation.liveActionsOf rewording.reworded.index rewording.reworded.order role =
      (Compilation.liveActionsOf plan.index plan.order role).map rewording.placed := by
  rw [Compilation.liveActionsOf, Compilation.liveActionsOf, rewording.conditionsOf,
    List.isEmpty_map, rewording.actionsOf]
  split <;> rfl

theorem roleWarnings : Compilation.roleWarnings rewording.reworded.index rewording.reworded.order =
    Compilation.roleWarnings plan.index plan.order := by
  have unassigned : Compilation.unassignedWarnings rewording.reworded.order =
      Compilation.unassignedWarnings plan.order := by
    rw [Compilation.unassignedWarnings, Compilation.unassignedWarnings, rewording.order_reworded,
      rewording.filter_kind plan.order fun placed kind =>
        congrArg Option.isNone ((rewording.placed_alike placed).actionRole kind), List.map_map]
    refine List.map_congr_left fun placed _ => ?_
    exact congrArg₂ Warning.unassignedAction (rewording.placed_alike placed).id
      (rewording.placed_alike placed).label
  have idle (role : Role) :
      Compilation.idleWarnings rewording.reworded.index rewording.reworded.order role =
        Compilation.idleWarnings plan.index plan.order role := by
    have warned : ((Compilation.actionsOf plan.order role).map rewording.placed).map
          (fun placed => Warning.actionWithoutConditions placed.node.id role) =
        (Compilation.actionsOf plan.order role).map
          fun placed => Warning.actionWithoutConditions placed.node.id role := by
      rw [List.map_map]
      refine List.map_congr_left fun placed _ => ?_
      exact congrArg (Warning.actionWithoutConditions · role) (rewording.placed_alike placed).id
    rw [Compilation.idleWarnings, Compilation.idleWarnings, rewording.conditionsOf,
      List.isEmpty_map, rewording.actionsOf, warned]
  rw [Compilation.roleWarnings, Compilation.roleWarnings, unassigned, idle, idle]

theorem variablesOf (nodes : List Placed) :
    rewording.reworded.variablesOf (nodes.map rewording.placed) = plan.variablesOf nodes := by
  rw [Plan.variablesOf, Plan.variablesOf, List.filterMap_map]
  rfl

theorem timings : rewording.reworded.timings = plan.timings.map rewording.placed := by
  rw [Plan.timings, Plan.timings, rewording.order_reworded, List.filter_map]
  refine congrArg (List.map _) (List.filter_congr fun placed _ => ?_)
  exact congrArg (· == Kind.timing) (rewording.placed_kind placed)

theorem entryExpr? : rewording.reworded.entryExpr? = plan.entryExpr? := by
  rw [Plan.entryExpr?, Plan.entryExpr?, rewording.conditionsOf, rewording.timings,
    List.isEmpty_map, rewording.variablesOf, rewording.variablesOf]

theorem exitExpr? : rewording.reworded.exitExpr? = plan.exitExpr? := by
  rw [Plan.exitExpr?, Plan.exitExpr?, rewording.conditionsOf, List.isEmpty_map,
    rewording.variablesOf]

omit rewording in
private theorem kind_of_mem_liveActionsOf {role : Role} {placed : Placed}
    (member : placed ∈ Compilation.liveActionsOf plan.index plan.order role) :
    placed.node.kind = .action := by
  rw [Compilation.liveActionsOf] at member
  split at member
  · exact absurd member List.not_mem_nil
  · have passed := (List.mem_filter.1 member).2
    rw [Bool.and_eq_true, beq_iff_eq] at passed
    exact passed.1

theorem entryOrders : rewording.reworded.entryOrders = plan.entryOrders := by
  rw [Plan.entryOrders, Plan.entryOrders, rewording.liveActionsOf, List.map_map]
  refine List.map_congr_left fun placed member => ?_
  exact (rewording.placed_alike placed).entryOrder (kind_of_mem_liveActionsOf member)

theorem exitOrders : rewording.reworded.exitOrders = plan.exitOrders := by
  rw [Plan.exitOrders, Plan.exitOrders, rewording.liveActionsOf, List.map_map]
  exact List.map_congr_left fun placed _ => (rewording.placed_alike placed).exitOrder

theorem protections : rewording.reworded.protections = plan.protections := by
  rw [Plan.protections, Plan.protections, rewording.order_reworded, List.filterMap_map]
  refine List.filterMap_congr fun placed _ => ?_
  rw [Function.comp_apply, rewording.placed_kind]
  by_cases kind : placed.node.kind = .risk
  · rw [if_pos (beq_iff_eq.2 kind), if_pos (beq_iff_eq.2 kind),
      (rewording.placed_alike placed).protection? kind]
  · rw [if_neg fun same => kind (beq_iff_eq.1 same), if_neg fun same => kind (beq_iff_eq.1 same)]

/-! ### Plots -/

theorem series (placed : Placed) (signature : Signature) :
    rewording.reworded.series (rewording.placed placed) signature =
      plan.series placed signature := by
  rw [Plan.series, Plan.series, rewording.names_reworded, rewording.position_placed,
    (rewording.placed_alike placed).displayLabel]

theorem indicatorPlotsFrom (number : Nat) (indicators : List (Placed × Signature)) :
    rewording.reworded.indicatorPlotsFrom number
        (indicators.map fun entry => (rewording.placed entry.1, entry.2)) =
      plan.indicatorPlotsFrom number indicators := by
  induction indicators generalizing number with
  | nil => rfl
  | cons entry rest ih =>
    obtain ⟨placed, signature⟩ := entry
    have references : rewording.reworded.references (rewording.placed placed) signature =
        plan.references placed signature := rfl
    rw [List.map_cons, Plan.indicatorPlotsFrom, Plan.indicatorPlotsFrom, references,
      rewording.series, ih]

theorem plots : rewording.reworded.plots = plan.plots := by
  have all : rewording.reworded.allSeries = plan.allSeries := by
    rw [Plan.allSeries, Plan.allSeries, rewording.indicators, List.flatMap_map]
    exact List.flatMap_congr fun ⟨placed, signature⟩ _ => rewording.series placed signature
  rw [Plan.plots, Plan.plots, rewording.indicators, rewording.indicatorPlotsFrom, all]

theorem ofPlan (options : Compilation.Options) :
    Compilation.Program.ofPlan options rewording.reworded =
      Compilation.Program.ofPlan options plan := by
  rw [Compilation.Program.ofPlan, Compilation.Program.ofPlan, rewording.inputs,
    rewording.calculations, rewording.definitions, rewording.entryExpr?, rewording.exitExpr?,
    rewording.entryOrders, rewording.exitOrders, rewording.protections, rewording.plots]

end Plans

/-! ### Compilations -/

section Compilations

variable {catalogue : Catalogue} (rewording : Rewording catalogue) (options : Compilation.Options)
  (graph : Graph)

theorem metadata (inputCount : Nat) (code : String) :
    Compilation.Metadata.of options (graph.exchanged rewording.exchange) inputCount code =
      Compilation.Metadata.of options graph inputCount code := by
  have edges : (graph.exchanged rewording.exchange).edges = graph.edges := rfl
  rw [Compilation.Metadata.of, Compilation.Metadata.of, Graph.length_nodes_exchanged, edges]
  simp only [Graph.countKind_exchanged rewording.kinds]

theorem rejected (errors : List Diagnostic.Error) (warnings : List Warning) :
    Compilation.rejected options (graph.exchanged rewording.exchange) errors warnings =
      Compilation.rejected options graph errors warnings := by
  rw [Compilation.rejected, Compilation.rejected, rewording.metadata]

theorem generate {plan : Compilation.Plan} (rewording : Rewording plan.catalogue)
    (warnings : List Warning) :
    Compilation.generate options rewording.reworded warnings =
      Compilation.generate options plan warnings := by
  have exchanged : rewording.reworded.index.graph =
      plan.index.graph.exchanged rewording.exchange := rfl
  rw [Compilation.generate, Compilation.generate, rewording.ofPlan, rewording.roleWarnings,
    exchanged, rewording.names_reworded]
  simp only [rewording.rejected, rewording.metadata]

theorem ofIndex (index : Index) :
    Compilation.Plan.ofIndex catalogue (index.exchanged rewording.exchange) =
      @reworded (Compilation.Plan.ofIndex catalogue index) rewording := by
  have order : (index.exchanged rewording.exchange).placed
      (index.exchanged rewording.exchange).order =
        (index.placed index.order).map rewording.placed := by
    rw [Index.order_exchanged, Index.placed_exchanged]
    rfl
  rw [Compilation.Plan.ofIndex, order, rewording.bindAlong]
  rfl

private theorem generate_ofIndex (index : Index) (warnings : List Warning) :
    Compilation.generate options
        (Compilation.Plan.ofIndex catalogue (index.exchanged rewording.exchange)) warnings =
      Compilation.generate options (Compilation.Plan.ofIndex catalogue index) warnings := by
  rw [rewording.ofIndex]
  exact @generate options (Compilation.Plan.ofIndex catalogue index) rewording warnings

theorem validate : Validation.validate catalogue (graph.exchanged rewording.exchange) =
    Validation.validate catalogue graph := by
  rw [Validation.validate, Validation.validate, Index.ofGraph_exchanged rewording.ids,
    rewording.validateIndex]

theorem compile :
    Compilation.compile catalogue options (graph.exchanged rewording.exchange) =
      Compilation.compile catalogue options graph := by
  rw [Compilation.compile, Compilation.compile, Index.ofGraph_exchanged rewording.ids,
    rewording.validateIndex, rewording.generate_ofIndex, rewording.rejected]

end Compilations

end Rewording

/-- Nodes of a graph may be exchanged for others that read alike, whatever the exchange would do to
other nodes. -/
theorem compile_exchanged {catalogue : Catalogue} {graph : Graph} {exchange : Exchange}
    (alike : ∀ position node, graph.nodes[position]? = some node →
      Alike catalogue node (exchange position node)) (options : Compilation.Options) :
    Validation.validate catalogue (graph.exchanged exchange) =
        Validation.validate catalogue graph ∧
      Compilation.compile catalogue options (graph.exchanged exchange) =
        Compilation.compile catalogue options graph := by
  classical
  -- the exchange is cut down to the nodes that it keeps alike, so that it is a rewording
  let kept : Rewording catalogue :=
    { exchange := fun position node =>
        if Alike catalogue node (exchange position node) then exchange position node else node
      alike := fun position node => by
        split
        · assumption
        · exact Alike.refl catalogue node }
  have same : graph.exchanged exchange = graph.exchanged kept.exchange := by
    refine Graph.exchanged_congr fun position node found => ?_
    exact (if_pos (alike position node found)).symm
  rw [same]
  exact ⟨kept.validate graph, kept.compile options graph⟩

theorem compile_set {catalogue : Catalogue} {graph : Graph} {position : Nat} {node other : Node}
    (found : graph.nodes[position]? = some node) (alike : Alike catalogue node other)
    (options : Compilation.Options) :
    Validation.validate catalogue { graph with nodes := graph.nodes.set position other } =
        Validation.validate catalogue graph ∧
      Compilation.compile catalogue options
          { graph with nodes := graph.nodes.set position other } =
        Compilation.compile catalogue options graph := by
  rw [Graph.set_eq_exchanged]
  refine compile_exchanged (fun place kept stands => ?_) options
  by_cases same : position = place
  · subst same
    cases Option.some.inj (found.symm.trans stands)
    rw [if_pos rfl]
    exact alike
  · rw [if_neg same]
    exact Alike.refl catalogue kept

end StrategyCompiler
