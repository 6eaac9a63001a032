import StrategyCompiler.Proofs.Compilation.Reads
import StrategyCompiler.Proofs.Graph.Range
/-!
No pass over a graph looks beyond its positions.  The cycle search and the walk that orders nodes
stay among them, the table of names is written at positions of its own, and what stands behind the
rows of an index changes neither the roles of conditions nor the program.
-/

set_option autoImplicit false

namespace StrategyCompiler

open Catalogue (Parameter Settings Signature)
open Naming (namingOrder)
open Relation (ReflTransGen)
open StrategyCompiler.Graph (Index Node Placed Role Walk.Progress Walk.Search)

/-! ### Indices with more behind them -/

namespace Graph.Index

def extendedBy (index beyond : Index) : Index where
  graph := { index.graph with nodes := index.graph.nodes ++ beyond.graph.nodes }
  sources := index.sources ++ beyond.sources
  targets := index.targets ++ beyond.targets

variable {index : Index} {positions : List Nat} (beyond : Index)

private theorem placed_extendedBy (inside : ∀ position ∈ positions, position < index.size) :
    (index.extendedBy beyond).placed positions = index.placed positions := by
  refine List.filterMap_congr fun position member => congrArg _ ?_
  exact List.getElem?_append_left (inside position member)

theorem map_position_placed_of_inside
    (inside : ∀ position ∈ positions, position < index.size) :
    (index.placed positions).map Placed.position = positions := by
  rw [map_position_placed, List.filter_eq_self]
  intro position member
  rw [node?, List.getElem?_eq_getElem (inside position member), Option.isSome_some]

section OfGraph

variable {graph : Graph} {position : Nat}

private theorem placed_row_extendedBy {rows : List (List Nat)} (more : List (List Nat))
    (each : rows.length = graph.nodes.length)
    (within : ∀ row ∈ rows, ∀ other ∈ row, other < graph.nodes.length)
    (inside : position < graph.nodes.length) :
    ((ofGraph graph).extendedBy beyond).placed ((rows ++ more)[position]?.getD []) =
      (ofGraph graph).placed (rows[position]?.getD []) := by
  rw [← each] at inside
  rw [List.getElem?_append_left inside, List.getElem?_eq_getElem inside, Option.getD_some]
  refine placed_extendedBy beyond fun other member => ?_
  rw [size_ofGraph]
  exact within _ (List.getElem_mem inside) other member

theorem placed_dependencies_extendedBy (inside : position < graph.nodes.length) :
    ((ofGraph graph).extendedBy beyond).placed
        (((ofGraph graph).extendedBy beyond).dependencies position) =
      (ofGraph graph).placed ((ofGraph graph).dependencies position) :=
  placed_row_extendedBy beyond beyond.sources (exact_ofGraph graph).sourceRows
    (exact_ofGraph graph).sourcesInside inside

theorem placed_dependents_extendedBy (inside : position < graph.nodes.length) :
    ((ofGraph graph).extendedBy beyond).placed
        (((ofGraph graph).extendedBy beyond).dependents position) =
      (ofGraph graph).placed ((ofGraph graph).dependents position) :=
  placed_row_extendedBy beyond beyond.targets (exact_ofGraph graph).targetRows
    (exact_ofGraph graph).targetsInside inside

theorem cycle?_lt (found : (ofGraph graph).cycle? = some position) :
    position < graph.nodes.length := by
  have cycle := Walk.transGen_of_back? ⟨.nil, by simp⟩ found
  obtain ⟨_, -, depends⟩ := Relation.TransGen.tail'_iff.1 cycle
  exact dependency_lt depends

end OfGraph

end Graph.Index

/-! ### What programs read of an index -/

namespace Compilation

section Readings

variable {plan : Plan} {index : Index}

def Plan.withIndex (plan : Plan) (index : Index) : Plan := { plan with index }

private theorem arguments_withIndex (placed : Placed) (values : Settings) (sources : List Placed)
    (parameters : List Parameter) :
    (plan.withIndex index).arguments placed values sources parameters =
      plan.arguments placed values sources parameters := by
  induction parameters generalizing sources with
  | nil => rfl
  | cons parameter rest ih =>
    rw [arguments_cons, arguments_cons, ih]
    rfl

private theorem calculationsOf_withIndex {placed : Placed}
    (same : (plan.withIndex index).suppliers placed = plan.suppliers placed) :
    (plan.withIndex index).calculationsOf placed = plan.calculationsOf placed := by
  have arguments (signature : Signature) :
      (plan.withIndex index).argumentsOf placed signature = plan.argumentsOf placed signature := by
    rw [Plan.argumentsOf, Plan.argumentsOf, same, arguments_withIndex]
  have lines : (plan.withIndex index).indicatorLines placed = plan.indicatorLines placed := by
    unfold Plan.indicatorLines
    simp only [arguments]
    rfl
  have expr : (plan.withIndex index).mathExpr? placed = plan.mathExpr? placed := by
    unfold Plan.mathExpr?
    rw [same]
    rfl
  unfold Plan.calculationsOf Plan.mathLine?
  rw [lines, expr]
  rfl

private theorem logicExpr?_withIndex {placed : Placed}
    (same : (plan.withIndex index).suppliers placed = plan.suppliers placed) :
    (plan.withIndex index).logicExpr? placed = plan.logicExpr? placed := by
  unfold Plan.logicExpr? Plan.conditionExpr Plan.leftOperand Plan.rightOperand
  rw [same]
  rfl

private theorem plots_withIndex : (plan.withIndex index).plots = plan.plots := by
  have behind (number : Nat) (indicators : List (Placed × Signature)) :
      (plan.withIndex index).indicatorPlotsFrom number indicators =
        plan.indicatorPlotsFrom number indicators := by
    induction indicators generalizing number with
    | nil => rfl
    | cons entry rest ih =>
      rw [Plan.indicatorPlotsFrom, Plan.indicatorPlotsFrom, ih]
      rfl
  rw [Plan.plots, behind]
  rfl

private theorem conditionsOf_congr {order : List Placed} {other : Index}
    (same : ∀ placed ∈ order, conditionRole? other placed = conditionRole? index placed)
    (role : Role) : conditionsOf other order role = conditionsOf index order role :=
  List.filter_congr fun placed member => by rw [same placed member]

private theorem ofPlan_withIndex (options : Options)
    (suppliers : ∀ placed ∈ plan.order,
      (plan.withIndex index).suppliers placed = plan.suppliers placed)
    (roles : ∀ placed ∈ plan.order,
      conditionRole? index placed = conditionRole? plan.index placed) :
    Program.ofPlan options (plan.withIndex index) = Program.ofPlan options plan := by
  have calculations : (plan.withIndex index).calculations = plan.calculations :=
    List.flatMap_congr fun placed member => calculationsOf_withIndex (suppliers placed member)
  have definitions : (plan.withIndex index).definitions = plan.definitions := by
    refine List.filterMap_congr fun placed member => ?_
    rw [logicExpr?_withIndex (suppliers placed member)]
    rfl
  have conditions (role : Role) : conditionsOf (plan.withIndex index).index
      (plan.withIndex index).order role = conditionsOf plan.index plan.order role :=
    conditionsOf_congr roles role
  have entry : (plan.withIndex index).entryExpr? = plan.entryExpr? := by
    unfold Plan.entryExpr?
    rw [conditions]
    rfl
  have exit : (plan.withIndex index).exitExpr? = plan.exitExpr? := by
    unfold Plan.exitExpr?
    rw [conditions]
    rfl
  have live (role : Role) : liveActionsOf (plan.withIndex index).index
      (plan.withIndex index).order role = liveActionsOf plan.index plan.order role := by
    unfold liveActionsOf
    rw [conditions]
    rfl
  -- The inputs and the protections read the order and the names alone.
  unfold Program.ofPlan Plan.entryOrders Plan.exitOrders
  rw [calculations, definitions, entry, exit, live, live, plots_withIndex]
  rfl

end Readings

/-! ### All passes -/

section Passes

variable (catalogue : Catalogue) (graph : Graph)

/-- Every pass over a graph keeps to the positions of the graph.  The cycle search and the walk that
orders nodes do so at every step on the way to their results; no node is missed where a row or the
order is read; names are entered at positions of the table; and roles and programs stay the same
whatever stands behind the nodes and rows. -/
structure InRange : Prop where
  searches : ∃ steps, Walk.Search.Answers (Index.ofGraph graph).dependencies
    (Walk.Search.start graph.nodes.length) steps (Index.ofGraph graph).cycle?
  searched : ∀ search, ReflTransGen
      (fun search next => Walk.Search.step (Index.ofGraph graph).dependencies search = .inl next)
      (Walk.Search.start graph.nodes.length) search →
    search.Inside graph.nodes.length
  found : ∀ position, (Index.ofGraph graph).cycle? = some position →
    position < graph.nodes.length
  walks : ReflTransGen (Walk.Progress.Step (Index.ofGraph graph).dependencies)
    ⟨List.range graph.nodes.length, [], []⟩ ⟨[], [], (Index.ofGraph graph).order⟩
  walked : ∀ progress, ReflTransGen (Walk.Progress.Step (Index.ofGraph graph).dependencies)
      ⟨List.range graph.nodes.length, [], []⟩ progress →
    progress.Inside graph.nodes.length
  ordered : (namingOrder graph).map Placed.position = (Index.ofGraph graph).order
  supplied : ∀ position, ((Index.ofGraph graph).placed
      ((Index.ofGraph graph).dependencies position)).map Placed.position =
    (Index.ofGraph graph).dependencies position
  consumed : ∀ position, ((Index.ofGraph graph).placed
      ((Index.ofGraph graph).dependents position)).map Placed.position =
    (Index.ofGraph graph).dependents position
  named : ∀ given ∈ (Naming.givenInputs catalogue graph).1,
    given.1 < (Naming.bind catalogue graph).entries.length
  bound : ∀ given ∈ Naming.givenBindings catalogue graph,
    given.1 < (Naming.bind catalogue graph).entries.length
  grouped : ∀ (beyond : Index) (role : Role),
    conditionsOf ((Index.ofGraph graph).extendedBy beyond) (namingOrder graph) role =
      conditionsOf (Index.ofGraph graph) (namingOrder graph) role
  emitted : ∀ (options : Options) (beyond : Index),
    Program.ofPlan options ((Plan.ofIndex catalogue (.ofGraph graph)).withIndex
        ((Index.ofGraph graph).extendedBy beyond)) =
      Program.ofPlan options (Plan.ofIndex catalogue (.ofGraph graph))

variable {catalogue graph}

private theorem order_lt {position : Nat} (member : position ∈ (Index.ofGraph graph).order) :
    position < graph.nodes.length := by
  rw [← Index.size_ofGraph]
  exact Index.mem_order.1 member

private theorem position_lt_of_mem {placed : Placed} (member : placed ∈ namingOrder graph) :
    placed.position < graph.nodes.length :=
  order_lt (Index.mem_placed.1 member).1

private theorem conditionRole?_extendedBy (beyond : Index) {placed : Placed}
    (member : placed ∈ namingOrder graph) :
    conditionRole? ((Index.ofGraph graph).extendedBy beyond) placed =
      conditionRole? (Index.ofGraph graph) placed := by
  unfold conditionRole?
  rw [Index.placed_dependents_extendedBy beyond (position_lt_of_mem member)]

private theorem suppliers_extendedBy (beyond : Index) {placed : Placed}
    (member : placed ∈ namingOrder graph) :
    ((Plan.ofIndex catalogue (.ofGraph graph)).withIndex
        ((Index.ofGraph graph).extendedBy beyond)).suppliers placed =
      (Plan.ofIndex catalogue (.ofGraph graph)).suppliers placed :=
  congrArg (List.filter _) (Index.placed_dependencies_extendedBy beyond (position_lt_of_mem member))

private theorem entries_lt {position : Nat} (member : ∃ placed ∈ namingOrder graph,
    placed.position = position) : position < (Naming.bind catalogue graph).entries.length := by
  obtain ⟨placed, inside, rfl⟩ := member
  rw [Naming.bind_entries, List.length_mapIdx]
  exact position_lt_of_mem inside

private theorem answers_cycle? (graph : Graph) :
    ∃ steps, Walk.Search.Answers (Index.ofGraph graph).dependencies
      (Walk.Search.start graph.nodes.length) steps (Index.ofGraph graph).cycle? := by
  have closed : ∀ node, ∀ dep ∈ (Index.ofGraph graph).dependencies node,
      dep < graph.nodes.length := fun _ _ depends => Index.dependency_lt depends
  obtain ⟨steps, -, answers⟩ :=
    Walk.Search.exists_answers closed (Walk.Search.marked_start graph.nodes.length)
  refine ⟨steps, ?_⟩
  rw [Index.cycle?, Index.size_ofGraph]
  exact answers

private theorem inRange (catalogue : Catalogue) (graph : Graph) : InRange catalogue graph where
  searches := answers_cycle? graph
  searched _ := Walk.Search.inside_of_reached fun _ _ _ depends => Index.dependency_lt depends
  found _ := Index.cycle?_lt
  walks := by
    rw [Index.order, Index.size_ofGraph]
    exact Walk.Progress.reaches_order _ _ _ _
  walked _ := Walk.Progress.inside_of_reached fun _ _ _ depends => Index.dependency_lt depends
  ordered := Index.map_position_placed_of_inside fun _ member => Index.mem_order.1 member
  supplied position := by
    refine Index.map_position_placed_of_inside fun source depends => ?_
    rw [Index.size_ofGraph]
    exact Index.dependency_lt depends
  consumed position := by
    refine Index.map_position_placed_of_inside fun target consumes => ?_
    rw [Index.size_ofGraph]
    exact Index.dependent_lt consumes
  named given member := by
    obtain ⟨placed, inside, same, -⟩ := Naming.mem_nameAllInputs member
    exact entries_lt ⟨placed, inside, same⟩
  bound given member := by
    obtain ⟨placed, inside, same, -⟩ := Naming.mem_nameNodes member
    exact entries_lt ⟨placed, inside, same⟩
  grouped beyond :=
    conditionsOf_congr fun _ member => conditionRole?_extendedBy beyond member
  emitted options beyond :=
    ofPlan_withIndex options (fun _ member => suppliers_extendedBy beyond member)
      fun _ member => conditionRole?_extendedBy beyond member

/-- The index of a graph is exact, also where ids are repeated, edges lead nowhere, or a node has
edges to itself; and every pass keeps to its positions. -/
theorem exact_and_inRange (catalogue : Catalogue) (graph : Graph) :
    (Index.ofGraph graph).Exact graph ∧ InRange catalogue graph :=
  ⟨Index.exact_ofGraph graph, inRange catalogue graph⟩

end Passes

end Compilation

end StrategyCompiler
