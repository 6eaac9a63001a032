import Mathlib.Data.List.Basic
import StrategyCompiler.Proofs.Graph.Walk
/-!
The index of a graph.  A position depends on exactly those that an edge leads from, the dependency
order lists every position once, and it puts dependencies first when the graph has no cycle.
-/

set_option autoImplicit false

namespace StrategyCompiler.Graph

open Relation (TransGen)

theorem position?_eq_some_iff {graph : Graph} {id : String} {position : Nat} :
    graph.position? id = some position ↔
      (∃ node, graph.nodes[position]? = some node ∧ node.id = id) ∧
        ∀ earlier < position, ∀ node, graph.nodes[earlier]? = some node → node.id ≠ id := by
  rw [position?, List.findIdx?_eq_some_iff_getElem]
  constructor
  · rintro ⟨inside, found, first⟩
    refine ⟨⟨_, List.getElem?_eq_getElem inside, by simpa using found⟩, ?_⟩
    intro earlier lower node stands equal
    obtain ⟨_, rfl⟩ := List.getElem?_eq_some_iff.1 stands
    exact first earlier lower (by simpa using equal)
  · rintro ⟨⟨node, stands, equal⟩, first⟩
    obtain ⟨inside, rfl⟩ := List.getElem?_eq_some_iff.1 stands
    refine ⟨inside, by simpa using equal, fun earlier lower => ?_⟩
    have := first earlier lower _ (List.getElem?_eq_getElem (lower.trans inside))
    simpa using this

theorem position?_eq_none_iff {graph : Graph} {id : String} :
    graph.position? id = none ↔ ∀ node ∈ graph.nodes, node.id ≠ id := by
  simp [position?]

theorem position?_lt {graph : Graph} {id : String} {position : Nat}
    (found : graph.position? id = some position) : position < graph.nodes.length := by
  obtain ⟨⟨node, stands, -⟩, -⟩ := position?_eq_some_iff.1 found
  exact (List.getElem?_eq_some_iff.1 stands).1

def Edge.sourceInto? (graph : Graph) (position : Nat) (edge : Edge) : Option Nat :=
  match graph.position? edge.source, graph.position? edge.target with
  | some source, some target => if target = position then some source else none
  | _, _ => none

theorem Edge.sourceInto?_eq_some_iff {graph : Graph} {position source : Nat} {edge : Edge} :
    edge.sourceInto? graph position = some source ↔
      graph.position? edge.source = some source ∧ graph.position? edge.target = some position := by
  unfold Edge.sourceInto?
  split <;> rename_i found
  · simp_all [and_comm]
  · constructor
    · intro h
      exact absurd h (by simp)
    · rintro ⟨source, target⟩
      exact absurd target (found _ _ source)

namespace Index

private theorem link_graph (index : Index) (edge : Edge) :
    (index.link edge).graph = index.graph := by
  unfold link
  split <;> rfl

private theorem link_sources_length (index : Index) (edge : Edge) :
    (index.link edge).sources.length = index.sources.length := by
  unfold link
  split <;> simp

private theorem foldl_link_graph (edges : List Edge) (index : Index) :
    (edges.foldl link index).graph = index.graph := by
  induction edges generalizing index with
  | nil => rfl
  | cons edge edges ih => rw [List.foldl_cons, ih, link_graph]

@[simp] theorem ofGraph_graph (graph : Graph) : (ofGraph graph).graph = graph :=
  foldl_link_graph graph.edges _

@[simp] theorem size_ofGraph (graph : Graph) : (ofGraph graph).size = graph.nodes.length := by
  rw [size, ofGraph_graph]

@[simp] theorem node?_ofGraph (graph : Graph) (position : Nat) :
    (ofGraph graph).node? position = graph.nodes[position]? := by
  rw [node?, ofGraph_graph]

private theorem dependencies_link (index : Index) (edge : Edge) (position : Nat)
    (inside : position < index.sources.length) :
    (index.link edge).dependencies position =
      index.dependencies position ++ (edge.sourceInto? index.graph position).toList := by
  unfold link Edge.sourceInto? dependencies
  cases index.graph.position? edge.source with
  | none => simp
  | some source =>
    cases index.graph.position? edge.target with
    | none => simp
    | some target =>
      by_cases own : target = position
      · simp [own, List.getElem?_eq_getElem inside]
      · simp [own]

private theorem dependencies_foldl_link (edges : List Edge) (index : Index) (position : Nat)
    (inside : position < index.sources.length) :
    (edges.foldl link index).dependencies position =
      index.dependencies position ++ edges.filterMap (Edge.sourceInto? index.graph position) := by
  induction edges generalizing index with
  | nil => simp
  | cons edge edges ih =>
    rw [List.foldl_cons, ih _ (by rwa [link_sources_length]),
      dependencies_link index edge position inside, link_graph, List.append_assoc,
      List.filterMap_cons]
    cases edge.sourceInto? index.graph position <;> rfl

theorem dependencies_ofGraph (graph : Graph) (position : Nat)
    (inside : position < graph.nodes.length) :
    (ofGraph graph).dependencies position =
      graph.edges.filterMap (Edge.sourceInto? graph position) := by
  unfold ofGraph
  rw [dependencies_foldl_link _ _ _ (by simpa using inside)]
  simp [dependencies, inside]

private theorem foldl_link_sources_length (edges : List Edge) (index : Index) :
    (edges.foldl link index).sources.length = index.sources.length := by
  induction edges generalizing index with
  | nil => rfl
  | cons edge edges ih => rw [List.foldl_cons, ih, link_sources_length]

theorem length_sources_ofGraph (graph : Graph) :
    (ofGraph graph).sources.length = graph.nodes.length := by
  unfold ofGraph
  rw [foldl_link_sources_length]
  exact List.length_replicate

private theorem dependencies_outside (graph : Graph) {position : Nat}
    (outside : graph.nodes.length ≤ position) : (ofGraph graph).dependencies position = [] := by
  rw [← length_sources_ofGraph] at outside
  simp [dependencies, List.getElem?_eq_none outside]

theorem mem_dependencies_ofGraph {graph : Graph} {position source : Nat} :
    source ∈ (ofGraph graph).dependencies position ↔
      ∃ edge ∈ graph.edges, graph.position? edge.source = some source ∧
        graph.position? edge.target = some position := by
  by_cases inside : position < graph.nodes.length
  · simp [dependencies_ofGraph graph position inside, Edge.sourceInto?_eq_some_iff]
  · rw [dependencies_outside graph (Nat.le_of_not_lt inside)]
    constructor
    · simp
    · rintro ⟨edge, -, -, target⟩
      exact absurd (position?_lt target) inside

theorem dependency_lt {graph : Graph} {position source : Nat}
    (depends : source ∈ (ofGraph graph).dependencies position) :
    source < graph.nodes.length := by
  obtain ⟨edge, -, found, -⟩ := mem_dependencies_ofGraph.1 depends
  exact position?_lt found

theorem order_perm_range (index : Index) : index.order.Perm (List.range index.size) := by
  simpa [order] using Walk.order_perm index.dependencies (List.range index.size) [] []

theorem mem_order {index : Index} {position : Nat} :
    position ∈ index.order ↔ position < index.size := by
  rw [index.order_perm_range.mem_iff, List.mem_range]

private theorem sorted_order_of_cycle? {graph : Graph} (none : (ofGraph graph).cycle? = none) :
    Walk.Sorted (ofGraph graph).dependencies (ofGraph graph).order := by
  refine Walk.sorted_order ⟨?_, trivial, ?_⟩ none
  · intro before node after split
    exact absurd split (by simp)
  · intro node _ dep depends
    simpa using dependency_lt depends

theorem cycle?_eq_none_iff {graph : Graph} :
    (ofGraph graph).cycle? = none ↔
      ∀ position, ¬ TransGen (Walk.DependsOn (ofGraph graph).dependencies) position position := by
  constructor
  · intro none position cycle
    have inside : position < graph.nodes.length := by
      obtain ⟨_, -, depends⟩ := Relation.TransGen.tail'_iff.1 cycle
      exact dependency_lt depends
    exact Walk.not_transGen_of_sorted (sorted_order_of_cycle? none)
      (mem_order.2 (by simpa using inside)) cycle
  · intro acyclic
    rw [Option.eq_none_iff_forall_not_mem]
    intro found back
    exact acyclic found (Walk.transGen_of_back? ⟨.nil, by simp⟩ back)

theorem mem_placed {index : Index} {positions : List Nat} {placed : Placed} :
    placed ∈ index.placed positions ↔
      placed.position ∈ positions ∧ index.node? placed.position = some placed.node := by
  cases placed with
  | mk position node =>
    simp only [Index.placed, List.mem_filterMap, Option.map_eq_some_iff, Placed.mk.injEq]
    constructor
    · rintro ⟨_, member, _, found, rfl, rfl⟩
      exact ⟨member, found⟩
    · rintro ⟨member, found⟩
      exact ⟨position, member, node, found, rfl, rfl⟩

theorem mem_placed_order {index : Index} {placed : Placed} :
    placed ∈ index.placed index.order ↔ index.node? placed.position = some placed.node := by
  rw [mem_placed, mem_order, and_iff_right_iff_imp]
  intro found
  exact (List.getElem?_eq_some_iff.1 found).1

theorem map_position_placed (index : Index) (positions : List Nat) :
    (index.placed positions).map Placed.position =
      positions.filter fun position => (index.node? position).isSome := by
  induction positions with
  | nil => rfl
  | cons position rest ih =>
    unfold placed at ih ⊢
    rw [List.filterMap_cons, List.filter_cons]
    cases found : index.node? position with
    | none => simpa using ih
    | some node => simpa using ih

theorem positions_placed_order (graph : Graph) :
    (((ofGraph graph).placed (ofGraph graph).order).map Placed.position).Perm
      (List.range graph.nodes.length) := by
  have each := order_perm_range (ofGraph graph)
  rw [size_ofGraph] at each
  have stands : ∀ position ∈ (ofGraph graph).order,
      ((ofGraph graph).node? position).isSome = true := by
    intro position member
    have inside := List.mem_range.1 (each.mem_iff.1 member)
    rw [node?_ofGraph, List.getElem?_eq_getElem inside]
    rfl
  rwa [map_position_placed, List.filter_eq_self.2 stands]

theorem placed_before {graph : Graph} (none : (ofGraph graph).cycle? = none)
    {before after : List Placed} {placed source : Placed}
    (split : (ofGraph graph).placed (ofGraph graph).order = before ++ placed :: after)
    (supplies : source ∈ (ofGraph graph).placed ((ofGraph graph).dependencies placed.position)) :
    source ∈ before := by
  obtain ⟨depends, stands⟩ := mem_placed.1 supplies
  obtain ⟨front, rest, cut, rfl, behind⟩ := List.filterMap_eq_append_iff.1 split
  obtain ⟨skipped, position, last, rfl, nothing, found, rfl⟩ := List.filterMap_eq_cons_iff.1 behind
  obtain ⟨node, -, rfl⟩ := Option.map_eq_some_iff.1 found
  have sorted := sorted_order_of_cycle? none (front ++ skipped) position last (by simp [cut])
  have earlier : source ∈ (ofGraph graph).placed (front ++ skipped) :=
    mem_placed.2 ⟨sorted _ depends, stands⟩
  -- Positions without a node leave no trace in `before`.
  have empty : (ofGraph graph).placed skipped = [] := List.filterMap_eq_nil_iff.2 nothing
  unfold Index.placed at earlier empty
  rwa [List.filterMap_append, empty, List.append_nil] at earlier

/-- The dependency order lists every position once, in any graph.  It puts every node behind all
that the node depends on exactly when the search for a cycle finds none. -/
theorem order_exact (graph : Graph) :
    (ofGraph graph).order.Perm (List.range graph.nodes.length) ∧
      ((ofGraph graph).cycle? = none ↔
        ∀ before position after, (ofGraph graph).order = before ++ position :: after →
          ∀ dep ∈ (ofGraph graph).dependencies position, dep ∈ before) := by
  refine ⟨?_, sorted_order_of_cycle?, ?_⟩
  · have each := order_perm_range (ofGraph graph)
    rwa [size_ofGraph] at each
  · intro sorted
    rw [cycle?_eq_none_iff]
    intro position cycle
    -- A position on a cycle has a dependency, so it is one of the graph and stands in the order.
    obtain ⟨_, -, depends⟩ := Relation.TransGen.tail'_iff.1 cycle
    have inside : position < (ofGraph graph).size := by
      rw [size_ofGraph]
      exact dependency_lt depends
    exact Walk.not_transGen_of_sorted sorted (mem_order.2 inside) cycle

end Index

end StrategyCompiler.Graph
