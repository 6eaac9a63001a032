import StrategyCompiler.Proofs.Graph.Adjacency
/-!
Graphs in which nodes are exchanged for others with the same ids.  The edges lead to the same
positions, so that the order of the nodes and the first cycle stay the same.
-/

set_option autoImplicit false

namespace StrategyCompiler.Graph

abbrev Exchange := Nat → Node → Node

def exchanged (graph : Graph) (exchange : Exchange) : Graph :=
  { graph with nodes := graph.nodes.mapIdx exchange }

def Placed.exchanged (exchange : Exchange) (placed : Placed) : Placed :=
  ⟨placed.position, exchange placed.position placed.node⟩

def Index.exchanged (index : Index) (exchange : Exchange) : Index :=
  { index with graph := index.graph.exchanged exchange }

variable {exchange : Exchange}

theorem exchanged_congr {graph : Graph} {other : Exchange}
    (same : ∀ position node, graph.nodes[position]? = some node →
      exchange position node = other position node) :
    graph.exchanged exchange = graph.exchanged other := by
  have nodes : graph.nodes.mapIdx exchange = graph.nodes.mapIdx other := by
    refine List.ext_getElem? fun position => ?_
    rw [List.getElem?_mapIdx, List.getElem?_mapIdx]
    cases found : graph.nodes[position]? with
    | none => rfl
    | some node => exact congrArg some (same position node found)
  rw [exchanged, exchanged, nodes]

theorem set_eq_exchanged (graph : Graph) (position : Nat) (other : Node) :
    { graph with nodes := graph.nodes.set position other } =
      graph.exchanged fun place node => if position = place then other else node := by
  have nodes : graph.nodes.set position other =
      graph.nodes.mapIdx fun place node => if position = place then other else node := by
    refine List.ext_getElem? fun place => ?_
    rw [List.getElem?_set, List.getElem?_mapIdx]
    by_cases here : position = place
    · subst here
      by_cases inside : position < graph.nodes.length
      · rw [if_pos rfl, if_pos inside, List.getElem?_eq_getElem inside, Option.map_some, if_pos rfl]
      · rw [if_pos rfl, if_neg inside, List.getElem?_eq_none (Nat.le_of_not_lt inside),
          Option.map_none]
    · simp only [if_neg here, Option.map_id']
  rw [exchanged, nodes]

theorem map_eq_exchanged (graph : Graph) (change : Node → Node) :
    { graph with nodes := graph.nodes.map change } = graph.exchanged fun _ => change := by
  have nodes : graph.nodes.map change = graph.nodes.mapIdx fun _ => change := by
    refine List.ext_getElem? fun place => ?_
    rw [List.getElem?_map, List.getElem?_mapIdx]
  rw [exchanged, nodes]

section Readings

variable {α : Type} {reading : Node → α}
  (same : ∀ position node, reading (exchange position node) = reading node)
include same

theorem map_nodes_exchanged (graph : Graph) :
    (graph.exchanged exchange).nodes.map reading = graph.nodes.map reading := by
  refine List.ext_getElem? fun position => ?_
  rw [exchanged, List.getElem?_map, List.getElem?_mapIdx, List.getElem?_map, Option.map_map]
  exact congrArg (Option.map · graph.nodes[position]?) (funext (same position))

end Readings

theorem flatMap_nodes_exchanged {α : Type} {reading : Node → List α}
    (same : ∀ position node, reading (exchange position node) = reading node) (graph : Graph) :
    (graph.exchanged exchange).nodes.flatMap reading = graph.nodes.flatMap reading := by
  rw [List.flatMap_def, List.flatMap_def, map_nodes_exchanged same]

theorem length_nodes_exchanged (graph : Graph) :
    (graph.exchanged exchange).nodes.length = graph.nodes.length :=
  List.length_mapIdx

section Kinds

variable (kinds : ∀ position node, (exchange position node).kind = node.kind)
include kinds

theorem countKind_exchanged (graph : Graph) (kind : Kind) :
    (graph.exchanged exchange).countKind kind = graph.countKind kind := by
  have counted (nodes : List Node) :
      nodes.countP (fun node => node.kind == kind) = (nodes.map Node.kind).count kind := by
    rw [List.count, List.countP_map]
    rfl
  rw [countKind, countKind, counted, counted, map_nodes_exchanged kinds]

end Kinds

section Ids

variable (ids : ∀ position node, (exchange position node).id = node.id)
include ids

theorem position?_exchanged (graph : Graph) (id : String) :
    (graph.exchanged exchange).position? id = graph.position? id := by
  have entered (nodes : List Node) : nodes.findIdx? (fun node => node.id == id) =
      (nodes.map Node.id).findIdx? fun other => other == id := by
    rw [List.findIdx?_map]
    rfl
  rw [position?, position?, entered, entered, map_nodes_exchanged ids]

namespace Index

private theorem link_exchanged (index : Index) (edge : Edge) :
    (index.exchanged exchange).link edge = (index.link edge).exchanged exchange := by
  have own (id : String) :
      (index.exchanged exchange).graph.position? id = index.graph.position? id :=
    position?_exchanged ids index.graph id
  unfold link
  rw [own, own]
  cases index.graph.position? edge.source with
  | none => cases index.graph.position? edge.target <;> rfl
  | some source => cases index.graph.position? edge.target <;> rfl

theorem ofGraph_exchanged (graph : Graph) :
    ofGraph (graph.exchanged exchange) = (ofGraph graph).exchanged exchange := by
  have run (edges : List Edge) (index : Index) : edges.foldl link (index.exchanged exchange) =
      (edges.foldl link index).exchanged exchange := by
    induction edges generalizing index with
    | nil => rfl
    | cons edge edges ih => rw [List.foldl_cons, link_exchanged ids, ih, List.foldl_cons]
  let unlinked : List (List Nat) := List.replicate graph.nodes.length []
  rw [ofGraph, length_nodes_exchanged]
  exact run graph.edges ⟨graph, unlinked, unlinked⟩

end Index

end Ids

namespace Index

theorem dependencies_exchanged (index : Index) :
    (index.exchanged exchange).dependencies = index.dependencies := rfl

theorem dependents_exchanged (index : Index) :
    (index.exchanged exchange).dependents = index.dependents := rfl

private theorem size_exchanged (index : Index) : (index.exchanged exchange).size = index.size :=
  length_nodes_exchanged index.graph

theorem order_exchanged (index : Index) : (index.exchanged exchange).order = index.order := by
  rw [order, order, size_exchanged, dependencies_exchanged]

theorem cycle?_exchanged (index : Index) : (index.exchanged exchange).cycle? = index.cycle? := by
  rw [cycle?, cycle?, size_exchanged, dependencies_exchanged]

theorem node?_exchanged (index : Index) (position : Nat) :
    (index.exchanged exchange).node? position = (index.node? position).map (exchange position) :=
  List.getElem?_mapIdx

theorem placed_exchanged (index : Index) (positions : List Nat) :
    (index.exchanged exchange).placed positions =
      (index.placed positions).map (Placed.exchanged exchange) := by
  rw [placed, placed, List.map_filterMap]
  refine List.filterMap_congr fun position _ => ?_
  rw [node?_exchanged, Option.map_map, Option.map_map]
  rfl

private theorem all_exchanged (index : Index) :
    (index.exchanged exchange).all = index.all.map (Placed.exchanged exchange) := by
  rw [all, all, size_exchanged, placed_exchanged]

theorem ofKind_exchanged (kinds : ∀ position node, (exchange position node).kind = node.kind)
    (index : Index) (kind : Kind) : (index.exchanged exchange).ofKind kind =
      (index.ofKind kind).map (Placed.exchanged exchange) := by
  rw [ofKind, ofKind, all_exchanged, List.filter_map]
  congr 1
  refine List.filter_congr fun placed _ => ?_
  exact congrArg (· == kind) (kinds placed.position placed.node)

end Index

end StrategyCompiler.Graph
