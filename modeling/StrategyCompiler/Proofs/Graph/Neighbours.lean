import StrategyCompiler.Proofs.Graph.Adjacency
/-!
The nodes around a node.  In a graph whose ids are distinct, what the index holds at a position are
the nodes on the other ends of the node's edges, in the order of edges.  The edges out of a node are
the edges into it once all edges are turned around.
-/

set_option autoImplicit false

namespace StrategyCompiler.Graph

/-- The nodes that edges lead from into the node with an id, in the order of edges. -/
def nodesInFront (graph : Graph) (id : String) : List Node :=
  (graph.edges.filter fun edge => edge.target == id).filterMap fun edge => graph.node? edge.source

/-- The nodes that edges lead to from the node with an id, in the order of edges. -/
def nodesBehind (graph : Graph) (id : String) : List Node :=
  (graph.edges.filter fun edge => edge.source == id).filterMap fun edge => graph.node? edge.target

/-! ### Graphs turned around -/

def Edge.reverse (edge : Edge) : Edge := ⟨edge.id, edge.target, edge.source⟩

def reverse (graph : Graph) : Graph := { graph with edges := graph.edges.map Edge.reverse }

private theorem nodesBehind_eq (graph : Graph) (id : String) :
    graph.nodesBehind id = graph.reverse.nodesInFront id := by
  rw [nodesBehind, nodesInFront, reverse, List.filter_map, List.filterMap_map]
  rfl

namespace Index

def reverse (index : Index) : Index := ⟨index.graph.reverse, index.targets, index.sources⟩

private theorem reverse_link (index : Index) (edge : Edge) :
    (index.link edge).reverse = index.reverse.link edge.reverse := by
  have own (id : String) : index.reverse.graph.position? id = index.graph.position? id := rfl
  unfold link
  rw [own, own]
  simp only [Edge.reverse]
  cases index.graph.position? edge.source with
  | none => cases index.graph.position? edge.target <;> rfl
  | some source => cases index.graph.position? edge.target <;> rfl

private theorem reverse_foldl_link (edges : List Edge) (index : Index) :
    (edges.foldl link index).reverse = (edges.map Edge.reverse).foldl link index.reverse := by
  induction edges generalizing index with
  | nil => rfl
  | cons edge edges ih => rw [List.foldl_cons, ih, reverse_link, List.map_cons, List.foldl_cons]

theorem reverse_ofGraph (graph : Graph) : (ofGraph graph).reverse = ofGraph graph.reverse :=
  reverse_foldl_link graph.edges _

theorem dependents_ofGraph (graph : Graph) (position : Nat) :
    (ofGraph graph).dependents position = (ofGraph graph.reverse).dependencies position := by
  rw [← reverse_ofGraph]
  rfl

end Index

/-! ### Distinct ids -/

private theorem node?_eq (graph : Graph) (id : String) :
    graph.node? id = (graph.position? id).bind fun position => graph.nodes[position]? :=
  List.find?_eq_bind_findIdx?_getElem?

section Distinct

variable {graph : Graph} (distinct : (graph.nodes.map Node.id).Nodup)
include distinct

theorem eq_of_id_eq {position other : Nat} {node twin : Node}
    (found : graph.nodes[position]? = some node) (stands : graph.nodes[other]? = some twin)
    (same : node.id = twin.id) : position = other := by
  obtain ⟨inside, -⟩ := List.getElem?_eq_some_iff.1 found
  refine (List.getElem?_inj (by simpa using inside) distinct).1 ?_
  rw [List.getElem?_map, List.getElem?_map, found, stands, Option.map_some, Option.map_some, same]

theorem position?_eq_some_iff_of_nodup {id : String} {position : Nat} :
    graph.position? id = some position ↔
      ∃ node, graph.nodes[position]? = some node ∧ node.id = id := by
  rw [position?_eq_some_iff, and_iff_left_iff_imp]
  rintro ⟨node, found, rfl⟩ earlier lower other stands same
  exact absurd (eq_of_id_eq distinct stands found same) (Nat.ne_of_lt lower)

theorem node?_of_getElem? {position : Nat} {node : Node}
    (found : graph.nodes[position]? = some node) : graph.node? node.id = some node := by
  have first := (position?_eq_some_iff_of_nodup distinct).2 ⟨node, found, rfl⟩
  rw [node?_eq, first, Option.bind_some, found]

theorem nodes_dependencies {position : Nat} {node : Node}
    (found : graph.nodes[position]? = some node) :
    ((Index.ofGraph graph).placed ((Index.ofGraph graph).dependencies position)).map Placed.node =
      graph.nodesInFront node.id := by
  obtain ⟨inside, -⟩ := List.getElem?_eq_some_iff.1 found
  rw [Index.dependencies_ofGraph graph position inside, Index.placed, List.filterMap_filterMap,
    List.map_filterMap, nodesInFront, List.filterMap_filter]
  refine List.filterMap_congr fun edge _ => ?_
  rw [node?_eq, Edge.sourceInto?]
  by_cases own : edge.target = node.id
  · have target := (position?_eq_some_iff_of_nodup distinct).2 ⟨node, found, own.symm⟩
    rw [target]
    cases graph.position? edge.source with
    | none => simp
    | some source => simp [own, Function.comp_def]
  · have other : graph.position? edge.target ≠ some position := by
      intro target
      obtain ⟨twin, stands, same⟩ := (position?_eq_some_iff_of_nodup distinct).1 target
      obtain rfl := Option.some.inj (found.symm.trans stands)
      exact own same.symm
    cases graph.position? edge.source with
    | none => simp [own]
    | some source =>
      cases target : graph.position? edge.target with
      | none => simp [own]
      | some stands =>
        have apart : stands ≠ position := fun same => other (same ▸ target)
        simp [own, apart]

theorem nodes_dependents {position : Nat} {node : Node}
    (found : graph.nodes[position]? = some node) :
    ((Index.ofGraph graph).placed ((Index.ofGraph graph).dependents position)).map Placed.node =
      graph.nodesBehind node.id := by
  have turned : graph.reverse.nodes[position]? = some node := found
  have ids : (graph.reverse.nodes.map Node.id).Nodup := distinct
  have own (positions : List Nat) :
      (Index.ofGraph graph).placed positions = (Index.ofGraph graph.reverse).placed positions := by
    simp only [Index.placed, Index.node?_ofGraph]
    rfl
  rw [own, Index.dependents_ofGraph, nodes_dependencies ids turned, nodesBehind_eq]

end Distinct

end StrategyCompiler.Graph
