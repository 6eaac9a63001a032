import Mathlib.Data.List.Count
import Mathlib.Logic.Relation
import StrategyCompiler.Proofs.Graph.Cycle
import StrategyCompiler.Proofs.Graph.Neighbours
/-!
The rows of an index, and the positions in them.  A row lists the other ends of a node's edges, in
the order of edges and as often as there are edges; every position in it is one of the graph.  So
the walks along the rows stay among the positions of the graph.
-/

set_option autoImplicit false

namespace StrategyCompiler.Graph

open Relation (ReflTransGen)

/-! ### Rows -/

/-- What an index holds about a graph: a row of sources and a row of targets for each node, which
follow the edges whose two ends are nodes. -/
structure Index.Exact (graph : Graph) (index : Index) : Prop where
  first : ∀ (id : String) (position : Nat), graph.position? id = some position ↔
    (∃ node, graph.nodes[position]? = some node ∧ node.id = id) ∧
      ∀ earlier < position, ∀ node, graph.nodes[earlier]? = some node → node.id ≠ id
  absent : ∀ id : String, graph.position? id = none ↔ ∀ node ∈ graph.nodes, node.id ≠ id
  dependencies : ∀ position, index.dependencies position =
    (graph.edges.filter fun edge => graph.position? edge.target == some position).filterMap
      fun edge => graph.position? edge.source
  dependents : ∀ position, index.dependents position =
    (graph.edges.filter fun edge => graph.position? edge.source == some position).filterMap
      fun edge => graph.position? edge.target
  paired : ∀ source target, (index.dependencies target).count source =
    (index.dependents source).count target
  sourceRows : index.sources.length = graph.nodes.length
  targetRows : index.targets.length = graph.nodes.length
  sourcesInside : ∀ row ∈ index.sources, ∀ position ∈ row, position < graph.nodes.length
  targetsInside : ∀ row ∈ index.targets, ∀ position ∈ row, position < graph.nodes.length

namespace Index

variable {graph : Graph}

private theorem dependencies_eq (graph : Graph) (position : Nat) :
    (ofGraph graph).dependencies position =
      (graph.edges.filter fun edge => graph.position? edge.target == some position).filterMap
        fun edge => graph.position? edge.source := by
  rw [List.filterMap_filter]
  by_cases inside : position < graph.nodes.length
  · rw [dependencies_ofGraph graph position inside]
    refine List.filterMap_congr fun edge _ => Option.ext fun source => ?_
    rw [Edge.sourceInto?_eq_some_iff]
    split
    · rename_i own
      simp [beq_iff_eq.1 own]
    · rename_i other
      simp [mt beq_iff_eq.2 other]
  · have nowhere : ∀ edge ∈ graph.edges, graph.position? edge.target ≠ some position :=
      fun edge _ target => inside (position?_lt target)
    have none : (ofGraph graph).dependencies position = [] := by
      refine List.eq_nil_iff_forall_not_mem.2 fun source depends => ?_
      obtain ⟨edge, member, -, target⟩ := mem_dependencies_ofGraph.1 depends
      exact nowhere edge member target
    rw [none, eq_comm, List.filterMap_eq_nil_iff]
    intro edge member
    rw [if_neg (by simpa using nowhere edge member)]

private theorem dependents_eq (graph : Graph) (position : Nat) :
    (ofGraph graph).dependents position =
      (graph.edges.filter fun edge => graph.position? edge.source == some position).filterMap
        fun edge => graph.position? edge.target := by
  rw [dependents_ofGraph, dependencies_eq, Graph.reverse, List.filter_map, List.filterMap_map]
  rfl

private theorem count_dependencies (graph : Graph) (source target : Nat) :
    ((ofGraph graph).dependencies target).count source =
      ((ofGraph graph).dependents source).count target := by
  rw [dependencies_eq, dependents_eq, List.count_eq_countP, List.count_eq_countP,
    List.countP_filterMap, List.countP_filterMap, List.countP_filter, List.countP_filter]
  refine List.countP_congr fun edge _ => ?_
  cases graph.position? edge.source <;> cases graph.position? edge.target <;>
    simp [and_comm]

private theorem sources_inside (graph : Graph) :
    ∀ row ∈ (ofGraph graph).sources, ∀ position ∈ row, position < graph.nodes.length := by
  intro row member source depends
  obtain ⟨position, stands⟩ := List.getElem?_of_mem member
  have listed : source ∈ (ofGraph graph).dependencies position := by
    rwa [Index.dependencies, stands, Option.getD_some]
  exact dependency_lt listed

private theorem targets_eq_sources (graph : Graph) :
    (ofGraph graph).targets = (ofGraph graph.reverse).sources :=
  congrArg Index.sources (reverse_ofGraph graph)

theorem exact_ofGraph (graph : Graph) : (ofGraph graph).Exact graph where
  first _ _ := position?_eq_some_iff
  absent _ := position?_eq_none_iff
  dependencies := dependencies_eq graph
  dependents := dependents_eq graph
  paired := count_dependencies graph
  sourceRows := length_sources_ofGraph graph
  targetRows := by
    rw [targets_eq_sources]
    exact length_sources_ofGraph graph.reverse
  sourcesInside := sources_inside graph
  targetsInside := by
    rw [targets_eq_sources]
    exact sources_inside graph.reverse

theorem dependent_lt {position target : Nat}
    (consumes : target ∈ (ofGraph graph).dependents position) : target < graph.nodes.length := by
  rw [dependents_ofGraph] at consumes
  have inside : target < graph.reverse.nodes.length := dependency_lt consumes
  exact inside

end Index

/-! ### Walks -/

namespace Walk

/-- A path on which every node, and everything still to follow, is a position below the size. -/
def Within (size : Nat) (path : List Frame) : Prop :=
  ∀ frame ∈ path, frame.node < size ∧ ∀ dep ∈ frame.pending, dep < size

section Paths

variable {deps : Nat → List Nat} {size node dep : Nat} {pending : List Nat} {above : List Frame}

theorem Within.enter (within : Within size above) (inside : node < size)
    (closed : ∀ dep ∈ deps node, dep < size) : Within size (⟨node, deps node⟩ :: above) :=
  List.forall_mem_cons.2 ⟨⟨inside, closed⟩, within⟩

theorem Within.follow (within : Within size (⟨node, dep :: pending⟩ :: above)) :
    dep < size ∧ Within size (⟨node, pending⟩ :: above) := by
  obtain ⟨⟨inside, follows⟩, rest⟩ := List.forall_mem_cons.1 within
  obtain ⟨first, later⟩ := List.forall_mem_cons.1 follows
  exact ⟨first, List.forall_mem_cons.2 ⟨⟨inside, later⟩, rest⟩⟩

end Paths

namespace Search

variable {deps : Nat → List Nat} {size : Nat}

structure Inside (size : Nat) (search : Search) : Prop where
  roots : ∀ root ∈ search.roots, root < size
  stack : Within size search.stack

private theorem inside_start (size : Nat) : Inside size (start size) :=
  ⟨fun _ => List.mem_range.1, fun _ member => absurd member List.not_mem_nil⟩

private theorem inside_step {search next : Search}
    (closed : ∀ node < size, ∀ dep ∈ deps node, dep < size)
    (step : search.step deps = .inl next) (inside : Inside size search) : Inside size next := by
  obtain ⟨roots, mark, stack⟩ := search
  obtain ⟨tried, within⟩ := inside
  cases stack with
  | nil =>
    cases roots with
    | nil => exact absurd step (by simp [Search.step])
    | cons root rest =>
      obtain ⟨first, later⟩ := List.forall_mem_cons.1 tried
      obtain rfl := Sum.inl.inj step
      dsimp only
      split
      · exact ⟨later, within.enter first (closed root first)⟩
      · exact ⟨later, within⟩
  | cons frame above =>
    obtain ⟨node, _ | ⟨dep, pending⟩⟩ := frame
    · obtain rfl := Sum.inl.inj step
      exact ⟨tried, (List.forall_mem_cons.1 within).2⟩
    · obtain ⟨first, later⟩ := Within.follow within
      simp only [Search.step] at step
      split at step
      · exact absurd step (by simp)
      · obtain rfl := Sum.inl.inj step
        exact ⟨tried, later.enter first (closed dep first)⟩
      · obtain rfl := Sum.inl.inj step
        exact ⟨tried, later⟩

theorem inside_of_reached {search : Search}
    (closed : ∀ node < size, ∀ dep ∈ deps node, dep < size)
    (reached : ReflTransGen (fun search next => step deps search = .inl next) (start size)
      search) : Inside size search := by
  induction reached with
  | refl => exact inside_start size
  | tail _ step inside => exact inside_step closed step inside

end Search

/-- How far a walk has come with an order: the fresh nodes, the path, and the nodes it has left. -/
structure Progress where
  fresh : List Nat
  path : List Frame
  left : List Nat

namespace Progress

/-- The steps of a walk that orders nodes: it starts at the first fresh node, leaves a node without
dependencies to follow, enters a fresh dependency and skips one that it has entered before. -/
inductive Step (deps : Nat → List Nat) : Progress → Progress → Prop
  | start {root : Nat} {rest left : List Nat} :
      Step deps ⟨root :: rest, [], left⟩ ⟨rest, [⟨root, deps root⟩], left⟩
  | leave {node : Nat} {fresh left : List Nat} {above : List Frame} :
      Step deps ⟨fresh, ⟨node, []⟩ :: above, left⟩ ⟨fresh, above, left ++ [node]⟩
  | enter {node dep : Nat} {fresh left pending : List Nat} {above : List Frame}
      (member : dep ∈ fresh) : Step deps ⟨fresh, ⟨node, dep :: pending⟩ :: above, left⟩
        ⟨fresh.erase dep, ⟨dep, deps dep⟩ :: ⟨node, pending⟩ :: above, left⟩
  | skip {node dep : Nat} {fresh left pending : List Nat} {above : List Frame}
      (entered : dep ∉ fresh) : Step deps ⟨fresh, ⟨node, dep :: pending⟩ :: above, left⟩
        ⟨fresh, ⟨node, pending⟩ :: above, left⟩

variable {deps : Nat → List Nat} {size : Nat}

theorem reaches_order (deps : Nat → List Nat) (fresh : List Nat) (path : List Frame)
    (left : List Nat) : ReflTransGen (Step deps) ⟨fresh, path, left⟩
      ⟨[], [], order deps fresh path left⟩ := by
  fun_induction order deps fresh path left with
  | case1 left => exact .refl
  | case2 left root rest ih => exact .head .start ih
  | case3 fresh left node above ih => exact .head .leave ih
  | case4 fresh left node dep pending above member ih => exact .head (.enter member) ih
  | case5 fresh left node dep pending above entered ih => exact .head (.skip entered) ih

/-- A walk that will look at positions below the size only, and has done so. -/
structure Inside (size : Nat) (progress : Progress) : Prop where
  fresh : ∀ node ∈ progress.fresh, node < size
  path : Within size progress.path
  left : ∀ node ∈ progress.left, node < size

private theorem inside_step {progress next : Progress}
    (closed : ∀ node < size, ∀ dep ∈ deps node, dep < size) (step : Step deps progress next)
    (inside : Inside size progress) : Inside size next := by
  obtain ⟨fresh, within, left⟩ := inside
  cases step with
  | start =>
    obtain ⟨first, later⟩ := List.forall_mem_cons.1 fresh
    exact ⟨later, within.enter first (closed _ first), left⟩
  | leave =>
    obtain ⟨⟨last, -⟩, rest⟩ := List.forall_mem_cons.1 within
    exact ⟨fresh, rest, List.forall_mem_append.2 ⟨left, by simpa using last⟩⟩
  | enter member =>
    obtain ⟨first, later⟩ := Within.follow within
    exact ⟨fun node other => fresh node (List.mem_of_mem_erase other),
      later.enter first (closed _ first), left⟩
  | skip entered => exact ⟨fresh, (Within.follow within).2, left⟩

theorem inside_of_reached {progress : Progress}
    (closed : ∀ node < size, ∀ dep ∈ deps node, dep < size)
    (reached : ReflTransGen (Step deps) ⟨List.range size, [], []⟩ progress) :
    Inside size progress := by
  induction reached with
  | refl =>
    exact ⟨fun _ => List.mem_range.1, fun _ member => absurd member List.not_mem_nil,
      fun _ member => absurd member List.not_mem_nil⟩
  | tail _ step inside => exact inside_step closed step inside

end Progress

end Walk

end StrategyCompiler.Graph
