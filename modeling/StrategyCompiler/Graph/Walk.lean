import StrategyCompiler.Graph.Index
/-!
Depth-first walks along dependencies.  A walk keeps the path from its root to the node it is at, and
with each node on the path the dependencies that it has still to follow; nodes that it has not
entered yet are fresh.  One walk yields the order in which nodes are left, the other the first
dependency that leads back into the path.
-/

set_option autoImplicit false

namespace StrategyCompiler.Graph.Walk

/-- A node on the path with the dependencies still to follow. -/
structure Frame where
  node : Nat
  pending : List Nat
  deriving DecidableEq

/-- The steps that a walk still takes at most: one to enter a fresh node, one for each dependency
that is not followed yet, and one to leave each node. -/
def measure (deps : Nat → List Nat) (fresh : List Nat) (path : List Frame) : Nat :=
  (fresh.flatMap fun node => node :: node :: deps node).length +
    (path.flatMap fun frame => frame.node :: frame.pending).length

theorem length_flatMap_erase {f : Nat → List Nat} {node : Nat} {fresh : List Nat}
    (h : node ∈ fresh) :
    (fresh.flatMap f).length = (f node).length + ((fresh.erase node).flatMap f).length := by
  have := ((List.perm_cons_erase h).flatMap_right f).length_eq
  rwa [List.flatMap_cons, List.length_append] at this

/-- The nodes in the order in which a walk leaves them, behind those it has left before.  A walk
enters each node once and follows its dependencies in their order. -/
def order (deps : Nat → List Nat) (fresh : List Nat) (path : List Frame) (left : List Nat) :
    List Nat :=
  match path with
  | [] =>
    match fresh with
    | [] => left
    | root :: rest => order deps rest [⟨root, deps root⟩] left
  | ⟨node, []⟩ :: above => order deps fresh above (left ++ [node])
  | ⟨node, dep :: pending⟩ :: above =>
    if dep ∈ fresh then
      order deps (fresh.erase dep) (⟨dep, deps dep⟩ :: ⟨node, pending⟩ :: above) left
    else order deps fresh (⟨node, pending⟩ :: above) left
termination_by measure deps fresh path
decreasing_by
  all_goals simp only [measure, List.flatMap_cons, List.length_append, List.length_cons]
  · omega
  · omega
  · rename_i h
    rw [length_flatMap_erase h]
    simp only [List.length_cons]
    omega
  · omega

/-- The first dependency found that leads back to a node on the path. -/
def back? (deps : Nat → List Nat) (fresh : List Nat) (path : List Frame) : Option Nat :=
  match path with
  | [] =>
    match fresh with
    | [] => none
    | root :: rest => back? deps rest [⟨root, deps root⟩]
  | ⟨_, []⟩ :: above => back? deps fresh above
  | ⟨node, dep :: pending⟩ :: above =>
    if dep ∈ fresh then
      back? deps (fresh.erase dep) (⟨dep, deps dep⟩ :: ⟨node, pending⟩ :: above)
    else if dep = node ∨ dep ∈ above.map Frame.node then some dep
    else back? deps fresh (⟨node, pending⟩ :: above)
termination_by measure deps fresh path
decreasing_by
  all_goals simp only [measure, List.flatMap_cons, List.length_append, List.length_cons]
  · omega
  · omega
  · rename_i h
    rw [length_flatMap_erase h]
    simp only [List.length_cons]
    omega
  · omega

end Walk

namespace Index

/-- The positions in an order in which every node stands behind those it consumes, if there is one:
nodes are visited in the order of the graph, dependencies in the order of edges, and a node is
placed behind its dependencies.  Each position occurs once, in any graph. -/
def order (index : Index) : List Nat :=
  Walk.order index.dependencies (List.range index.size) [] []

/-- The first position that a walk in this order meets while it still stands on the path. -/
def cycle? (index : Index) : Option Nat :=
  Walk.back? index.dependencies (List.range index.size) []

end Index

end StrategyCompiler.Graph
