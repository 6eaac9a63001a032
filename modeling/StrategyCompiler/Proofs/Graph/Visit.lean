import StrategyCompiler.Proofs.Graph.Walk
/-!
The dependency order by plain recursion: a node that is still fresh is entered, its dependencies are
visited, and it is left.  The walk along a path of frames leaves the nodes of any graph in this
order, also when dependencies run in a cycle.
-/

set_option autoImplicit false

namespace StrategyCompiler.Graph

namespace Walk

/-- The nodes that have not been entered, and those that have been left, in order. -/
structure Visited where
  fresh : List Nat
  left : List Nat

namespace Visited

def enter (visited : Visited) (node : Nat) : Visited :=
  { visited with fresh := visited.fresh.erase node }

def leave (visited : Visited) (node : Nat) : Visited :=
  { visited with left := visited.left ++ [node] }

private theorem length_enter_lt {visited : Visited} {node : Nat} (fresh : node ∈ visited.fresh) :
    (visited.enter node).fresh.length < visited.fresh.length := by
  rw [← List.length_erase_add_one fresh]
  exact Nat.lt_succ_self _

end Visited

/-- Visit those of the nodes that are still fresh, one after the other.  A visit enters the node,
visits its dependencies in their order, and leaves the node.  No node becomes fresh again, which is
why the recursion ends. -/
def visitWithin (deps : Nat → List Nat) :
    (nodes : List Nat) → (before : Visited) →
      { after : Visited // after.fresh.Sublist before.fresh }
  | [], before => ⟨before, .refl _⟩
  | node :: rest, before =>
    if fresh : node ∈ before.fresh then
      have entered := Visited.length_enter_lt fresh
      let inner := visitWithin deps (deps node) (before.enter node)
      have := inner.2.length_le.trans_lt entered
      let outer := visitWithin deps rest (inner.1.leave node)
      ⟨outer.1, outer.2.trans (inner.2.trans List.erase_sublist)⟩
    else visitWithin deps rest before
termination_by nodes before => (before.fresh.length, nodes.length)

def visitAll (deps : Nat → List Nat) (nodes : List Nat) (before : Visited) : Visited :=
  (visitWithin deps nodes before).1

variable {deps : Nat → List Nat} {node : Nat} {rest : List Nat} {before : Visited}

private theorem fresh_visitAll_sublist (deps : Nat → List Nat) (nodes : List Nat)
    (before : Visited) :
    (visitAll deps nodes before).fresh.Sublist before.fresh :=
  (visitWithin deps nodes before).2

private theorem visitAll_nil : visitAll deps [] before = before := by
  rw [visitAll, visitWithin]

private theorem visitAll_of_fresh (fresh : node ∈ before.fresh) :
    visitAll deps (node :: rest) before =
      visitAll deps rest ((visitAll deps (deps node) (before.enter node)).leave node) := by
  rw [visitAll, visitWithin, dif_pos fresh]
  rfl

private theorem visitAll_of_entered (entered : node ∉ before.fresh) :
    visitAll deps (node :: rest) before = visitAll deps rest before := by
  rw [visitAll, visitWithin, dif_neg entered]
  rfl

/-! ### The walk follows the recursion -/

private theorem order_enter {dep : Nat} {pending : List Nat} {above : List Frame}
    (fresh : dep ∈ before.fresh) :
    order deps before.fresh (⟨node, dep :: pending⟩ :: above) before.left =
      order deps (before.enter dep).fresh (⟨dep, deps dep⟩ :: ⟨node, pending⟩ :: above)
        (before.enter dep).left := by
  rw [order, if_pos fresh]
  rfl

private theorem order_skip {dep : Nat} {pending : List Nat} {above : List Frame}
    (entered : dep ∉ before.fresh) :
    order deps before.fresh (⟨node, dep :: pending⟩ :: above) before.left =
      order deps before.fresh (⟨node, pending⟩ :: above) before.left := by
  rw [order, if_neg entered]

private theorem order_leave {above : List Frame} :
    order deps before.fresh (⟨node, []⟩ :: above) before.left =
      order deps (before.leave node).fresh above (before.leave node).left := by
  rw [order]
  rfl

private theorem order_frame (pending : List Nat) (above : List Frame) (before : Visited) :
    order deps before.fresh (⟨node, pending⟩ :: above) before.left =
      order deps (visitAll deps pending before).fresh (⟨node, []⟩ :: above)
        (visitAll deps pending before).left := by
  -- The recursion goes down where the walk puts a frame on its path, so the induction is on the
  -- recursion, for all paths that the walk may have come by.
  induction pending, before using visitWithin.induct deps generalizing node above with
  | case1 before => rw [visitAll_nil]
  | case2 dep rest before fresh _ inner _ down on =>
    have downward : order deps (before.enter dep).fresh (⟨dep, deps dep⟩ :: ⟨node, rest⟩ :: above)
        (before.enter dep).left =
      order deps inner.1.fresh (⟨dep, []⟩ :: ⟨node, rest⟩ :: above) inner.1.left := down _
    have onward : order deps (inner.1.leave dep).fresh (⟨node, rest⟩ :: above)
        (inner.1.leave dep).left =
      order deps (visitAll deps rest (inner.1.leave dep)).fresh (⟨node, []⟩ :: above)
        (visitAll deps rest (inner.1.leave dep)).left := on _
    rw [visitAll_of_fresh fresh, order_enter fresh, downward, order_leave, onward]
    rfl
  | case3 dep rest before entered on =>
    rw [visitAll_of_entered entered, order_skip entered]
    exact on above

private theorem order_roots (roots : List Nat) (distinct : roots.Nodup) (before : Visited)
    (listed : before.fresh.Sublist roots) :
    order deps before.fresh [] before.left = (visitAll deps roots before).left := by
  induction roots generalizing before with
  | nil => rw [List.sublist_nil.1 listed, order, visitAll_nil]
  | cons root rest ih =>
    obtain ⟨absent, distinct⟩ := List.nodup_cons.1 distinct
    rcases List.sublist_cons_iff.1 listed with later | ⟨others, fresh, later⟩
    · have entered : root ∉ before.fresh := fun member => absent (later.subset member)
      rw [visitAll_of_entered entered]
      exact ih distinct before later
    · have first : root ∈ before.fresh := fresh ▸ List.mem_cons_self
      have entering : (before.enter root).fresh = others := by
        rw [Visited.enter, fresh, List.erase_cons_head]
      have starts : order deps before.fresh [] before.left =
          order deps (before.enter root).fresh [⟨root, deps root⟩] (before.enter root).left := by
        rw [entering, fresh, order]
        rfl
      have shrunk := fresh_visitAll_sublist deps (deps root) (before.enter root)
      rw [entering] at shrunk
      rw [starts, order_frame, order_leave, visitAll_of_fresh first]
      exact ih distinct _ (shrunk.trans later)

end Walk

namespace Index

/-- The positions in the order in which plain recursion leaves them: each is visited in the order of
the graph, unless it has been entered before. -/
def visitOrder (index : Index) : List Nat :=
  (Walk.visitAll index.dependencies (List.range index.size) ⟨List.range index.size, []⟩).left

/-- The dependency order is the one of plain recursion, for any index. -/
theorem order_eq_visitOrder (index : Index) : index.order = index.visitOrder :=
  Walk.order_roots (List.range index.size) List.nodup_range ⟨List.range index.size, []⟩ (.refl _)

end Index

end StrategyCompiler.Graph
