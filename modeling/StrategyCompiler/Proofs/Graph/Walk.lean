import Mathlib.Data.List.Chain
import Mathlib.Logic.Relation
import Mathlib.Tactic.Tauto
import StrategyCompiler.Graph.Walk
/-!
What depth-first walks find.  The order in which nodes are left lists every node once; a walk that
never comes back to its path leaves each node behind its dependencies; and it comes back to its path
exactly when the dependencies run in a cycle.
-/

set_option autoImplicit false

namespace StrategyCompiler.Graph.Walk

open Relation (TransGen)

variable {deps : Nat → List Nat}

/-- A node depends on another directly. -/
def DependsOn (deps : Nat → List Nat) (node dep : Nat) : Prop := dep ∈ deps node

/-- Every node stands behind the nodes that it depends on. -/
def Sorted (deps : Nat → List Nat) (order : List Nat) : Prop :=
  ∀ before node after, order = before ++ node :: after → ∀ dep ∈ deps node, dep ∈ before

theorem order_perm (deps : Nat → List Nat) (fresh : List Nat) (path : List Frame)
    (left : List Nat) :
    (order deps fresh path left).Perm (left ++ (path.map Frame.node ++ fresh)) := by
  fun_induction order deps fresh path left with
  | case1 left => simp
  | case2 left root rest ih => simpa using ih
  | case3 fresh left node above ih =>
    simpa [List.append_assoc] using ih
  | case4 fresh left node dep pending above member ih =>
    refine ih.trans ?_
    have moved := (List.perm_cons_erase member).append_left (node :: above.map Frame.node)
    refine List.Perm.append_left left (List.Perm.trans ?_ moved.symm)
    have middle : (node :: above.map Frame.node ++ dep :: fresh.erase dep).Perm
        (dep :: (node :: above.map Frame.node ++ fresh.erase dep)) := List.perm_middle
    simpa using middle.symm
  | case5 fresh left node dep pending above absent ih => simpa using ih

private theorem sorted_append_singleton {order : List Nat} {node : Nat}
    (sorted : Sorted deps order) (behind : ∀ dep ∈ deps node, dep ∈ order) :
    Sorted deps (order ++ [node]) := by
  intro before other after split dep member
  rcases List.eq_nil_or_concat after with rfl | ⟨after', last, rfl⟩
  · obtain ⟨rfl, equal⟩ := List.append_inj' split rfl
    obtain rfl : node = other := by simpa using equal
    exact behind dep member
  · have split' : order ++ [node] = (before ++ other :: after') ++ [last] := by simpa using split
    obtain ⟨rest, -⟩ := List.append_inj' split' rfl
    exact sorted before other after' rest dep member

/-- What has become of the dependencies of the nodes on a path: they are still to follow, or left
already, or the node that stands on the path right below. -/
def Followed (deps : Nat → List Nat) (left : List Nat) : Option Nat → List Frame → Prop
  | _, [] => True
  | below, frame :: above =>
    (∀ dep ∈ deps frame.node, dep ∈ frame.pending ∨ dep ∈ left ∨ some dep = below) ∧
      Followed deps left (some frame.node) above

private theorem Followed.leave {left : List Nat} {node : Nat} {below : Option Nat}
    {path : List Frame} (followed : Followed deps left below path) :
    Followed deps (left ++ [node]) below path := by
  induction path generalizing below with
  | nil => trivial
  | cons frame above ih =>
    refine ⟨fun dep member => ?_, ih followed.2⟩
    rcases followed.1 dep member with pending | passed | child
    · exact .inl pending
    · exact .inr (.inl (List.mem_append_left _ passed))
    · exact .inr (.inr child)

private theorem Followed.forget {left : List Nat} {node : Nat} {path : List Frame}
    (followed : Followed deps left (some node) path) (member : node ∈ left) :
    Followed deps left none path := by
  cases path with
  | nil => trivial
  | cons frame above =>
    refine ⟨fun dep depends => ?_, followed.2⟩
    rcases followed.1 dep depends with pending | passed | child
    · exact .inl pending
    · exact .inr (.inl passed)
    · exact .inr (.inl (Option.some.inj child ▸ member))

/-- The state of a walk: what it has left is sorted, and it knows all nodes that its nodes depend
on. -/
structure Settled (deps : Nat → List Nat) (fresh : List Nat) (path : List Frame)
    (left : List Nat) : Prop where
  sorted : Sorted deps left
  followed : Followed deps left none path
  known : ∀ node ∈ left ++ (path.map Frame.node ++ fresh), ∀ dep ∈ deps node,
    dep ∈ left ++ (path.map Frame.node ++ fresh)

theorem sorted_order {fresh : List Nat} {path : List Frame} {left : List Nat}
    (settled : Settled deps fresh path left) (forward : back? deps fresh path = none) :
    Sorted deps (order deps fresh path left) := by
  -- A node is left when it has nothing still to follow.  What it has followed is left by then, as
  -- no dependency leads back into the path.
  fun_induction order deps fresh path left with
  | case1 left => exact settled.sorted
  | case2 left root rest ih =>
    rw [back?] at forward
    refine ih ⟨settled.sorted, ⟨fun dep member => .inl member, trivial⟩, ?_⟩ forward
    simpa using settled.known
  | case3 fresh left node above ih =>
    rw [back?] at forward
    obtain ⟨own, rest⟩ := settled.followed
    have behind : ∀ dep ∈ deps node, dep ∈ left := by simpa using own
    refine ih ⟨sorted_append_singleton settled.sorted behind,
      rest.leave.forget (by simp), ?_⟩ forward
    simpa [List.append_assoc] using settled.known
  | case4 fresh left node dep pending above member ih =>
    rw [back?, if_pos member] at forward
    obtain ⟨own, rest⟩ := settled.followed
    refine ih ⟨settled.sorted, ⟨fun next h => .inl h, ⟨fun next h => ?_, rest⟩⟩, ?_⟩ forward
    · rcases own next h with still | passed | child
      · rcases List.mem_cons.1 still with rfl | still
        · exact .inr (.inr rfl)
        · exact .inl still
      · exact .inr (.inl passed)
      · exact absurd child (by simp)
    · have same : ∀ other, other ∈ left ++ ((⟨dep, deps dep⟩ :: ⟨node, pending⟩ :: above).map
          Frame.node ++ fresh.erase dep) ↔
          other ∈ left ++ ((⟨node, dep :: pending⟩ :: above).map Frame.node ++ fresh) := by
        intro other
        have moved := (List.perm_cons_erase member).mem_iff (a := other)
        simp only [List.mem_append, List.map_cons, List.mem_cons] at moved ⊢
        rw [moved]
        tauto
      intro other h next depends
      exact (same next).2 (settled.known other ((same other).1 h) next depends)
  | case5 fresh left node dep pending above absent ih =>
    rw [back?, if_neg absent] at forward
    split at forward
    · exact absurd forward (by simp)
    · rename_i offPath
      obtain ⟨own, rest⟩ := settled.followed
      refine ih ⟨settled.sorted, ⟨fun next h => ?_, rest⟩, ?_⟩ forward
      · rcases own next h with still | passed | child
        · rcases List.mem_cons.1 still with rfl | still
          · have known := settled.known node (by simp) next h
            simp only [List.mem_append, List.map_cons, List.mem_cons] at known
            tauto
          · exact .inl still
        · exact .inr (.inl passed)
        · exact absurd child (by simp)
      · simpa using settled.known

/-- A walk has followed dependencies down its path, and has only dependencies still to follow. -/
structure Linked (deps : Nat → List Nat) (path : List Frame) : Prop where
  down : path.IsChain fun below frame => DependsOn deps frame.node below.node
  pending : ∀ frame ∈ path, ∀ dep ∈ frame.pending, DependsOn deps frame.node dep

private theorem linked_root (root : Nat) : Linked deps [⟨root, deps root⟩] :=
  ⟨.singleton _, by simp [DependsOn]⟩

private theorem Linked.leave {frame : Frame} {above : List Frame}
    (linked : Linked deps (frame :: above)) : Linked deps above :=
  ⟨linked.down.of_cons, fun other member => linked.pending other (List.mem_cons_of_mem _ member)⟩

private theorem Linked.follow {node dep : Nat} {pending : List Nat} {above : List Frame}
    (linked : Linked deps (⟨node, dep :: pending⟩ :: above)) :
    Linked deps (⟨node, pending⟩ :: above) := by
  refine ⟨?_, fun frame member next h => ?_⟩
  · cases above with
    | nil => exact .singleton _
    | cons frame above =>
      exact .cons_cons (List.isChain_cons_cons.1 linked.down).1 linked.leave.down
  · rcases List.mem_cons.1 member with rfl | member
    · exact linked.pending _ List.mem_cons_self next (List.mem_cons_of_mem _ h)
    · exact linked.pending frame (List.mem_cons_of_mem _ member) next h

private theorem Linked.enter {node dep : Nat} {pending : List Nat} {above : List Frame}
    (linked : Linked deps (⟨node, dep :: pending⟩ :: above)) :
    Linked deps (⟨dep, deps dep⟩ :: ⟨node, pending⟩ :: above) := by
  refine ⟨.cons_cons (linked.pending _ List.mem_cons_self dep List.mem_cons_self)
    linked.follow.down, fun frame member next h => ?_⟩
  rcases List.mem_cons.1 member with rfl | member
  · exact h
  · exact linked.follow.pending frame member next h

private theorem Linked.transGen {frame : Frame} {above : List Frame}
    (linked : Linked deps (frame :: above)) :
    ∀ node ∈ above.map Frame.node, TransGen (DependsOn deps) node frame.node := by
  induction above generalizing frame with
  | nil => simp
  | cons next above ih =>
    intro node member
    have step : DependsOn deps next.node frame.node := (List.isChain_cons_cons.1 linked.down).1
    rcases List.mem_cons.1 member with rfl | member
    · exact .single step
    · exact (ih linked.leave node member).tail step

theorem transGen_of_back? {fresh : List Nat} {path : List Frame} {found : Nat}
    (linked : Linked deps path) (back : back? deps fresh path = some found) :
    TransGen (DependsOn deps) found found := by
  fun_induction back? deps fresh path with
  | case1 => exact absurd back (by simp)
  | case2 root rest ih => exact ih (linked_root root) back
  | case3 fresh node above ih => exact ih linked.leave back
  | case4 fresh node dep pending above member ih => exact ih linked.enter back
  | case5 fresh node dep pending above absent onPath =>
    obtain rfl := Option.some.inj back
    have depends := linked.pending _ List.mem_cons_self dep List.mem_cons_self
    rcases onPath with rfl | onPath
    · exact .single depends
    · exact (linked.transGen dep onPath).tail depends
  | case6 fresh node dep pending above absent offPath ih => exact ih linked.follow back

private theorem idxOf_lt_of_sorted {order : List Nat} (sorted : Sorted deps order)
    {node dep : Nat} (member : node ∈ order) (depends : DependsOn deps node dep) :
    order.idxOf dep < order.idxOf node := by
  obtain ⟨before, after, rfl, absent⟩ := List.eq_append_cons_of_mem member
  have earlier : dep ∈ before := sorted before node after rfl dep depends
  rw [List.idxOf_append_of_mem earlier, List.idxOf_append_of_notMem absent]
  have := List.idxOf_lt_length_of_mem earlier
  omega

theorem not_transGen_of_sorted {order : List Nat} (sorted : Sorted deps order) {node : Nat}
    (member : node ∈ order) : ¬ TransGen (DependsOn deps) node node := by
  intro cycle
  have falls : ∀ other, TransGen (DependsOn deps) node other →
      other ∈ order ∧ order.idxOf other < order.idxOf node := by
    intro other path
    induction path with
    | single depends =>
      obtain ⟨before, after, rfl, -⟩ := List.eq_append_cons_of_mem member
      exact ⟨List.mem_append_left _ (sorted before node after rfl _ depends),
        idxOf_lt_of_sorted sorted member depends⟩
    | tail _ depends ih =>
      have lower := idxOf_lt_of_sorted sorted ih.1 depends
      obtain ⟨before, after, rfl, -⟩ := List.eq_append_cons_of_mem ih.1
      exact ⟨List.mem_append_left _ (sorted before _ after rfl _ depends), lower.trans ih.2⟩
  exact Nat.lt_irrefl _ (falls node cycle).2

end StrategyCompiler.Graph.Walk
