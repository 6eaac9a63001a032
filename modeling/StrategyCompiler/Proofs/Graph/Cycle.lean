import Mathlib.Logic.Function.Basic
import StrategyCompiler.Proofs.Graph.Adjacency
/-!
The search for a cycle in three colours.  A node is unvisited, on the stack or done; the search
comes back to a node on its stack, or it runs out of roots.  It ends within two steps for each node
and one for each dependency, with what the walk along a path finds: a node on a cycle, exactly when
the dependencies run in one.
-/

set_option autoImplicit false

namespace StrategyCompiler.Graph

open Relation (TransGen)

namespace Walk

/-- How far a search has come with a node. -/
inductive Mark
  | unvisited
  | onStack
  | done
  deriving DecidableEq

/-- A search: the roots that it has still to try, the marks of the nodes, and its stack. -/
structure Search where
  roots : List Nat
  mark : Nat → Mark
  stack : List Frame

namespace Search

def start (size : Nat) : Search := ⟨List.range size, fun _ => .unvisited, []⟩

def enter (deps : Nat → List Nat) (search : Search) (node : Nat) : Search :=
  { search with
    mark := Function.update search.mark node .onStack
    stack := ⟨node, deps node⟩ :: search.stack }

/-- What a step leads to: a further state of the search, or its answer.  A root is tried only when
the stack is empty. -/
def step (deps : Nat → List Nat) (search : Search) : Search ⊕ Option Nat :=
  match search.stack with
  | [] =>
    match search.roots with
    | [] => .inr none
    | root :: rest =>
      let later := { search with roots := rest }
      .inl (if search.mark root = .unvisited then later.enter deps root else later)
  | ⟨node, []⟩ :: above =>
    .inl { search with mark := Function.update search.mark node .done, stack := above }
  | ⟨node, dep :: pending⟩ :: above =>
    let later := { search with stack := ⟨node, pending⟩ :: above }
    match search.mark dep with
    | .onStack => .inr (some dep)
    | .unvisited => .inl (later.enter deps dep)
    | .done => .inl later

inductive Answers (deps : Nat → List Nat) : Search → Nat → Option Nat → Prop
  | now {search : Search} {found : Option Nat} (last : search.step deps = .inr found) :
      Answers deps search 0 found
  | after {search next : Search} {steps : Nat} {found : Option Nat}
      (step : search.step deps = .inl next) (rest : Answers deps next steps found) :
      Answers deps search (steps + 1) found

variable {deps : Nat → List Nat} {size : Nat} {search : Search} {fresh : List Nat}

theorem Answers.unique {steps count : Nat} {found other : Option Nat}
    (answers : Answers deps search steps found) (again : Answers deps search count other) :
    count = steps ∧ other = found := by
  induction answers generalizing count with
  | now last =>
    cases again with
    | now same => exact ⟨rfl, Sum.inr.inj (same.symm.trans last)⟩
    | after step _ => exact absurd (last.symm.trans step) (by simp)
  | after step _ ih =>
    cases again with
    | now last => exact absurd (last.symm.trans step) (by simp)
    | after same rest =>
      obtain rfl := Sum.inl.inj (same.symm.trans step)
      obtain ⟨rfl, rfl⟩ := ih rest
      exact ⟨rfl, rfl⟩

/-! ### Marks -/

/-- The marks of a search among so many nodes: the unvisited nodes are the fresh ones of a walk and
stand among the roots still to try, and those on the stack are marked as such. -/
structure Marked (size : Nat) (search : Search) (fresh : List Nat) : Prop where
  inside : ∀ root ∈ search.roots, root < size
  distinct : search.roots.Nodup
  listed : fresh.Sublist search.roots
  unvisited : ∀ node < size, search.mark node = .unvisited ↔ node ∈ fresh
  onStack : ∀ node, search.mark node = .onStack ↔ node ∈ search.stack.map Frame.node
  once : (search.stack.map Frame.node).Nodup
  bounded : ∀ frame ∈ search.stack, ∀ dep ∈ frame.pending, dep < size

theorem marked_start (size : Nat) : Marked size (start size) (List.range size) where
  inside _ := List.mem_range.1
  distinct := List.nodup_range
  listed := .refl _
  unvisited node inside := by simp [start, inside]
  onStack node := by simp [start]
  once := List.nodup_nil
  bounded := by simp [start]

namespace Marked

variable (marked : Marked size search fresh)
include marked

private theorem distinct_fresh : fresh.Nodup := marked.listed.nodup marked.distinct

private theorem not_mem_stack {node : Nat} (inside : node < size) (member : node ∈ fresh) :
    node ∉ search.stack.map Frame.node := by
  intro stacked
  have first := (marked.unvisited node inside).2 member
  have second := (marked.onStack node).2 stacked
  exact absurd (first.symm.trans second) (by decide)

theorem enter {node : Nat} (inside : node < size) (member : node ∈ fresh)
    (closed : ∀ dep ∈ deps node, dep < size) :
    Marked size (search.enter deps node) (fresh.erase node) where
  inside := marked.inside
  distinct := marked.distinct
  listed := List.erase_sublist.trans marked.listed
  unvisited other small := by
    by_cases same : other = node
    · subst same
      simp [Search.enter, marked.distinct_fresh.not_mem_erase]
    · simp [Search.enter, same, marked.unvisited other small]
  onStack other := by
    by_cases same : other = node
    · simp [Search.enter, same]
    · simpa [Search.enter, same] using marked.onStack other
  once := List.nodup_cons.2 ⟨marked.not_mem_stack inside member, marked.once⟩
  bounded := by
    rintro frame stacked
    rcases List.mem_cons.1 stacked with rfl | stacked
    · exact closed
    · exact marked.bounded frame stacked

theorem skip {root : Nat} {rest : List Nat} (roots : search.roots = root :: rest)
    (listed : fresh.Sublist rest) : Marked size { search with roots := rest } fresh where
  inside other member := marked.inside other (roots ▸ List.mem_cons_of_mem _ member)
  distinct := (List.nodup_cons.1 (roots ▸ marked.distinct)).2
  listed := listed
  unvisited := marked.unvisited
  onStack := marked.onStack
  once := marked.once
  bounded := marked.bounded

theorem leave {node : Nat} {above : List Frame} (stack : search.stack = ⟨node, []⟩ :: above) :
    Marked size { search with mark := Function.update search.mark node .done, stack := above }
      fresh := by
  have once := marked.once
  rw [stack, List.map_cons, List.nodup_cons] at once
  have top : search.mark node = .onStack := (marked.onStack node).2 (by simp [stack])
  refine { marked with unvisited := ?_, onStack := ?_, once := once.2, bounded := ?_ }
  · intro other small
    by_cases same : other = node
    · subst same
      have entered : other ∉ fresh := fun member =>
        absurd (top.symm.trans ((marked.unvisited other small).2 member)) (by decide)
      simp [entered]
    · simpa [same] using marked.unvisited other small
  · intro other
    by_cases same : other = node
    · subst same
      simpa using once.1
    · simpa [same, stack] using marked.onStack other
  · intro frame member
    exact marked.bounded frame (stack ▸ List.mem_cons_of_mem _ member)

theorem pass {node dep : Nat} {pending : List Nat} {above : List Frame}
    (stack : search.stack = ⟨node, dep :: pending⟩ :: above) :
    Marked size { search with stack := ⟨node, pending⟩ :: above } fresh := by
  have nodes : search.stack.map Frame.node = (Frame.mk node pending :: above).map Frame.node := by
    rw [stack, List.map_cons, List.map_cons]
  refine { marked with onStack := ?_, once := nodes ▸ marked.once, bounded := ?_ }
  · intro other
    rw [← nodes]
    exact marked.onStack other
  · intro frame member next follows
    rcases List.mem_cons.1 member with rfl | member
    · refine marked.bounded ⟨node, dep :: pending⟩ ?_ next (List.mem_cons_of_mem _ follows)
      exact stack ▸ List.mem_cons_self
    · exact marked.bounded frame (stack ▸ List.mem_cons_of_mem _ member) next follows

end Marked

/-! ### Steps -/

/-- The steps that a search still takes at most: one for each root, one to leave each node, and one
for each dependency. -/
def cost (deps : Nat → List Nat) (fresh : List Nat) (search : Search) : Nat :=
  search.roots.length + (fresh.flatMap fun node => node :: deps node).length +
    (search.stack.flatMap fun frame => frame.node :: frame.pending).length

private theorem length_flatMap_cons (expand : Nat → List Nat) (nodes : List Nat) :
    (nodes.flatMap fun node => node :: expand node).length =
      nodes.length + (nodes.flatMap expand).length := by
  induction nodes with
  | nil => rfl
  | cons node rest ih =>
    simp only [List.flatMap_cons, List.length_append, List.length_cons, ih]
    omega

private theorem cost_start (deps : Nat → List Nat) (size : Nat) :
    cost deps (List.range size) (start size) =
      2 * size + ((List.range size).flatMap deps).length := by
  simp only [cost, start, length_flatMap_cons, List.length_range, List.flatMap_nil,
    List.length_nil]
  omega

/-- A step ends a search with what a walk finds from there, or it leads on to a state from which a
walk finds the same. -/
def Agrees (deps : Nat → List Nat) (size : Nat) (fresh : List Nat) (search : Search) : Prop :=
  search.step deps = .inr (back? deps fresh search.stack) ∨
    ∃ next later, search.step deps = .inl next ∧ Marked size next later ∧
      cost deps later next < cost deps fresh search ∧
      back? deps later next.stack = back? deps fresh search.stack

section Steps

variable (marked : Marked size search fresh) (closed : ∀ node, ∀ dep ∈ deps node, dep < size)
include marked closed

private theorem agrees_root {root : Nat} {rest : List Nat} (stack : search.stack = [])
    (roots : search.roots = root :: rest) : Agrees deps size fresh search := by
  have listed := marked.listed
  have distinct := marked.distinct
  rw [roots] at listed distinct
  have inside : root < size := marked.inside root (roots ▸ List.mem_cons_self)
  refine .inr ?_
  rcases List.sublist_cons_iff.1 listed with later | ⟨others, rfl, later⟩
  · have entered : root ∉ fresh := fun member =>
      (List.nodup_cons.1 distinct).1 (later.subset member)
    have visited : search.mark root ≠ .unvisited := fun unvisited =>
      entered ((marked.unvisited root inside).1 unvisited)
    refine ⟨{ search with roots := rest }, fresh, ?_, marked.skip roots later, ?_, rfl⟩
    · simp only [step, stack, roots, if_neg visited]
    · simp [cost, roots]
  · have unvisited : search.mark root = .unvisited :=
      (marked.unvisited root inside).2 List.mem_cons_self
    have entered : Marked size (search.enter deps root) ((root :: others).erase root) :=
      marked.enter inside List.mem_cons_self (closed root)
    rw [List.erase_cons_head] at entered
    refine ⟨_, others, ?_, entered.skip roots later, ?_, ?_⟩
    · simp only [step, stack, roots, if_pos unvisited, enter]
    · simp [cost, enter, stack, roots]
      omega
    · simp only [enter, stack]
      rw [back?]

private theorem agrees_dependency {node dep : Nat} {pending : List Nat} {above : List Frame}
    (stack : search.stack = ⟨node, dep :: pending⟩ :: above) :
    Agrees deps size fresh search := by
  have top : (⟨node, dep :: pending⟩ : Frame) ∈ search.stack := stack ▸ List.mem_cons_self
  have inside : dep < size := marked.bounded _ top dep List.mem_cons_self
  have unvisited_iff := marked.unvisited dep inside
  have onStack_iff := marked.onStack dep
  rw [stack, List.map_cons, List.mem_cons] at onStack_iff
  unfold Agrees
  rw [stack]
  cases mark : search.mark dep with
  | onStack =>
    rw [mark] at unvisited_iff onStack_iff
    have entered : dep ∉ fresh := fun member => absurd (unvisited_iff.2 member) (by decide)
    refine .inl ?_
    rw [back?, if_neg entered, if_pos (onStack_iff.1 rfl)]
    simp only [step, stack, mark]
  | unvisited =>
    rw [mark] at unvisited_iff
    have member : dep ∈ fresh := unvisited_iff.1 rfl
    refine .inr ⟨_, fresh.erase dep, ?_, (marked.pass stack).enter inside member (closed dep),
      ?_, ?_⟩
    · simp only [step, stack, mark]
    · have fewer := length_flatMap_erase (f := fun node => node :: deps node) member
      simp only [cost, enter, stack, List.flatMap_cons, List.length_append, List.length_cons]
        at fewer ⊢
      omega
    · rw [back?, if_pos member]
      rfl
  | done =>
    rw [mark] at unvisited_iff onStack_iff
    have entered : dep ∉ fresh := fun member => absurd (unvisited_iff.2 member) (by decide)
    have offPath := mt onStack_iff.2 (by decide)
    refine .inr ⟨_, fresh, ?_, marked.pass stack, ?_, ?_⟩
    · simp only [step, stack, mark]
    · simp [cost, stack]
    · rw [back?, if_neg entered, if_neg offPath]

theorem agrees : Agrees deps size fresh search := by
  cases stack : search.stack with
  | nil =>
    cases roots : search.roots with
    | nil =>
      have none : fresh = [] := List.sublist_nil.1 (roots ▸ marked.listed)
      refine .inl ?_
      rw [step, stack, roots, none, back?]
    | cons root rest => exact agrees_root marked closed stack roots
  | cons frame above =>
    obtain ⟨node, pending⟩ := frame
    cases pending with
    | nil =>
      refine .inr ⟨_, fresh, by rw [step, stack], marked.leave stack, ?_, ?_⟩
      · simp [cost, stack]
      · rw [stack, back?]
    | cons dep pending => exact agrees_dependency marked closed stack

end Steps

theorem exists_answers (closed : ∀ node, ∀ dep ∈ deps node, dep < size)
    (marked : Marked size search fresh) : ∃ steps ≤ cost deps fresh search,
      Answers deps search steps (back? deps fresh search.stack) := by
  induction left : cost deps fresh search using Nat.strongRecOn generalizing search fresh with
  | _ left ih =>
    rcases agrees marked closed with last | ⟨next, later, step, kept, lower, same⟩
    · exact ⟨0, Nat.zero_le _, .now last⟩
    · obtain ⟨steps, bound, rest⟩ := ih _ (by omega) kept rfl
      rw [same] at rest
      exact ⟨steps + 1, by omega, .after step rest⟩

end Search

end Walk

namespace Index

/-- The search for a cycle ends, within two steps for each node and one for each dependency, and its
answer is the position of `cycle?`.  There is one exactly when dependencies run in a cycle, and it
lies on such a cycle. -/
theorem cycle?_exact (graph : Graph) :
    (∃ steps ≤ 2 * graph.nodes.length +
        ((List.range graph.nodes.length).flatMap (ofGraph graph).dependencies).length,
      ∀ count found, Walk.Search.Answers (ofGraph graph).dependencies
          (Walk.Search.start graph.nodes.length) count found ↔
        count = steps ∧ found = (ofGraph graph).cycle?) ∧
      ((ofGraph graph).cycle?.isSome = true ↔ ∃ position,
        TransGen (Walk.DependsOn (ofGraph graph).dependencies) position position) ∧
      ∀ position, (ofGraph graph).cycle? = some position →
        TransGen (Walk.DependsOn (ofGraph graph).dependencies) position position := by
  refine ⟨?_, ?_, fun position => Walk.transGen_of_back? ⟨.nil, by simp⟩⟩
  · have closed : ∀ node, ∀ dep ∈ (ofGraph graph).dependencies node, dep < graph.nodes.length :=
      fun _ _ => dependency_lt
    obtain ⟨steps, bound, answers⟩ :=
      Walk.Search.exists_answers closed (Walk.Search.marked_start graph.nodes.length)
    have walked : Walk.back? (ofGraph graph).dependencies (List.range graph.nodes.length)
        (Walk.Search.start graph.nodes.length).stack = (ofGraph graph).cycle? := by
      rw [cycle?, size_ofGraph]
      rfl
    rw [walked] at answers
    rw [Walk.Search.cost_start] at bound
    refine ⟨steps, bound, fun count found => ⟨answers.unique, ?_⟩⟩
    rintro ⟨rfl, rfl⟩
    exact answers
  · rw [Option.isSome_iff_ne_none, ne_eq, cycle?_eq_none_iff, not_forall_not]

end Index

end StrategyCompiler.Graph
