import StrategyCompiler.Proofs.Compilation.Orders
/-!
Every action and every risk node is accounted for once.  The script of a graph has the orders of the
actions that are carried out, in dependency order, and the protections of the risk nodes with
levels; the warnings name all others.
-/

set_option autoImplicit false

namespace StrategyCompiler.Compilation

open Diagnostic (Warning)
open StrategyCompiler.Graph (Index Levels Node Placed Role)
open Script (Call)
open Validation (validate validate_errors_eq_nil_iff)

variable {graph : Graph}

def actionsIn (graph : Graph) (role : Role) : List Node :=
  (resolved graph).filter fun node => node.kind == .action && Role.of? node == some role

def unassignedIn (graph : Graph) : List Node :=
  (resolved graph).filter fun node => node.kind == .action && (Role.of? node).isNone

def orderedIn (graph : Graph) (role : Role) : List Node :=
  if conditionsIn graph role = [] then [] else actionsIn graph role

def idleIn (graph : Graph) (role : Role) : List Node :=
  if conditionsIn graph role = [] then actionsIn graph role else []

def protectedIn (graph : Graph) : List Node :=
  (resolved graph).filter fun node => node.kind == .risk && !(Levels.of node).isEmpty

def omitted? : Warning → Option String
  | .unassignedAction node _ | .actionWithoutConditions node _ => some node
  | _ => none

def unprotected? : Warning → Option String
  | .riskWithoutLevels node => some node
  | _ => none

/-! ### Nodes by their ids -/

theorem resolved_perm (graph : Graph) : (resolved graph).Perm graph.nodes := by
  have positions := (Index.ofGraph graph).order_perm_range
  rw [Index.size_ofGraph] at positions
  have nodes : (resolved graph) = (Index.ofGraph graph).order.filterMap
      fun position => graph.nodes[position]? := by
    rw [resolved, Index.placed, List.map_filterMap]
    refine List.filterMap_congr fun position _ => ?_
    rw [Index.node?_ofGraph, Option.map_map]
    exact Option.map_id'
  have all : (List.range graph.nodes.length).filterMap (fun position => graph.nodes[position]?) =
      graph.nodes := by
    have each : (List.range graph.nodes.length).map (fun position => graph.nodes[position]?) =
        graph.nodes.map some :=
      List.ext_getElem (by simp) fun position _ inside => by
        rw [List.length_map] at inside
        simp [List.getElem?_eq_getElem inside]
    have kept := congrArg (List.filterMap id) each
    simpa [List.filterMap_map, Function.comp_def] using kept
  rw [nodes]
  exact (positions.filterMap _).trans (.of_eq all)

private theorem count_ids {nodes : List Node} (distinct : (nodes.map Node.id).Nodup) {node : Node}
    (member : node ∈ nodes) (select : Node → Bool) :
    ((nodes.filter select).map Node.id).count node.id = if select node then 1 else 0 := by
  split
  · rename_i selected
    refine List.count_eq_one_of_mem (distinct.sublist (List.filter_sublist.map Node.id)) ?_
    exact List.mem_map_of_mem (List.mem_filter.2 ⟨member, selected⟩)
  · rename_i rejected
    refine List.count_eq_zero.2 fun listed => ?_
    obtain ⟨other, inside, same⟩ := List.mem_map.1 listed
    obtain ⟨stands, selected⟩ := List.mem_filter.1 inside
    rw [List.inj_on_of_nodup_map distinct stands member same] at selected
    exact rejected selected

/-! ### Orders and protections of a plan -/

section Distinct

variable (distinct : (graph.nodes.map Node.id).Nodup)
include distinct

private theorem isEmpty_conditionsOf {role : Role} :
    (conditionsOf (planOf graph).index (planOf graph).order role).isEmpty = true ↔
      conditionsIn graph role = [] := by
  rw [← map_node_conditionsOf distinct, List.map_eq_nil_iff, List.isEmpty_iff]

private theorem map_node_liveActionsOf (role : Role) :
    (liveActionsOf (planOf graph).index (planOf graph).order role).map Placed.node =
      orderedIn graph role := by
  have actions : (actionsOf (planOf graph).order role).map Placed.node = actionsIn graph role := by
    rw [actionsIn, resolved, List.filter_map]
    rfl
  unfold liveActionsOf orderedIn
  simp only [isEmpty_conditionsOf distinct]
  split
  · rfl
  · exact actions

theorem entryOrders_eq : (planOf graph).entryOrders = (orderedIn graph .entry).map entryOrder := by
  rw [← map_node_liveActionsOf distinct, List.map_map]
  rfl

theorem exitOrders_eq : (planOf graph).exitOrders = (orderedIn graph .exit).map exitOrder := by
  rw [← map_node_liveActionsOf distinct, List.map_map]
  rfl

end Distinct

private theorem protection?_isSome_iff {node : Node} :
    (protection? node).isSome = true ↔ (Levels.of node).isEmpty = false := by
  unfold protection?
  dsimp only
  split
  · rename_i empty
    simp [empty]
  · rename_i some
    simp [some]

private theorem protections_eq :
    (planOf graph).protections = (protectedIn graph).filterMap protection? := by
  rw [protectedIn, resolved, List.filter_map, List.filterMap_map, List.filterMap_filter]
  refine List.filterMap_congr fun placed _ => ?_
  simp only [Function.comp_apply, Bool.and_eq_true, Bool.not_eq_true', beq_iff_eq,
    ← protection?_isSome_iff]
  by_cases risk : placed.node.kind = .risk
  · cases protection? placed.node <;> simp [risk]
  · simp [risk]

/-! ### Warnings -/

private theorem compile_warnings_of_valid (options : Options)
    (valid : (validate Catalogue.builtin graph).errors = []) :
    (compile Catalogue.builtin options graph).warnings =
      (validate Catalogue.builtin graph).warnings ++
        roleWarnings (planOf graph).index (planOf graph).order := by
  have empty :
      (Validation.validateIndex Catalogue.builtin (.ofGraph graph)).errors.isEmpty = true :=
    List.isEmpty_iff.2 valid
  have checked (warnings : List Warning) : (generate options (planOf graph) warnings).warnings =
      warnings ++ roleWarnings (planOf graph).index (planOf graph).order := by
    simp [generate, checkStructure_program]
  unfold compile
  dsimp only
  rw [if_pos empty]
  exact checked _

private theorem other_warnings (graph : Graph) :
    ∀ warning ∈ Validation.componentWarnings graph ++ Validation.flowWarnings (.ofGraph graph),
      omitted? warning = none ∧ unprotected? warning = none := by
  refine List.forall_mem_append.2 ⟨fun warning member => ?_, fun warning member => ?_⟩
  · unfold Validation.componentWarnings at member
    split at member
    · rw [List.mem_singleton.1 member]
      exact ⟨rfl, rfl⟩
    · exact absurd member List.not_mem_nil
  · rcases List.mem_append.1 member with indicator | condition
    · obtain ⟨_, -, rfl⟩ := List.mem_map.1 indicator
      exact ⟨rfl, rfl⟩
    · obtain ⟨_, -, rfl⟩ := List.mem_map.1 condition
      exact ⟨rfl, rfl⟩

private theorem filterMap_nodeWarnings (node : Node) :
    (Validation.nodeWarnings node).filterMap omitted? = [] ∧
      (Validation.nodeWarnings node).filterMap unprotected? =
        if node.kind == .risk && (Levels.of node).isEmpty then [node.id] else [] := by
  unfold Validation.nodeWarnings
  cases kind : node.kind with
  | dataSource =>
    dsimp only [Validation.dataSourceWarnings]
    split
    · split <;> exact ⟨rfl, rfl⟩
    · exact ⟨rfl, rfl⟩
  | condition | timing => dsimp only; split <;> exact ⟨rfl, rfl⟩
  | risk =>
    dsimp only
    split
    · rename_i empty
      simp [empty, omitted?, unprotected?]
    · rename_i some
      simp [some]
  | action =>
    dsimp only [Validation.actionWarnings]
    cases Validation.orderTypeEntry node <;>
      cases (Graph.orderQuantity? node).isNone <;> exact ⟨rfl, rfl⟩
  | indicator | math => exact ⟨rfl, rfl⟩

private theorem flatMap_ite_id (select : Node → Bool) (nodes : List Node) :
    (nodes.flatMap fun node => if select node then [node.id] else []) =
      (nodes.filter select).map Node.id := by
  induction nodes with
  | nil => rfl
  | cons node rest ih =>
    rw [List.flatMap_cons, List.filter_cons, ih]
    split <;> rfl

/-- The checks of a graph name no action as left out, and the risk nodes without levels as
unprotected. -/
private theorem filterMap_validate (catalogue : Catalogue) (graph : Graph) :
    (validate catalogue graph).warnings.filterMap omitted? = [] ∧
      (validate catalogue graph).warnings.filterMap unprotected? =
        (graph.nodes.filter fun node => node.kind == .risk && (Levels.of node).isEmpty).map
          Node.id := by
  obtain ⟨component, flow⟩ := List.forall_mem_append.1 (other_warnings graph)
  have own := filterMap_nodeWarnings
  simp only [validate, Validation.validateIndex, List.filterMap_append, List.filterMap_flatMap,
    List.filterMap_eq_nil_iff.2 fun warning member => (component warning member).1,
    List.filterMap_eq_nil_iff.2 fun warning member => (component warning member).2,
    List.filterMap_eq_nil_iff.2 fun warning member => (flow warning member).1,
    List.filterMap_eq_nil_iff.2 fun warning member => (flow warning member).2,
    List.nil_append, List.append_nil, Index.ofGraph_graph]
  constructor
  · exact List.flatMap_eq_nil_iff.2 fun node _ => (own node).1
  · rw [← flatMap_ite_id]
    exact List.flatMap_congr fun node _ => (own node).2

section Distinct

variable (distinct : (graph.nodes.map Node.id).Nodup)
include distinct

private theorem filterMap_roleWarnings :
    (roleWarnings (planOf graph).index (planOf graph).order).filterMap omitted? =
        (unassignedIn graph).map Node.id ++
          (idleIn graph .entry).map Node.id ++ (idleIn graph .exit).map Node.id ∧
      (roleWarnings (planOf graph).index (planOf graph).order).filterMap unprotected? = [] := by
  have idle (role : Role) :
      (idleWarnings (planOf graph).index (planOf graph).order role).filterMap omitted? =
          (idleIn graph role).map Node.id ∧
        (idleWarnings (planOf graph).index (planOf graph).order role).filterMap unprotected? =
          [] := by
    unfold idleWarnings idleIn
    simp only [isEmpty_conditionsOf distinct]
    split
    · rw [List.filterMap_map, List.filterMap_map, actionsIn, resolved, List.filter_map,
        List.map_map]
      refine ⟨?_, List.filterMap_eq_nil_iff.2 fun _ _ => rfl⟩
      rw [← List.filterMap_eq_map]
      rfl
    · exact ⟨rfl, rfl⟩
  have unassigned :
      (unassignedWarnings (planOf graph).order).filterMap omitted? =
          (unassignedIn graph).map Node.id ∧
        (unassignedWarnings (planOf graph).order).filterMap unprotected? = [] := by
    rw [unassignedWarnings, List.filterMap_map, List.filterMap_map, unassignedIn, resolved,
      List.filter_map, List.map_map]
    refine ⟨?_, List.filterMap_eq_nil_iff.2 fun _ _ => rfl⟩
    rw [← List.filterMap_eq_map]
    rfl
  simp only [roleWarnings, List.filterMap_append, (idle .entry).1, (idle .entry).2,
    (idle .exit).1, (idle .exit).2, unassigned.1, unassigned.2, List.append_nil, and_self]

end Distinct

/-! ### Counts -/

section Counts

variable (distinct : (graph.nodes.map Node.id).Nodup) {node : Node} (member : node ∈ graph.nodes)
include distinct member

private theorem count_resolved (select : Node → Bool) :
    (((resolved graph).filter select).map Node.id).count node.id =
      if select node then 1 else 0 := by
  have perm := resolved_perm graph
  exact count_ids ((perm.map Node.id).nodup_iff.2 distinct) (perm.mem_iff.2 member) select

omit distinct member in
private theorem count_ordered_add_idle (role : Role) :
    ((orderedIn graph role).map Node.id).count node.id +
      ((idleIn graph role).map Node.id).count node.id =
        ((actionsIn graph role).map Node.id).count node.id := by
  unfold orderedIn idleIn
  split
  · rw [List.map_nil, List.count_nil, Nat.zero_add]
  · rw [List.map_nil, List.count_nil, Nat.add_zero]

private theorem count_actions (kind : node.kind = .action) :
    ((actionsIn graph .entry).map Node.id).count node.id +
      ((actionsIn graph .exit).map Node.id).count node.id +
      ((unassignedIn graph).map Node.id).count node.id = 1 := by
  rw [actionsIn, actionsIn, unassignedIn, count_resolved distinct member,
    count_resolved distinct member, count_resolved distinct member, kind]
  cases Role.of? node with
  | none => rfl
  | some role => cases role <;> rfl

private theorem count_risks (kind : node.kind = .risk) :
    ((protectedIn graph).map Node.id).count node.id +
      ((graph.nodes.filter fun node =>
        node.kind == .risk && (Levels.of node).isEmpty).map Node.id).count node.id = 1 := by
  rw [protectedIn, count_resolved distinct member, count_ids distinct member, kind]
  cases (Levels.of node).isEmpty <;> rfl

end Counts

/-- A line that opens positions by an action, under the condition for entries. -/
def entryLine (node : Node) : Option String × String :=
  (some Naming.entryCondition, Script.Page.indent 1 (entryOrder node).render)

/-- A line that closes positions by an action, under the condition for exits. -/
def exitLine (node : Node) : Option String × String :=
  (some Naming.exitCondition, Script.Page.indent 1 (exitOrder node).render)

/-- A line that protects positions by a risk node, under no condition. -/
def IsProtection (node : Node) (line : Option String × String) : Prop :=
  ∃ call, protection? node = some call ∧ line = (none, call.render)

private theorem forall₂_filterMap {α β γ : Type} {choose : α → Option β} (line : β → γ)
    {items : List α}
    (each : ∀ item ∈ items, (choose item).isSome = true) :
    List.Forall₂ (fun item own => ∃ value, choose item = some value ∧ own = line value) items
      ((items.filterMap choose).map line) := by
  induction items with
  | nil => exact .nil
  | cons item rest ih =>
    obtain ⟨here, later⟩ := List.forall_mem_cons.1 each
    obtain ⟨value, found⟩ := Option.isSome_iff_exists.1 here
    rw [List.filterMap_cons, found]
    exact .cons ⟨value, found, rfl⟩ (ih later)

section Valid

variable (options : Options) (valid : (validate Catalogue.builtin graph).errors = [])
include valid

theorem callsOf_code :
    callsOf "strategy.entry" (compile Catalogue.builtin options graph).code =
        (orderedIn graph .entry).map entryLine ∧
      callsOf "strategy.close_all" (compile Catalogue.builtin options graph).code =
        (orderedIn graph .exit).map exitLine ∧
      List.Forall₂ IsProtection (protectedIn graph)
        (callsOf "strategy.exit" (compile Catalogue.builtin options graph).code) := by
  have distinct := (validate_errors_eq_nil_iff.1 valid).distinct
  obtain ⟨-, -, code⟩ := compile_of_valid options valid
  have trades := trades_ofPlan options graph
  have entries : (Program.ofPlan options (planOf graph)).entryOrders = _ := entryOrders_eq distinct
  have exits : (Program.ofPlan options (planOf graph)).exitOrders = _ := exitOrders_eq distinct
  have protections : (Program.ofPlan options (planOf graph)).protections = _ := protections_eq
  rw [code, callsOf_render, callsOf_render, callsOf_render, trades.callsOf_entry,
    trades.callsOf_exit, trades.callsOf_protection, entries, exits, protections]
  refine ⟨?_, ?_, ?_⟩
  · rw [List.map_map, List.map_map]
    rfl
  · rw [List.map_map, List.map_map]
    rfl
  · rw [List.map_map]
    refine forall₂_filterMap _ fun node member => ?_
    have levels := (Bool.and_eq_true_iff.1 (List.mem_filter.1 member).2).2
    exact protection?_isSome_iff.2 (Bool.not_eq_true' _ ▸ levels)

end Valid

/-- How the actions and risk nodes of a graph are accounted for.  The lines of a script that trade
are those of the entered, closed and guarded nodes, in dependency order and each in its place; an
action has one such line or one warning that names it, and so has a risk node. -/
structure Accounts (graph : Graph) (code : String) (warnings : List Warning)
    (entered closed guarded : List Node) : Prop where
  inOrder : ∀ nodes ∈ [entered, closed, guarded], nodes.Sublist (resolved graph)
  actions : ∀ node ∈ entered ++ closed, node.kind = .action
  risks : ∀ node ∈ guarded, node.kind = .risk
  entries : callsOf "strategy.entry" code = entered.map entryLine
  exits : callsOf "strategy.close_all" code = closed.map exitLine
  protections : List.Forall₂ IsProtection guarded (callsOf "strategy.exit" code)
  blocks : (Text.lines code).filterMap guard? =
    (if entered = [] then [] else [Naming.entryCondition]) ++
      (if closed = [] then [] else [Naming.exitCondition])
  actionOnce : ∀ node ∈ graph.nodes, node.kind = .action →
    (entered.map Node.id).count node.id + (closed.map Node.id).count node.id +
      (warnings.filterMap omitted?).count node.id = 1
  riskOnce : ∀ node ∈ graph.nodes, node.kind = .risk →
    (guarded.map Node.id).count node.id + (warnings.filterMap unprotected?).count node.id = 1

private theorem sublist_orderedIn (role : Role) : (orderedIn graph role).Sublist
    (resolved graph) := by
  unfold orderedIn
  split
  · exact List.nil_sublist _
  · exact List.filter_sublist

private theorem kind_of_mem_orderedIn {role : Role} {node : Node}
    (member : node ∈ orderedIn graph role) :
    node.kind = .action := by
  unfold orderedIn at member
  split at member
  · exact absurd member List.not_mem_nil
  · exact beq_iff_eq.1 (Bool.and_eq_true_iff.1 (List.mem_filter.1 member).2).1

section Valid

variable (options : Options) (valid : (validate Catalogue.builtin graph).errors = [])
include valid

private theorem blocks_code :
    (Text.lines (compile Catalogue.builtin options graph).code).filterMap guard? =
      (if orderedIn graph .entry = [] then [] else [Naming.entryCondition]) ++
        (if orderedIn graph .exit = [] then [] else [Naming.exitCondition]) := by
  have distinct := (validate_errors_eq_nil_iff.1 valid).distinct
  obtain ⟨-, -, code⟩ := compile_of_valid options valid
  have entries : (Program.ofPlan options (planOf graph)).entryOrders = _ := entryOrders_eq distinct
  have exits : (Program.ofPlan options (planOf graph)).exitOrders = _ := exitOrders_eq distinct
  rw [code, guard?_render, Program.guarded?_lines, entries, exits]
  simp only [List.isEmpty_iff, List.map_eq_nil_iff]

private theorem count_omitted {node : Node} (member : node ∈ graph.nodes)
    (kind : node.kind = .action) :
    ((orderedIn graph .entry).map Node.id).count node.id +
      ((orderedIn graph .exit).map Node.id).count node.id +
      ((compile Catalogue.builtin options graph).warnings.filterMap omitted?).count
        node.id = 1 := by
  have distinct := (validate_errors_eq_nil_iff.1 valid).distinct
  have once := count_actions distinct member kind
  rw [← count_ordered_add_idle .entry, ← count_ordered_add_idle .exit] at once
  rw [compile_warnings_of_valid options valid, List.filterMap_append,
    (filterMap_validate _ _).1, (filterMap_roleWarnings distinct).1, List.nil_append,
    List.count_append, List.count_append]
  omega

private theorem count_unprotected {node : Node} (member : node ∈ graph.nodes)
    (kind : node.kind = .risk) :
    ((protectedIn graph).map Node.id).count node.id +
      ((compile Catalogue.builtin options graph).warnings.filterMap unprotected?).count
        node.id = 1 := by
  have distinct := (validate_errors_eq_nil_iff.1 valid).distinct
  rw [compile_warnings_of_valid options valid, List.filterMap_append,
    (filterMap_validate _ _).2, (filterMap_roleWarnings distinct).2, List.append_nil]
  exact count_risks distinct member kind

end Valid

/-- In a graph that compiles, every action and every risk node is accounted for once: the actions
of a role that has conditions are carried out, and the risk nodes with levels protect. -/
theorem accounted_once (options : Options) (graph : Graph)
    (success : (compile Catalogue.builtin options graph).success = true) :
    Accounts graph (compile Catalogue.builtin options graph).code
      (compile Catalogue.builtin options graph).warnings
      (orderedIn graph .entry) (orderedIn graph .exit) (protectedIn graph) := by
  have valid : (validate Catalogue.builtin graph).errors = [] := by
    by_contra invalid
    have failure := (compile_of_invalid options invalid).1
    rw [success] at failure
    exact absurd failure (by decide)
  obtain ⟨entries, exits, protections⟩ := callsOf_code options valid
  refine ⟨?_, ?_, ?_, entries, exits, protections, blocks_code options valid,
    fun node => count_omitted options valid, fun node => count_unprotected options valid⟩
  · simp only [List.forall_mem_cons, List.not_mem_nil, false_implies, implies_true, and_true]
    exact ⟨sublist_orderedIn .entry, sublist_orderedIn .exit, List.filter_sublist⟩
  · exact List.forall_mem_append.2
      ⟨fun _ => kind_of_mem_orderedIn, fun _ => kind_of_mem_orderedIn⟩
  · exact fun node member =>
      beq_iff_eq.1 (Bool.and_eq_true_iff.1 (List.mem_filter.1 member).2).1

theorem accounted_once_averageCrossing :
    (compile Catalogue.builtin {} averageCrossing).success = true ∧
      (orderedIn averageCrossing .entry).map Node.id = ["buy"] ∧
      Accounts averageCrossing (compile Catalogue.builtin {} averageCrossing).code
        (compile Catalogue.builtin {} averageCrossing).warnings
        (orderedIn averageCrossing .entry) (orderedIn averageCrossing .exit)
        (protectedIn averageCrossing) := by
  have success := (compile_of_valid {} valid_averageCrossing).1
  exact ⟨success, by decide +kernel, accounted_once {} averageCrossing success⟩

end StrategyCompiler.Compilation
