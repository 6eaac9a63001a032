import StrategyCompiler.Proofs.Compilation.Grammar
import StrategyCompiler.Proofs.Compilation.Targets
import StrategyCompiler.Proofs.Graph.Neighbours
import StrategyCompiler.Proofs.Script.Truth
/-!
What the combined conditions mean.  The role of a condition is read off the graph; the script of a
graph without errors has one line for each combined condition whose role some condition has, and
that line joins the conditions of the role, for entries together with all sessions.
-/

set_option autoImplicit false

namespace StrategyCompiler.Compilation

open Catalogue (Signature)
open StrategyCompiler.Graph (Index Node Placed Role nodesBehind)
open Naming (Binding)
open Script (Expr ReadsAs Statement isDotted targetsOf)
open Validation (validate validate_errors_eq_nil_iff)

variable {catalogue : Catalogue} {graph : Graph}

/-! ### Nodes in order -/

def resolved (graph : Graph) : List Node :=
  ((Index.ofGraph graph).placed (Index.ofGraph graph).order).map Placed.node

/-- The role that a condition has in a graph: its own, else the one of the first action behind it
that has a role, else the one that its label suggests. -/
def roleIn? (graph : Graph) (node : Node) : Option Role :=
  ((Role.ofConfig? node).or
    (((graph.nodesBehind node.id).filter fun behind => behind.kind == .action).findSome?
      Role.of?)).or
    (Role.ofLabel? node.label)

def conditionsIn (graph : Graph) (role : Role) : List Node :=
  (resolved graph).filter fun node => node.kind == .condition && roleIn? graph node == some role

def sessionsIn (graph : Graph) : List Node :=
  (resolved graph).filter fun node => node.kind == .timing

def variableOf (graph : Graph) (node : Node) : String :=
  (((Naming.bind Catalogue.builtin graph).binding? node.id).map Binding.primary).getD ""

def linesAssigning (name code : String) : List String :=
  (Text.lines code).filter fun line => (targetsOf line).contains name

section Distinct

variable (distinct : (graph.nodes.map Node.id).Nodup)
include distinct

private theorem conditionRole?_eq {placed : Placed}
    (found : graph.nodes[placed.position]? = some placed.node) :
    conditionRole? (.ofGraph graph) placed = roleIn? graph placed.node := by
  rw [roleIn?, ← Graph.nodes_dependents distinct found, List.filter_map, List.findSome?_map]
  rfl

theorem map_node_conditionsOf (role : Role) :
    (conditionsOf (planOf graph).index (planOf graph).order role).map Placed.node =
      conditionsIn graph role := by
  rw [conditionsIn, resolved, List.filter_map]
  refine congrArg (List.map Placed.node) (List.filter_congr fun placed member => ?_)
  have role := conditionRole?_eq distinct (mem_order_planOf.1 member)
  have index : (planOf graph).index = .ofGraph graph := rfl
  rw [index, role]
  rfl

theorem binding?_bind {placed : Placed}
    (found : graph.nodes[placed.position]? = some placed.node) :
    (Naming.bind catalogue graph).binding? placed.node.id =
      (Naming.bind catalogue graph).bindingAt? placed.position := by
  have ids : ((Naming.bind catalogue graph).entries.map Naming.Entry.node).Nodup := by
    rwa [Naming.aligned_bind]
  obtain ⟨entry, stands, same⟩ : ∃ entry,
      (Naming.bind catalogue graph).entries[placed.position]? = some entry ∧
        entry.node = placed.node.id := by
    rw [Naming.bind_entries, List.getElem?_mapIdx, found]
    exact ⟨_, rfl, rfl⟩
  have member := List.mem_of_getElem? stands
  rw [Naming.Table.binding?, Naming.Table.bindingAt?, Naming.Table.entry?, stands]
  cases first : (Naming.bind catalogue graph).entries.find? fun own =>
      own.node == placed.node.id with
  | none => exact absurd (beq_iff_eq.2 same) (List.find?_eq_none.1 first entry member)
  | some other =>
    have equal := beq_iff_eq.1 (List.find?_some (p := fun own : Naming.Entry =>
      own.node == placed.node.id) first)
    rw [List.inj_on_of_nodup_map ids (List.mem_of_find?_eq_some first) member
      (equal.trans same.symm)]

private theorem bindingAt?_variableOf {placed : Placed} (member : placed ∈ (planOf graph).order)
    (logic : placed.node.kind = .condition ∨ placed.node.kind = .timing) :
    (planOf graph).names.bindingAt? placed.position =
      some (.single (variableOf graph placed.node)) := by
  have found := mem_order_planOf.1 member
  have named : Naming.namedOutputs? Catalogue.builtin placed.node = some [] := by
    rcases logic with kind | kind <;> simp only [Naming.namedOutputs?, kind]
  obtain ⟨name, bound⟩ := exists_single found named
  have own : variableOf graph placed.node = name := by
    rw [variableOf, binding?_bind distinct found, bound]
    rfl
  rw [own]
  exact bound

private theorem variablesOf_eq {nodes : List Placed}
    (logic : ∀ placed ∈ nodes, placed ∈ (planOf graph).order ∧
      (placed.node.kind = .condition ∨ placed.node.kind = .timing)) :
    (planOf graph).variablesOf nodes =
      ((nodes.map Placed.node).map (variableOf graph)).map Expr.name := by
  rw [Plan.variablesOf, List.map_map, List.map_map, ← List.filterMap_eq_map]
  refine List.filterMap_congr fun placed member => ?_
  obtain ⟨inside, kind⟩ := logic placed member
  rw [bindingAt?_variableOf distinct inside kind]
  rfl

private theorem isDotted_variableOf {node : Node} (member : node ∈ resolved graph)
    (logic : node.kind = .condition ∨ node.kind = .timing) :
    isDotted (variableOf graph node) = true := by
  obtain ⟨placed, inside, rfl⟩ := List.mem_map.1 member
  have bound := bindingAt?_variableOf distinct inside logic
  have listed := mem_identifiers_of_bindingAt? bound List.mem_cons_self
  exact Script.isDotted_of_isIdent (isName_of_mem_identifiers listed).1

end Distinct

private theorem kind_of_mem_conditionsOf {role : Role} {placed : Placed}
    (member : placed ∈ conditionsOf (planOf graph).index (planOf graph).order role) :
    placed ∈ (planOf graph).order ∧ placed.node.kind = .condition := by
  obtain ⟨inside, kind⟩ := List.mem_filter.1 member
  exact ⟨inside, beq_iff_eq.1 (Bool.and_eq_true_iff.1 kind).1⟩

private theorem mem_conditionsIn {role : Role} {node : Node}
    (member : node ∈ conditionsIn graph role) :
    node ∈ resolved graph ∧ node.kind = .condition ∧ roleIn? graph node = some role := by
  obtain ⟨inside, kind⟩ := List.mem_filter.1 member
  rw [Bool.and_eq_true, beq_iff_eq, beq_iff_eq] at kind
  exact ⟨inside, kind.1, kind.2⟩

private theorem mem_sessionsIn {node : Node} (member : node ∈ sessionsIn graph) :
    node ∈ resolved graph ∧ node.kind = .timing := by
  obtain ⟨inside, kind⟩ := List.mem_filter.1 member
  exact ⟨inside, beq_iff_eq.1 kind⟩

def IsLogic (graph : Graph) (node : Node) : Prop :=
  node ∈ resolved graph ∧ (node.kind = .condition ∨ node.kind = .timing)

private theorem isLogic_of_mem_conditionsIn {role : Role} {node : Node}
    (member : node ∈ conditionsIn graph role) : IsLogic graph node :=
  ⟨(mem_conditionsIn member).1, .inl (mem_conditionsIn member).2.1⟩

private theorem isLogic_of_mem_sessionsIn {node : Node} (member : node ∈ sessionsIn graph) :
    IsLogic graph node :=
  ⟨(mem_sessionsIn member).1, .inr (mem_sessionsIn member).2⟩

private theorem isLogic_of_mem_entry {node : Node}
    (member : node ∈ conditionsIn graph .entry ++ sessionsIn graph) : IsLogic graph node :=
  (List.mem_append.1 member).elim isLogic_of_mem_conditionsIn isLogic_of_mem_sessionsIn

private theorem map_node_timings : (planOf graph).timings.map Placed.node = sessionsIn graph := by
  rw [sessionsIn, resolved, List.filter_map]
  rfl

/-! ### Combined conditions of a plan -/

section Distinct

variable (distinct : (graph.nodes.map Node.id).Nodup)
include distinct

private theorem entryExpr?_eq :
    (planOf graph).entryExpr? =
      if conditionsIn graph .entry = [] then none
      else some (.all (((conditionsIn graph .entry ++ sessionsIn graph).map
        (variableOf graph)).map Expr.name)) := by
  have conditions := variablesOf_eq distinct
    fun placed (member : placed ∈ conditionsOf (planOf graph).index (planOf graph).order .entry) =>
      (kind_of_mem_conditionsOf member).imp_right .inl
  have timings := variablesOf_eq distinct
    fun placed (member : placed ∈ (planOf graph).timings) =>
      ⟨(List.mem_filter.1 member).1, .inr (beq_iff_eq.1 (List.mem_filter.1 member).2)⟩
  rw [map_node_conditionsOf distinct] at conditions
  rw [map_node_timings] at timings
  unfold Plan.entryExpr?
  dsimp only
  rw [conditions, timings, ← map_node_conditionsOf distinct, ← List.map_append, ← List.map_append]
  simp only [List.isEmpty_iff, List.map_eq_nil_iff]

private theorem exitExpr?_eq :
    (planOf graph).exitExpr? =
      if conditionsIn graph .exit = [] then none
      else some (.any (((conditionsIn graph .exit).map (variableOf graph)).map Expr.name)) := by
  have conditions := variablesOf_eq distinct
    fun placed (member : placed ∈ conditionsOf (planOf graph).index (planOf graph).order .exit) =>
      (kind_of_mem_conditionsOf member).imp_right .inl
  rw [map_node_conditionsOf distinct] at conditions
  unfold Plan.exitExpr?
  dsimp only
  rw [conditions, ← map_node_conditionsOf distinct]
  simp only [List.isEmpty_iff, List.map_eq_nil_iff]

end Distinct

/-! ### Lines that assign a name -/

def assigning (name : String) (lines : List Line) : List Line :=
  lines.filter fun line => line.assigned.contains name

private theorem assigning_eq_nil {name : String} {lines : List Line}
    (free : name ∉ assignedIn lines) :
    assigning name lines = [] := by
  refine List.filter_eq_nil_iff.2 fun line member assigns => free ?_
  exact List.mem_flatMap.2 ⟨line, member, List.contains_iff_mem.1 assigns⟩

def Program.leadingLines (program : Program) : List Line :=
  [.note program.options.versionLine, .call program.options.declaration] ++
    Line.banner "Inputs" ++
    Line.orComment "No indicator inputs" (program.inputs.map .statement) ++
    Line.banner "Calculations" ++
    Line.orComment "Price series are used directly" (program.calculations.map .statement) ++
    Line.banner "Strategy Logic" ++ program.definitions.map .statement

def Program.closingLines (program : Program) : List Line :=
  Program.guardedLines Naming.entryCondition program.entryOrders ++
    Program.guardedLines Naming.exitCondition program.exitOrders ++
    program.protectionLines ++
    (if program.definitions.isEmpty && program.protections.isEmpty then
      [.comment "No trading logic"]
    else []) ++
    Line.banner "Plots" ++ program.plotLines

theorem Program.lines_around (program : Program) :
    program.lines = program.leadingLines ++ program.combinedLines ++ program.closingLines := by
  simp only [lines, bodyLines, logicLines, leadingLines, closingLines, List.append_assoc,
    List.cons_append, List.nil_append]

private theorem assignedIn_leadingLines (program : Program) :
    assignedIn program.leadingLines =
      program.inputs.flatMap Statement.assigned ++
        (program.calculations.flatMap Statement.assigned ++
          program.definitions.flatMap Statement.assigned) := by
  have head : assignedIn [.note program.options.versionLine, .call program.options.declaration] =
      [] := rfl
  simp only [Program.leadingLines, assignedIn_append, head, assignedIn_banner,
    assignedIn_orComment, assignedIn_statements, List.nil_append, List.append_assoc]

private theorem assignedIn_closingLines (program : Program) : assignedIn program.closingLines =
    [] := by
  have comment : assignedIn (if program.definitions.isEmpty && program.protections.isEmpty then
      [Line.comment "No trading logic"] else []) = [] := by
    split <;> rfl
  simp only [Program.closingLines, assignedIn_append, assignedIn_guardedLines,
    assignedIn_protectionLines, comment, assignedIn_banner, assignedIn_plotLines,
    List.append_nil]

private theorem assigning_entry (program : Program) :
    assigning Naming.entryCondition program.combinedLines =
      (program.entry.map fun expr =>
        Line.statement (.define Naming.entryCondition expr)).toList := by
  unfold Program.combinedLines
  cases program.entry with
  | none => cases program.exit <;> rfl
  | some expr => cases program.exit <;> rfl

private theorem assigning_exit (program : Program) :
    assigning Naming.exitCondition program.combinedLines =
      (program.exit.map fun expr =>
        Line.statement (.define Naming.exitCondition expr)).toList := by
  unfold Program.combinedLines
  cases program.entry with
  | none => cases program.exit <;> rfl
  | some expr => cases program.exit <;> rfl

section Regular

variable (regular : ∀ signature ∈ catalogue.signatures, Regular signature)
  (valid : (validate catalogue graph).errors = []) (options : Options)
include regular

private theorem linesAssigning_eq (name : String) :
    linesAssigning name (Program.ofPlan options (planWith catalogue graph)).render =
      (assigning name (Program.ofPlan options (planWith catalogue graph)).lines).map
        Line.render := by
  have flat := flatTexts_of_regular regular
  rw [linesAssigning, lines_render_of_flat graph flat, List.filter_map, assigning]
  refine congrArg (List.map Line.render) (List.filter_congr fun line member => ?_)
  rw [Function.comp_apply, targetsOf_lines graph flat options line member]

include valid

private theorem assigning_combined {name : String} (combined : name ∈ combinedNames) :
    assigning name (Program.ofPlan options (planWith catalogue graph)).lines =
      assigning name (Program.ofPlan options (planWith catalogue graph)).combinedLines := by
  have taken : ∀ own ∈ combinedNames, own ∈ Naming.initiallyTaken := by decide
  have leading : assigning name
      (Program.ofPlan options (planWith catalogue graph)).leadingLines = [] := by
    refine assigning_eq_nil fun member => ?_
    rw [assignedIn_leadingLines] at member
    have listed := (assigned_perm regular valid).mem_iff.1 member
    exact Naming.not_mem_initiallyTaken listed (taken name combined)
  have closing : assigning name
      (Program.ofPlan options (planWith catalogue graph)).closingLines = [] :=
    assigning_eq_nil (by rw [assignedIn_closingLines]; exact List.not_mem_nil)
  rw [Program.lines_around]
  unfold assigning at leading closing ⊢
  rw [List.filter_append, List.filter_append, leading, closing, List.nil_append, List.append_nil]

end Regular

/-! ### Combined conditions of a script -/

/-- A script defines a name by one line, whose right side reads as a tree with the variables of the
nodes, in this order, and a truth value. -/
def Combines (graph : Graph) (code name : String) (nodes : List Node)
    (value : (Node → Bool) → Bool) : Prop :=
  ∃ side, linesAssigning name code = [name ++ " = " ++ side] ∧
    ReadsAs side (nodes.map (variableOf graph)) fun truth =>
      value fun node => truth (variableOf graph node)

section Valid

variable (valid : (validate Catalogue.builtin graph).errors = []) (options : Options)
include valid

private theorem linesAssigning_combined {name : String} (combined : name ∈ combinedNames)
    {found : Option Expr}
    (defined : assigning name (Program.ofPlan options (planOf graph)).combinedLines =
      (found.map fun expr => Line.statement (.define name expr)).toList) :
    linesAssigning name (compile Catalogue.builtin options graph).code =
      (found.map fun expr => name ++ " = " ++ expr.render).toList := by
  obtain ⟨-, -, code⟩ := compile_of_valid options valid
  have lines : linesAssigning name (Program.ofPlan options (planOf graph)).render = _ :=
    linesAssigning_eq regular_builtin options name
  rw [assigning_combined regular_builtin valid options combined] at lines
  rw [code]
  refine lines.trans ?_
  refine (congrArg (List.map Line.render) defined).trans ?_
  cases found <;> rfl

private theorem isDotted_of_mem_map {nodes : List Node}
    (logic : ∀ node ∈ nodes, IsLogic graph node) :
    ∀ name ∈ nodes.map (variableOf graph), isDotted name = true := by
  have distinct := (validate_errors_eq_nil_iff.1 valid).distinct
  intro name member
  obtain ⟨node, inside, rfl⟩ := List.mem_map.1 member
  exact isDotted_variableOf distinct (logic node inside).1 (logic node inside).2

private theorem combines_entry (some : conditionsIn graph .entry ≠ []) :
    Combines graph (compile Catalogue.builtin options graph).code Naming.entryCondition
      (conditionsIn graph .entry ++ sessionsIn graph) fun holds =>
        (conditionsIn graph .entry).all holds && (sessionsIn graph).all holds := by
  have distinct := (validate_errors_eq_nil_iff.1 valid).distinct
  have lines := linesAssigning_combined valid options (by decide)
    (assigning_entry (Program.ofPlan options (planOf graph)))
  have entry : (Program.ofPlan options (planOf graph)).entry = _ := entryExpr?_eq distinct
  rw [entry, if_neg some] at lines
  refine ⟨_, lines, ?_⟩
  have dotted := isDotted_of_mem_map valid fun node (member : node ∈ conditionsIn graph .entry ++
    sessionsIn graph) => isLogic_of_mem_entry member
  have reads := Script.readsAs_all dotted (by simp [some])
  simpa only [List.all_map, List.all_append, Function.comp_def] using reads

private theorem combines_exit (some : conditionsIn graph .exit ≠ []) :
    Combines graph (compile Catalogue.builtin options graph).code Naming.exitCondition
      (conditionsIn graph .exit) fun holds => (conditionsIn graph .exit).any holds := by
  have distinct := (validate_errors_eq_nil_iff.1 valid).distinct
  have lines := linesAssigning_combined valid options (by decide)
    (assigning_exit (Program.ofPlan options (planOf graph)))
  have exit : (Program.ofPlan options (planOf graph)).exit = _ := exitExpr?_eq distinct
  rw [exit, if_neg some] at lines
  refine ⟨_, lines, ?_⟩
  have dotted := isDotted_of_mem_map valid fun node (member : node ∈ conditionsIn graph .exit) =>
    isLogic_of_mem_conditionsIn member
  have reads := Script.readsAs_any dotted (by simp [some])
  simpa only [List.any_map, Function.comp_def] using reads

end Valid

/-- The script of a graph without errors defines the condition to open positions exactly when there
are entry conditions, as the conjunction of all of them and all sessions, and the condition to close
positions exactly when there are exit conditions, as the disjunction of these.  All of them have
variables, and no condition is of both roles. -/
theorem combined_exact (options : Options) (graph : Graph)
    (valid : (validate Catalogue.builtin graph).errors = []) :
    (if conditionsIn graph .entry = [] then
        linesAssigning Naming.entryCondition (compile Catalogue.builtin options graph).code = []
      else
        Combines graph (compile Catalogue.builtin options graph).code Naming.entryCondition
          (conditionsIn graph .entry ++ sessionsIn graph) fun holds =>
            (conditionsIn graph .entry).all holds && (sessionsIn graph).all holds) ∧
    (if conditionsIn graph .exit = [] then
        linesAssigning Naming.exitCondition (compile Catalogue.builtin options graph).code = []
      else
        Combines graph (compile Catalogue.builtin options graph).code Naming.exitCondition
          (conditionsIn graph .exit) fun holds => (conditionsIn graph .exit).any holds) ∧
    (∀ node ∈ conditionsIn graph .entry ++ sessionsIn graph ++ conditionsIn graph .exit,
      (Naming.bind Catalogue.builtin graph).binding? node.id =
        some (.single (variableOf graph node))) ∧
    ∀ node ∈ conditionsIn graph .entry, node ∉ conditionsIn graph .exit := by
  have distinct := (validate_errors_eq_nil_iff.1 valid).distinct
  refine ⟨?_, ?_, ?_, ?_⟩
  · split
    · rename_i empty
      have entry : (Program.ofPlan options (planOf graph)).entry = _ := entryExpr?_eq distinct
      rw [linesAssigning_combined valid options (by decide) (assigning_entry _), entry,
        if_pos empty]
      rfl
    · rename_i some
      exact combines_entry valid options some
  · split
    · rename_i empty
      have exit : (Program.ofPlan options (planOf graph)).exit = _ := exitExpr?_eq distinct
      rw [linesAssigning_combined valid options (by decide) (assigning_exit _), exit,
        if_pos empty]
      rfl
    · rename_i some
      exact combines_exit valid options some
  · intro node member
    have logic : IsLogic graph node :=
      (List.mem_append.1 member).elim isLogic_of_mem_entry isLogic_of_mem_conditionsIn
    obtain ⟨placed, inside, rfl⟩ := List.mem_map.1 logic.1
    rw [binding?_bind distinct (mem_order_planOf.1 inside)]
    exact bindingAt?_variableOf distinct inside logic.2
  · intro node entry exit
    have same := (mem_conditionsIn entry).2.2.symm.trans (mem_conditionsIn exit).2.2
    exact absurd same (by decide)

theorem combined_exact_averageCrossing :
    (validate Catalogue.builtin averageCrossing).errors = [] ∧
      (conditionsIn averageCrossing .entry).map Node.id = ["crossing"] ∧
      Combines averageCrossing (compile Catalogue.builtin {} averageCrossing).code
        Naming.entryCondition
        (conditionsIn averageCrossing .entry ++ sessionsIn averageCrossing) fun holds =>
          (conditionsIn averageCrossing .entry).all holds &&
            (sessionsIn averageCrossing).all holds := by
  have ids : (conditionsIn averageCrossing .entry).map Node.id = ["crossing"] := by
    decide +kernel
  have some : conditionsIn averageCrossing .entry ≠ [] := by
    intro empty
    rw [empty] at ids
    exact absurd ids (by decide)
  have defined := (combined_exact {} averageCrossing valid_averageCrossing).1
  rw [if_neg some] at defined
  exact ⟨valid_averageCrossing, ids, defined⟩

end StrategyCompiler.Compilation
