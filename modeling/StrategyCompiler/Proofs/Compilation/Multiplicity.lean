import StrategyCompiler.Proofs.Compilation.Definitions
import StrategyCompiler.Proofs.Compilation.Vocabulary
/-!
How often a script assigns a name.  With a catalogue of regular signatures the statements of a graph
without errors assign the names of its table, each once, and the lines of the script assign these
and the combined conditions.
-/

set_option autoImplicit false

namespace StrategyCompiler.Compilation

open Catalogue (Parameter Signature)
open StrategyCompiler.Graph (Index Placed)
open Naming (Input)
open Script (Call Flat Statement)
open Validation (validate)

/-! ### Regular signatures -/

/-- The texts that a signature writes into scripts as they are: its templates and its words. -/
def verbatimTexts (signature : Signature) : List String :=
  (templates? signature.form).getD [] ++ signatureWords signature

/-- A signature whose texts stand on one line, whose parameters and outputs have different names,
and which has a template for each name that it binds if it is written by templates. -/
structure Regular (signature : Signature) : Prop where
  flat : ∀ text ∈ verbatimTexts signature, Flat text.toList
  parameters : (signature.parameters.map Parameter.name).Nodup
  outputs : (signature.outputs.names.map Naming.sanitize).Nodup
  templates : ∀ texts ∈ templates? signature.form,
    texts.length = boundCount signature.outputs.names

theorem regular_builtin : ∀ signature ∈ Catalogue.builtin.signatures, Regular signature := by
  have each : ∀ signature ∈ Catalogue.builtin.signatures,
      (∀ text ∈ verbatimTexts signature, Flat text.toList) ∧
        (signature.parameters.map Parameter.name).Nodup ∧
        (signature.outputs.names.map Naming.sanitize).Nodup :=
    Catalogue.forall_builtin (by decide +kernel)
  intro signature member
  obtain ⟨flat, parameters, outputs⟩ := each signature member
  exact ⟨flat, parameters, outputs, templated_builtin signature member⟩

variable {catalogue : Catalogue} {graph : Graph}

/-! ### The names of positions -/

def namesAt (table : Naming.Table) (position : Nat) : List String :=
  (inputsAt table position).map Input.name ++ boundAt table position

private theorem flatMap_eq_range {α β : Type} (list : List α) (expand : α → List β) :
    list.flatMap expand =
      (List.range list.length).flatMap fun position =>
        (list[position]?.map expand).getD [] := by
  rw [List.flatMap_def, List.flatMap_def]
  congr 1
  refine List.ext_getElem (by simp) fun position inside _ => ?_
  rw [List.length_map] at inside
  simp only [List.getElem_map, List.getElem_range, List.getElem?_eq_getElem inside,
    Option.map_some, Option.getD_some]

private theorem identifiers_eq (table : Naming.Table) :
    table.identifiers = (List.range table.entries.length).flatMap (namesAt table) := by
  rw [Naming.Table.identifiers, flatMap_eq_range]
  refine List.flatMap_congr fun position _ => ?_
  unfold namesAt inputsAt boundAt Naming.Table.bindingAt?
  cases table.entries[position]? <;> rfl

private theorem inputs_eq (table : Naming.Table) :
    table.entries.flatMap Naming.Entry.inputs =
      (List.range table.entries.length).flatMap (inputsAt table) :=
  flatMap_eq_range table.entries Naming.Entry.inputs

private theorem length_entries_bind (catalogue : Catalogue) (graph : Graph) :
    (Naming.bind catalogue graph).entries.length = graph.nodes.length := by
  rw [Naming.bind_entries, List.length_mapIdx]

/-! ### What statements assign -/

theorem flatMap_filterMap {α β γ : Type} (list : List α) (choose : α → Option β)
    (expand : β → List γ) :
    (list.filterMap choose).flatMap expand =
      list.flatMap fun item => (choose item).toList.flatMap expand := by
  rw [List.filterMap_eq_flatMap_toList, List.flatMap_assoc]

section Regular

variable (regular : ∀ signature ∈ catalogue.signatures, Regular signature)
include regular

private theorem assigned_inputs :
    (planWith catalogue graph).inputs.flatMap Statement.assigned =
      (planWith catalogue graph).order.flatMap fun placed =>
        (inputsAt (Naming.bind catalogue graph) placed.position).map Input.name := by
  rw [Plan.inputs, List.flatMap_assoc, Plan.indicators, flatMap_filterMap, catalogue_planWith]
  refine List.flatMap_congr fun placed member => ?_
  have found := Naming.mem_namingOrder.1 member
  cases selected : Naming.signatureOf? catalogue placed.node with
  | none =>
    rw [inputsAt_eq_nil found selected]
    rfl
  | some signature =>
    have own := regular signature (mem_signatures_of_signatureOf? selected)
    rw [← assigned_inputsOf found selected own.parameters]
    exact List.flatMap_singleton _ _

theorem length_inputs :
    ((planWith catalogue graph).inputs.flatMap Statement.assigned).length =
      (Naming.bind catalogue graph).inputCount := by
  have positions : ((planWith catalogue graph).order.map Placed.position).Perm
      (List.range graph.nodes.length) := Index.positions_placed_order graph
  have everywhere := positions.flatMap_right (inputsAt (Naming.bind catalogue graph))
  rw [List.flatMap_map, ← length_entries_bind catalogue graph, ← inputs_eq] at everywhere
  rw [assigned_inputs regular, ← List.map_flatMap, List.length_map, everywhere.length_eq]
  rfl

variable (valid : (validate catalogue graph).errors = [])
include valid

private theorem assigned_calculations_definitions :
    ((planWith catalogue graph).calculations.flatMap Statement.assigned ++
        (planWith catalogue graph).definitions.flatMap Statement.assigned).Perm
      ((planWith catalogue graph).order.flatMap fun placed =>
        boundAt (Naming.bind catalogue graph) placed.position) := by
  rw [Plan.calculations, List.flatMap_assoc, Plan.definitions_eq, flatMap_filterMap]
  refine (List.flatMap_append_perm _ _ _).trans (.of_eq ?_)
  refine List.flatMap_congr fun placed member => ?_
  have found := Naming.mem_namingOrder.1 member
  exact assigned_node valid (fun signature own => (regular signature own).templates) found

theorem assigned_perm :
    ((planWith catalogue graph).inputs.flatMap Statement.assigned ++
        ((planWith catalogue graph).calculations.flatMap Statement.assigned ++
          (planWith catalogue graph).definitions.flatMap Statement.assigned)).Perm
      (Naming.bind catalogue graph).identifiers := by
  have nodes := assigned_calculations_definitions regular valid
  have positions : ((planWith catalogue graph).order.map Placed.position).Perm
      (List.range graph.nodes.length) := Index.positions_placed_order graph
  rw [assigned_inputs regular, identifiers_eq, length_entries_bind]
  have together := List.flatMap_append_perm (planWith catalogue graph).order
    (fun placed => (inputsAt (Naming.bind catalogue graph) placed.position).map Input.name)
    (fun placed => boundAt (Naming.bind catalogue graph) placed.position)
  have everywhere := positions.flatMap_right (namesAt (Naming.bind catalogue graph))
  rw [List.flatMap_map] at everywhere
  exact (nodes.append_left _).trans (together.trans everywhere)

end Regular

/-! ### What lines assign -/

def Program.combined (program : Program) : List String :=
  (if program.entry.isSome then [Naming.entryCondition] else []) ++
    (if program.exit.isSome then [Naming.exitCondition] else [])

private theorem assignedIn_eq_nil {lines : List Line} (none : ∀ line ∈ lines, line.assigned = []) :
    assignedIn lines = [] :=
  List.flatMap_eq_nil_iff.2 none

private theorem assignedIn_calls (calls : List Call) : assignedIn (calls.map Line.call) = [] :=
  assignedIn_eq_nil (List.forall_mem_map.2 fun _ _ => rfl)

theorem assignedIn_banner (title : String) : assignedIn (Line.banner title) = [] := rfl

theorem assignedIn_guardedLines (condition : String) (orders : List Call) :
    assignedIn (Program.guardedLines condition orders) = [] := by
  unfold Program.guardedLines
  split
  · rfl
  · exact assignedIn_eq_nil (by simp [Line.assigned])

theorem assignedIn_protectionLines (program : Program) :
    assignedIn program.protectionLines = [] := by
  unfold Program.protectionLines
  split
  · rfl
  · exact assignedIn_calls program.protections

private theorem assignedIn_combinedLines (program : Program) :
    assignedIn program.combinedLines = program.combined := by
  unfold Program.combinedLines Program.combined
  cases program.entry with
  | none => cases program.exit <;> rfl
  | some expr => cases program.exit <;> rfl

private theorem assignedIn_logicLines (program : Program) :
    assignedIn program.logicLines =
      program.definitions.flatMap Statement.assigned ++ program.combined := by
  have last : assignedIn (if program.definitions.isEmpty && program.protections.isEmpty then
      [Line.comment "No trading logic"] else []) = [] := by
    split <;> rfl
  simp only [Program.logicLines, assignedIn_append, assignedIn_statements,
    assignedIn_combinedLines, assignedIn_guardedLines, assignedIn_protectionLines, last,
    List.append_nil]

theorem assignedIn_plotLines (program : Program) : assignedIn program.plotLines = [] := by
  have entry : assignedIn (if program.entry.isSome then [Line.call entryMarker] else []) = [] := by
    split <;> rfl
  have exit : assignedIn (if program.exit.isSome then [Line.call exitMarker] else []) = [] := by
    split <;> rfl
  simp only [Program.plotLines, assignedIn_append, assignedIn_calls, entry, exit,
    List.append_nil]

theorem assignedIn_lines (program : Program) :
    assignedIn program.lines =
      program.inputs.flatMap Statement.assigned ++
        (program.calculations.flatMap Statement.assigned ++
          program.definitions.flatMap Statement.assigned) ++ program.combined := by
  have declaration : assignedIn [.call program.options.declaration] = [] := rfl
  show assignedIn program.bodyLines = _
  simp only [Program.bodyLines, assignedIn_append, declaration, assignedIn_banner,
    assignedIn_orComment, assignedIn_logicLines, assignedIn_plotLines, List.nil_append,
    List.append_nil, List.append_assoc]

end StrategyCompiler.Compilation
