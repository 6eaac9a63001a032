import StrategyCompiler.Proofs.Compilation.Reads
import StrategyCompiler.Proofs.Validation.Verdict
/-!
What the lines of each node assign.  In a graph without errors the lines of a node assign the names
that the table has for it, whatever the kind of the node and the catalogue are.
-/

set_option autoImplicit false

namespace StrategyCompiler.Compilation

open Catalogue (Form Parameter Setting Signature)
open StrategyCompiler.Graph (Node Placed)
open Naming (Binding Input)
open Script (Statement)
open Validation (validate validate_errors_eq_nil_iff)

def boundCount (outputs : List String) : Nat :=
  if outputs.isEmpty then 1 else outputs.length

theorem length_expand (outputs : List String) (stem : String) :
    (Naming.expand outputs stem).length = boundCount outputs := by
  unfold Naming.expand boundCount
  split
  · rfl
  · exact List.length_map _

def templates? : Form → Option (List String)
  | .call _ => none
  | .templates texts => some texts

def Plan.definition? (plan : Plan) (placed : Placed) : Option Statement :=
  match plan.logicExpr? placed, plan.names.bindingAt? placed.position with
  | some expr, some binding => some (.define binding.primary expr)
  | _, _ => none

theorem Plan.definitions_eq (plan : Plan) :
    plan.definitions = plan.order.filterMap plan.definition? := rfl

def boundAt (table : Naming.Table) (position : Nat) : List String :=
  ((table.bindingAt? position).map Binding.identifiers).getD []

variable {catalogue : Catalogue} {graph : Graph} {placed : Placed}

/-! ### Bindings -/

theorem mem_signatures_of_signatureOf? {node : Node} {signature : Signature}
    (selected : Naming.signatureOf? catalogue node = some signature) :
    signature ∈ catalogue.signatures := by
  unfold Naming.signatureOf? at selected
  split at selected
  · obtain ⟨id, -, looked⟩ := Option.bind_eq_some_iff.1 selected
    exact Catalogue.mem_of_lookup? looked
  · exact absurd selected (by simp)

theorem bindingAt?_eq_none (found : graph.nodes[placed.position]? = some placed.node)
    (unnamed : Naming.namedOutputs? catalogue placed.node = none) :
    (Naming.bind catalogue graph).bindingAt? placed.position = none := by
  rw [Naming.bindingAt?_eq, ← Option.not_isSome_iff_eq_none, Naming.isSome_given?_bindings found,
    unnamed]
  exact Bool.false_ne_true

theorem exists_binding {outputs : List String}
    (found : graph.nodes[placed.position]? = some placed.node)
    (named : Naming.namedOutputs? catalogue placed.node = some outputs) :
    ∃ earlier, (Naming.bind catalogue graph).bindingAt? placed.position =
      some (Naming.bindNode earlier placed.node outputs) := by
  rw [Naming.bindingAt?_eq]
  exact Naming.given?_bindings_of_named found named

theorem exists_single (found : graph.nodes[placed.position]? = some placed.node)
    (named : Naming.namedOutputs? catalogue placed.node = some []) :
    ∃ name, (Naming.bind catalogue graph).bindingAt? placed.position = some (.single name) := by
  obtain ⟨earlier, bound⟩ := exists_binding found named
  rw [Naming.bindNode_nil] at bound
  exact ⟨_, bound⟩

/-! ### Calculations -/

private theorem assigned_securityLine (found : graph.nodes[placed.position]? = some placed.node)
    (kind : placed.node.kind = .dataSource) :
    ((planWith catalogue graph).securityLine? placed).toList.flatMap Statement.assigned =
      boundAt (Naming.bind catalogue graph) placed.position := by
  have named : Naming.namedOutputs? catalogue placed.node =
      if (placed.node.text? "timeframe").isSome then some [] else none := by
    simp only [Naming.namedOutputs?, kind]
  unfold Plan.securityLine? boundAt
  rw [names_planWith]
  cases timeframe : placed.node.text? "timeframe" with
  | none =>
    rw [bindingAt?_eq_none found (by rw [named, timeframe]; rfl)]
    rfl
  | some text =>
    obtain ⟨name, bound⟩ := exists_single found (by rw [named, timeframe]; rfl)
    rw [bound]
    rfl

private theorem assigned_mathLine (found : graph.nodes[placed.position]? = some placed.node)
    (kind : placed.node.kind = .math) (accepted : Validation.MathAccepted placed.node) :
    ((planWith catalogue graph).mathLine? placed).toList.flatMap Statement.assigned =
      boundAt (Naming.bind catalogue graph) placed.position := by
  have named : Naming.namedOutputs? catalogue placed.node = some [] := by
    simp only [Naming.namedOutputs?, kind]
  obtain ⟨name, bound⟩ := exists_single found named
  obtain ⟨text, read, operation⟩ := accepted
  obtain ⟨operation, parsed⟩ := Option.isSome_iff_exists.1
    (Validation.operation_ofName?_iff.2 operation)
  obtain ⟨expr, composed⟩ : ∃ expr, (planWith catalogue graph).mathExpr? placed = some expr := by
    rw [Plan.mathExpr?, read, Option.bind_some, parsed]
    exact ⟨_, rfl⟩
  simp only [Plan.mathLine?, boundAt, names_planWith, bound, composed]
  rfl

private theorem zipWith_assigned {texts names : List String} (fill : String → String)
    (fits : texts.length = names.length) :
    (List.zipWith (fun text name => Statement.assign (.single name) (.verbatim (fill text)))
      texts names).flatMap Statement.assigned = names := by
  induction texts generalizing names with
  | nil => rw [List.eq_nil_of_length_eq_zero fits.symm]; rfl
  | cons text rest ih =>
    cases names with
    | nil => exact absurd fits (by simp)
    | cons name names =>
      rw [List.zipWith_cons_cons, List.flatMap_cons, ih (Nat.succ.inj fits)]
      rfl

private theorem assigned_indicatorLines {signature : Signature}
    (found : graph.nodes[placed.position]? = some placed.node)
    (selected : Naming.signatureOf? catalogue placed.node = some signature)
    (templates : ∀ texts ∈ templates? signature.form,
      texts.length = boundCount signature.outputs.names) :
    ((planWith catalogue graph).indicatorLines placed).flatMap Statement.assigned =
      boundAt (Naming.bind catalogue graph) placed.position := by
  obtain ⟨earlier, bound⟩ := exists_binding found (namedOutputs?_of_signatureOf? selected)
  simp only [Plan.indicatorLines, boundAt, catalogue_planWith, names_planWith, selected,
    bound]
  cases form : signature.form with
  | call function =>
    rw [List.flatMap_singleton]
    exact targetOf_names _
  | templates texts =>
    refine zipWith_assigned _ ?_
    rw [templates texts (by rw [form]; rfl), Naming.identifiers_bindNode, length_expand]

theorem signatureOf?_of_accepted {node : Node} (kind : node.kind = .indicator)
    (accepted : Validation.IndicatorAccepted catalogue node) :
    ∃ signature, Naming.signatureOf? catalogue node = some signature ∧
      (Validation.resolve signature node).errors = [] := by
  obtain ⟨id, signature, ofId, looked, -, clean⟩ := accepted
  refine ⟨signature, ?_, clean⟩
  simp only [Naming.signatureOf?, kind, ofId, Option.bind_some, looked]
  rfl

/-! ### Inputs -/

def inputNamed? (inputs : List Input) (key : String) : Option String :=
  (inputs.find? fun input => input.parameter == key).map Input.name

def inputsAt (table : Naming.Table) (position : Nat) : List Input :=
  (table.entries[position]?.map Naming.Entry.inputs).getD []

theorem inputAt?_eq (table : Naming.Table) (position : Nat) (key : String) :
    table.inputAt? position key = inputNamed? (inputsAt table position) key := by
  unfold Naming.Table.inputAt? inputsAt
  cases table.entries[position]? <;> rfl

private theorem inputNamed?_self (input : Input) (inputs : List Input) :
    inputNamed? (input :: inputs) input.parameter = some input.name := by
  simp [inputNamed?]

private theorem inputNamed?_of_ne {input : Input} {key : String} (apart : input.parameter ≠ key)
    (inputs : List Input) : inputNamed? (input :: inputs) key = inputNamed? inputs key := by
  have other : (input.parameter == key) = false := beq_eq_false_iff_ne.2 apart
  simp [inputNamed?, other]

private theorem flatMap_inputNamed? {signature : Signature} (taken : List String)
    {parameters : List Parameter} (distinct : (parameters.map Parameter.name).Nodup) :
    (parameters.flatMap fun parameter =>
      if parameter.type.inputFunction?.isSome then
        (inputNamed? (Naming.nameInputs signature taken parameters).1 parameter.name).toList
      else []) = (Naming.nameInputs signature taken parameters).1.map Input.name := by
  induction parameters generalizing taken with
  | nil => rfl
  | cons parameter rest ih =>
    rw [List.map_cons, List.nodup_cons] at distinct
    obtain ⟨absent, later⟩ := distinct
    rw [Naming.nameInputs, List.flatMap_cons]
    split
    · rename_i tunable
      dsimp only
      rw [List.map_cons, ← ih _ later, inputNamed?_self ⟨parameter.name, _⟩]
      refine congrArg (List.cons _) (List.flatMap_congr fun other member => ?_)
      -- The input of the first parameter is no input of a later one.
      have apart : parameter.name ≠ other.name := fun same =>
        absent (same ▸ List.mem_map_of_mem member)
      rw [inputNamed?_of_ne apart]
    · exact ih taken later

private theorem inputsAt_eq_nameInputs {signature : Signature}
    (found : graph.nodes[placed.position]? = some placed.node)
    (selected : Naming.signatureOf? catalogue placed.node = some signature) :
    ∃ earlier, inputsAt (Naming.bind catalogue graph) placed.position =
      (Naming.nameInputs signature earlier signature.parameters).1 := by
  obtain ⟨earlier, given⟩ := Naming.given?_inputs_of_selected found selected
  refine ⟨earlier, ?_⟩
  rw [inputsAt, Naming.bind_entries, List.getElem?_mapIdx, found]
  simp [given]

theorem inputsAt_eq_nil (found : graph.nodes[placed.position]? = some placed.node)
    (unsigned : Naming.signatureOf? catalogue placed.node = none) :
    inputsAt (Naming.bind catalogue graph) placed.position = [] := by
  rw [inputsAt]
  cases stands : (Naming.bind catalogue graph).entries[placed.position]? with
  | none => rfl
  | some entry =>
    refine List.eq_nil_iff_forall_not_mem.2 fun input member => ?_
    obtain ⟨node, here, signature, selected, -⟩ := Naming.mem_inputs_entry stands member
    obtain rfl := Option.some.inj (here.symm.trans found)
    rw [unsigned] at selected
    exact absurd selected (by simp)

/-- The declaration of an input assigns its name, for a parameter that can be declared at all. -/
private theorem assigned_inputDeclaration? (found : Option String) (label : String)
    (parameter : Parameter) (value : Setting) :
    ((found.bind fun name => inputDeclaration? name label parameter value).toList.flatMap
        Statement.assigned) =
      if parameter.type.inputFunction?.isSome then found.toList else [] := by
  unfold inputDeclaration?
  cases found with
  | none => simp
  | some name =>
    cases parameter.type.inputFunction? with
    | none => rfl
    | some function => rfl

theorem assigned_inputsOf {signature : Signature}
    (found : graph.nodes[placed.position]? = some placed.node)
    (selected : Naming.signatureOf? catalogue placed.node = some signature)
    (distinct : (signature.parameters.map Parameter.name).Nodup) :
    ((planWith catalogue graph).inputsOf placed signature).flatMap Statement.assigned =
      (inputsAt (Naming.bind catalogue graph) placed.position).map Input.name := by
  obtain ⟨earlier, named⟩ := inputsAt_eq_nameInputs found selected
  rw [Plan.inputsOf, List.filterMap_eq_flatMap_toList, List.flatMap_assoc,
    names_planWith, named, ← flatMap_inputNamed? earlier distinct]
  refine List.flatMap_congr fun parameter member => ?_
  rw [assigned_inputDeclaration?, inputAt?_eq, named]

/-! ### Nodes -/

/-- Every signature written by templates has one for each name that it binds. -/
def Templated (catalogue : Catalogue) : Prop :=
  ∀ signature ∈ catalogue.signatures, ∀ texts ∈ templates? signature.form,
    texts.length = boundCount signature.outputs.names

theorem templated_builtin : Templated Catalogue.builtin :=
  Catalogue.forall_builtin (by decide +kernel)

theorem Plan.definition?_eq_none (plan : Plan) (produces : placed.node.kind.producesValue = true) :
    plan.definition? placed = none := by
  unfold Plan.definition? Plan.logicExpr?
  cases kind : placed.node.kind with
  | condition | timing =>
    rw [kind] at produces
    exact absurd produces (by decide)
  | dataSource | indicator | action | risk | math => rfl

theorem Plan.calculationsOf_eq_nil (plan : Plan)
    (silent : placed.node.kind.producesValue = false) : plan.calculationsOf placed = [] := by
  unfold Plan.calculationsOf
  cases kind : placed.node.kind with
  | dataSource | indicator | math =>
    rw [kind] at silent
    exact absurd silent (by decide)
  | condition | action | risk | timing => rfl

theorem assigned_node (valid : (validate catalogue graph).errors = [])
    (templated : Templated catalogue)
    (found : graph.nodes[placed.position]? = some placed.node) :
    ((planWith catalogue graph).calculationsOf placed).flatMap Statement.assigned ++
        ((planWith catalogue graph).definition? placed).toList.flatMap Statement.assigned =
      boundAt (Naming.bind catalogue graph) placed.position := by
  have accepted := (validate_errors_eq_nil_iff.1 valid).nodes placed.node
    (List.mem_of_getElem? found)
  unfold Plan.calculationsOf Plan.definition? Plan.logicExpr?
  rw [Validation.NodeAccepted] at accepted
  cases kind : placed.node.kind with
  | dataSource => exact (List.append_nil _).trans (assigned_securityLine found kind)
  | indicator =>
    rw [kind] at accepted
    obtain ⟨signature, selected, -⟩ := signatureOf?_of_accepted kind accepted
    refine (List.append_nil _).trans (assigned_indicatorLines found selected ?_)
    exact templated signature (mem_signatures_of_signatureOf? selected)
  | math =>
    rw [kind] at accepted
    exact (List.append_nil _).trans (assigned_mathLine found kind accepted)
  | condition | timing =>
    have named : Naming.namedOutputs? catalogue placed.node = some [] := by
      simp only [Naming.namedOutputs?, kind]
    obtain ⟨name, bound⟩ := exists_single found named
    simp only [names_planWith, boundAt, bound]
    rfl
  | action | risk =>
    have unnamed : Naming.namedOutputs? catalogue placed.node = none := by
      simp only [Naming.namedOutputs?, kind]
    have bound := bindingAt?_eq_none found unnamed
    simp only [boundAt, bound]
    rfl

end StrategyCompiler.Compilation
