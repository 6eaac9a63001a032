import StrategyCompiler.Proofs.Catalogue.Placeholders
import StrategyCompiler.Proofs.Compilation.Combined
import StrategyCompiler.Proofs.Script.Inlining
/-!
How the parameters of indicators are wired.  With every catalogue whose parameters have different
names, the call of an indicator passes to each parameter the node's own value, or for a source the
value in front of the node that it is the turn of; inputs only give names to values on the way.  A
line reads an input variable of another node only if the text of the signature itself has its name.
-/

set_option autoImplicit false

namespace StrategyCompiler.Compilation

open Catalogue (Parameter Setting Settings Signature)
open Catalogue.Template (StandsApart hollow)
open StrategyCompiler.Graph (Index Node Placed nodesInFront)
open Naming (Binding Input)
open Script (Argument Call Expr Operand Statement isWord wordsOf)
open Validation (KnownSeries settle validate validate_errors_eq_nil_iff)

variable {catalogue : Catalogue} {graph : Graph}

/-! ### Input variables -/

def inputVariables (table : Naming.Table) : List String :=
  (table.entries.flatMap Naming.Entry.inputs).map Input.name

/-- A name is an input variable of a node at another position. -/
def Foreign (table : Naming.Table) (position : Nat) (name : String) : Prop :=
  ∃ other, other ≠ position ∧ name ∈ (inputsAt table other).map Input.name

private theorem mem_inputs_of_mem_inputsAt {table : Naming.Table} {position : Nat} {input : Input}
    (member : input ∈ inputsAt table position) :
    input ∈ table.entries.flatMap Naming.Entry.inputs := by
  unfold inputsAt at member
  cases stands : table.entries[position]? with
  | none => simp [stands] at member
  | some entry =>
    rw [stands] at member
    exact List.mem_flatMap.2 ⟨entry, List.mem_of_getElem? stands, member⟩

private theorem mem_inputsAt_of_inputAt? {table : Naming.Table} {position : Nat} {key name : String}
    (found : table.inputAt? position key = some name) : ⟨key, name⟩ ∈ inputsAt table position := by
  rw [inputAt?_eq] at found
  obtain ⟨input, selected, rfl⟩ := Option.map_eq_some_iff.1 found
  have same := beq_iff_eq.1 (List.find?_some (p := fun own : Input => own.parameter == key)
    selected)
  rw [← same]
  exact List.mem_of_find?_eq_some selected

private theorem Foreign.mem_inputVariables {table : Naming.Table} {position : Nat} {name : String}
    (foreign : Foreign table position name) : name ∈ inputVariables table := by
  obtain ⟨other, -, member⟩ := foreign
  obtain ⟨input, inside, rfl⟩ := List.mem_map.1 member
  exact List.mem_map_of_mem (mem_inputs_of_mem_inputsAt inside)

theorem mem_identifiers_of_mem_inputVariables {table : Naming.Table} {name : String}
    (member : name ∈ inputVariables table) : name ∈ table.identifiers := by
  rw [inputVariables, List.map_flatMap] at member
  obtain ⟨entry, inside, own⟩ := List.mem_flatMap.1 member
  exact List.mem_flatMap.2 ⟨entry, inside, List.mem_append_left _ own⟩

private theorem disjoint_inputsAt {position other : Nat} (apart : position ≠ other) :
    ((inputsAt (Naming.bind catalogue graph) position).map Input.name).Disjoint
      ((inputsAt (Naming.bind catalogue graph) other).map Input.name) := by
  have nodup : (inputVariables (Naming.bind catalogue graph)).Nodup := Naming.nodup_inputs_bind
  rw [inputVariables, List.map_flatMap, List.nodup_flatMap] at nodup
  unfold inputsAt
  cases stands : (Naming.bind catalogue graph).entries[position]? with
  | none => exact List.disjoint_nil_left _
  | some entry =>
    cases also : (Naming.bind catalogue graph).entries[other]? with
    | none => exact List.disjoint_nil_right _
    | some twin =>
      obtain ⟨left, rfl⟩ := List.getElem?_eq_some_iff.1 stands
      obtain ⟨right, rfl⟩ := List.getElem?_eq_some_iff.1 also
      have ordered := List.pairwise_iff_getElem.1 nodup.2
      rcases Nat.lt_or_gt_of_ne apart with lower | higher
      · exact ordered position other left right lower
      · exact List.disjoint_symm (ordered other position right left higher)

private theorem inputAt?_injective {position other : Nat} {key twin name : String}
    (first : (Naming.bind catalogue graph).inputAt? position key = some name)
    (second : (Naming.bind catalogue graph).inputAt? other twin = some name) :
    position = other ∧ key = twin := by
  have own := mem_inputsAt_of_inputAt? first
  have also := mem_inputsAt_of_inputAt? second
  constructor
  · by_contra apart
    exact disjoint_inputsAt apart (List.mem_map.2 ⟨_, own, rfl⟩) (List.mem_map.2 ⟨_, also, rfl⟩)
  · have nodup : (inputVariables (Naming.bind catalogue graph)).Nodup := Naming.nodup_inputs_bind
    have same := List.inj_on_of_nodup_map nodup (mem_inputs_of_mem_inputsAt own)
      (mem_inputs_of_mem_inputsAt also) rfl
    exact (Input.mk.inj same).1

private theorem not_foreign_of_inputAt? {position : Nat} {key name : String}
    (found : (Naming.bind catalogue graph).inputAt? position key = some name) :
    ¬ Foreign (Naming.bind catalogue graph) position name := by
  rintro ⟨other, apart, member⟩
  have own := mem_inputsAt_of_inputAt? found
  exact disjoint_inputsAt apart member (List.mem_map.2 ⟨_, own, rfl⟩)

theorem not_mem_priceSeries {name : String}
    (member : name ∈ (Naming.bind catalogue graph).identifiers) : name ∉ Script.priceSeries := by
  have taken : ∀ series ∈ Script.priceSeries, series ∈ Naming.initiallyTaken := by decide
  exact fun known => Naming.not_mem_initiallyTaken member (taken name known)

private theorem series_not_mem_inputVariables {series : String}
    (known : series ∈ Script.priceSeries) :
    series ∉ inputVariables (Naming.bind catalogue graph) :=
  fun member => not_mem_priceSeries (mem_identifiers_of_mem_inputVariables member) known

private theorem isWord_of_mem_identifiers {name : String}
    (member : name ∈ (Naming.bind catalogue graph).identifiers) : isWord name = true :=
  isWord_of_all_isNameChar (Naming.all_isNameChar_of_mem_identifiers member)

private theorem isWord_of_mem_priceSeries {series : String} (known : series ∈ Script.priceSeries) :
    isWord series = true := by
  have each : ∀ series ∈ Script.priceSeries, isWord series = true := by decide
  exact each series known

private theorem bound_not_mem_inputVariables {position : Nat} {binding : Binding} {name : String}
    (bound : (Naming.bind catalogue graph).bindingAt? position = some binding)
    (own : name ∈ binding.identifiers) :
    name ∉ inputVariables (Naming.bind catalogue graph) := by
  intro member
  obtain ⟨input, inside, rfl⟩ := List.mem_map.1 member
  obtain ⟨entry, stands, binds⟩ := Option.bind_eq_some_iff.1 bound
  refine Naming.input_not_mem_bound inside (List.mem_of_getElem? stands) ?_
  rwa [Naming.Entry.bound, binds]

/-! ### Declarations -/

private theorem default?_inputDeclaration? {name label : String} {parameter : Parameter}
    {value : Setting}
    {statement : Statement}
    (declaration : inputDeclaration? name label parameter value = some statement) :
    statement.assigned = [name] ∧ statement.default? name = some value.literal := by
  obtain ⟨function, -, rfl⟩ := Option.map_eq_some_iff.1 declaration
  exact ⟨rfl, if_pos rfl⟩

theorem eq_of_position_eq {placed twin : Placed}
    (found : graph.nodes[placed.position]? = some placed.node)
    (there : graph.nodes[twin.position]? = some twin.node)
    (same : placed.position = twin.position) : placed = twin := by
  obtain ⟨position, node⟩ := placed
  obtain ⟨other, also⟩ := twin
  obtain rfl : position = other := same
  obtain rfl := Option.some.inj (found.symm.trans there)
  rfl

theorem mem_inputVariables_of_assigned {name : String}
    (declared : name ∈ (planWith catalogue graph).inputs.flatMap Statement.assigned) :
    name ∈ inputVariables (Naming.bind catalogue graph) := by
  obtain ⟨statement, member, assigns⟩ := List.mem_flatMap.1 declared
  obtain ⟨placed, signature, -, -, parameter, -, own, input, declaration⟩ :=
    mem_inputs_iff.1 member
  rw [(default?_inputDeclaration? declaration).1, List.mem_singleton] at assigns
  subst assigns
  exact List.mem_map.2 ⟨_, mem_inputs_of_mem_inputsAt (mem_inputsAt_of_inputAt? input), rfl⟩

private theorem default?_inputs {placed : Placed} {signature : Signature} {parameter : Parameter}
    {name : String} (distinct : (signature.parameters.map Parameter.name).Nodup)
    (found : graph.nodes[placed.position]? = some placed.node)
    (selected : Naming.signatureOf? catalogue placed.node = some signature)
    (declared : parameter ∈ signature.parameters)
    (tunable : parameter.type.inputFunction?.isSome = true)
    (input : (Naming.bind catalogue graph).inputAt? placed.position parameter.name = some name) :
    Script.default? (planWith catalogue graph).inputs name =
      some (Plan.valueOf (Validation.resolve signature placed.node).values parameter).literal := by
  obtain ⟨function, typed⟩ := Option.isSome_iff_exists.1 tunable
  obtain ⟨statement, declaration⟩ : ∃ statement, inputDeclaration? name
      (Plan.displayLabel placed.node signature) parameter
      (Plan.valueOf (Validation.resolve signature placed.node).values parameter) =
        some statement := by
    rw [inputDeclaration?, typed]
    exact ⟨_, rfl⟩
  refine Script.default?_eq_some (mem_inputs_iff.2 ⟨placed, signature, found, selected, parameter,
    declared, name, input, declaration⟩) (default?_inputDeclaration? declaration).2 ?_
  intro other member text default
  obtain ⟨twin, another, there, signed, key, listed, own, also, further⟩ := mem_inputs_iff.1 member
  -- The declaration is one of the same name, so it is made for the same parameter.
  have assigns := Statement.mem_assigned_of_default? default
  obtain ⟨names, literal⟩ := default?_inputDeclaration? further
  rw [names, List.mem_singleton] at assigns
  subst assigns
  obtain ⟨position, same⟩ := inputAt?_injective input also
  obtain rfl := eq_of_position_eq found there position
  obtain rfl := Option.some.inj (selected.symm.trans signed)
  rw [List.inj_on_of_nodup_map distinct declared listed same]
  exact Option.some.inj (default.symm.trans literal)

/-! ### Values in front of a node -/

/-- The text that reads the value of a node: the variable of its first output, or the series of a
data source that has no variable. -/
def valueText (catalogue : Catalogue) (graph : Graph) (node : Node) : String :=
  (((Naming.bind catalogue graph).binding? node.id).map Binding.primary).getD (Plan.seriesOf node)

/-- The texts that read the values in front of a node, in the order of edges. -/
def textsInFront (catalogue : Catalogue) (graph : Graph) (node : Node) : List String :=
  ((graph.nodesInFront node.id).filter fun source => source.kind.producesValue).map
    (valueText catalogue graph)

section Distinct

variable (distinct : (graph.nodes.map Node.id).Nodup)
include distinct

theorem read?_eq_valueText (catalogue : Catalogue) {source : Placed}
    (found : graph.nodes[source.position]? = some source.node)
    (produces : source.node.kind.producesValue = true) :
    (planWith catalogue graph).read? source none =
        some (.name (valueText catalogue graph source.node)) ∧
      isWord (valueText catalogue graph source.node) = true ∧
      valueText catalogue graph source.node ∉ inputVariables (Naming.bind catalogue graph) := by
  have own {binding : Binding}
      (bound : (Naming.bind catalogue graph).bindingAt? source.position = some binding) :
      isWord binding.primary = true ∧
        binding.primary ∉ inputVariables (Naming.bind catalogue graph) := by
    have primary := primary_mem_of_bind bound
    exact ⟨isWord_of_mem_identifiers (mem_identifiers_of_bindingAt? bound primary),
      bound_not_mem_inputVariables bound primary⟩
  unfold Plan.read? valueText
  rw [binding?_bind distinct found, names_planWith]
  cases bound : (Naming.bind catalogue graph).bindingAt? source.position with
  | some binding =>
    refine ⟨?_, own bound⟩
    cases kind : source.node.kind with
    | dataSource | indicator | math => rfl
    | condition | timing | action | risk =>
      rw [kind] at produces
      exact absurd produces (by decide)
  | none =>
    have unnamed : Naming.namedOutputs? catalogue source.node = none := by
      refine Option.eq_none_iff_forall_ne_some.2 fun outputs named => ?_
      obtain ⟨earlier, also⟩ := exists_binding found named
      exact absurd (bound.symm.trans also) (by simp)
    cases kind : source.node.kind with
    | dataSource =>
      have known := seriesOf_mem source.node
      exact ⟨rfl, isWord_of_mem_priceSeries known, series_not_mem_inputVariables known⟩
    | indicator | math => simp [Naming.namedOutputs?, kind] at unnamed
    | condition | timing | action | risk =>
      rw [kind] at produces
      exact absurd produces (by decide)

theorem map_valueText_suppliers {placed : Placed}
    (found : graph.nodes[placed.position]? = some placed.node) :
    ((planWith catalogue graph).suppliers placed).map
        (fun source => valueText catalogue graph source.node) =
      textsInFront catalogue graph placed.node := by
  rw [textsInFront, ← Graph.nodes_dependencies distinct found, List.filter_map, List.map_map]
  rfl

end Distinct

/-! ### Arguments -/

/-- The text that an argument has once inputs are replaced by their defaults. -/
def inlinedText (declarations : List Statement) (operand : Operand) : String :=
  (operand.rename fun name => (Script.default? declarations name).getD name).render

private theorem inlinedText_name (declarations : List Statement) (name : String) :
    inlinedText declarations (.expr (.name name)) =
      (Script.default? declarations name).getD name := by
  rw [inlinedText, Operand.rename, Expr.rename, Operand.render, Expr.render, Expr.renderAt]

/-- A literal of a value that is no series. -/
def IsLiteral (operand : Operand) : Prop :=
  ∃ value, operand = .setting value ∧ ∀ series, value ≠ .source series

/-- An operand comes to a text when all inputs are at their defaults, and reads no input variable of
a node at another position; if it is not a literal, it shows no word that it does not read. -/
structure Carries (catalogue : Catalogue) (graph : Graph) (position : Nat) (text : String)
    (operand : Operand) : Prop where
  text : inlinedText (planWith catalogue graph).inputs operand = text
  own : ∀ name ∈ operand.reads, ¬ Foreign (Naming.bind catalogue graph) position name
  shown : IsLiteral operand ∨ ∀ word ∈ wordsOf operand.render.toList, word ∈ operand.reads

private theorem shown_name {name : String} (word : isWord name = true) :
    ∀ other ∈ wordsOf (Operand.expr (.name name)).render.toList,
      other ∈ (Operand.expr (.name name)).reads := by
  have shape : (Operand.expr (.name name)).render = name := by
    rw [Operand.render, Expr.render, Expr.renderAt]
  intro other member
  rw [shape] at member
  exact List.mem_singleton.2 (Script.eq_of_mem_wordsOf word member)

private theorem Carries.of_unread {position : Nat} {operand : Operand}
    (unread : ∀ name ∈ operand.reads, name ∉ inputVariables (Naming.bind catalogue graph))
    (shown : IsLiteral operand ∨ ∀ word ∈ wordsOf operand.render.toList, word ∈ operand.reads) :
    Carries catalogue graph position operand.render operand := by
  refine ⟨?_, fun name read foreign => unread name read foreign.mem_inputVariables, shown⟩
  rw [inlinedText, Operand.rename_eq_self]
  intro name read
  rw [Script.default?_eq_none fun assigned =>
    unread name read (mem_inputVariables_of_assigned assigned)]
  rfl

private theorem Carries.of_name {position : Nat} {name : String} (word : isWord name = true)
    (unread : name ∉ inputVariables (Naming.bind catalogue graph)) :
    Carries catalogue graph position name (.expr (.name name)) := by
  have each : ∀ other ∈ (Operand.expr (.name name)).reads,
      other ∉ inputVariables (Naming.bind catalogue graph) := by
    intro other read
    rwa [List.mem_singleton.1 read]
  exact .of_unread each (.inr (shown_name word))

private theorem unread_setting {value : Setting} (known : KnownSeries value) :
    ∀ name ∈ (Operand.setting value).reads,
      name ∉ inputVariables (Naming.bind catalogue graph) := by
  intro name read
  cases value with
  | source series =>
    obtain rfl := List.mem_singleton.1 read
    exact series_not_mem_inputVariables (known _ rfl)
  | int | float | bool | string => exact absurd read List.not_mem_nil

private theorem shown_setting {value : Setting} (known : KnownSeries value) :
    IsLiteral (.setting value) ∨
      ∀ word ∈ wordsOf (Operand.setting value).render.toList, word ∈ (Operand.setting value).reads := by
  cases value with
  | source series =>
    right
    intro word member
    have single : isWord series = true := isWord_of_mem_priceSeries (known _ rfl)
    exact List.mem_singleton.2 (Script.eq_of_mem_wordsOf single member)
  | int | float | bool | string => exact .inl ⟨_, rfl, nofun⟩

/-- The text that belongs to a parameter with a value: for a source the text in front of the node
that is left for it by the sources among the parameters in front of it, if there is one, else the
literal of the value. -/
def ownText (texts : List String) (earlier : List Parameter) (parameter : Parameter)
    (value : Setting) : String :=
  if parameter.type = .source then (texts[sourceCount earlier]?).getD value.literal
  else value.literal

private theorem isSome_inputFunction? {type : Catalogue.SettingType}
    (passes : type.passesByInput = true) :
    type.inputFunction?.isSome = true := by
  cases type with
  | int | float | bool => rfl
  | string | source => exact absurd passes (by decide)

section Passed

variable {placed : Placed} {signature : Signature} {parameter : Parameter} {value : Setting}
  (names : (signature.parameters.map Parameter.name).Nodup)
  (known : KnownSeries parameter.default)
  (found : graph.nodes[placed.position]? = some placed.node)
  (selected : Naming.signatureOf? catalogue placed.node = some signature)
  (declared : parameter ∈ signature.parameters)
  (settled : settle signature placed.node parameter = .ok value)
include names known found selected declared settled

/-- What is passed for a parameter carries the text of the node in front that the parameter takes
its value from, or the literal of its own value. -/
private theorem carries_passed (distinct : (graph.nodes.map Node.id).Nodup)
    {source? : Option Placed}
    (supplies : ∀ source ∈ source?, graph.nodes[source.position]? = some source.node ∧
      source.node.kind.producesValue = true) :
    Carries catalogue graph placed.position
      (if parameter.type = .source then
        (source?.map fun source => valueText catalogue graph source.node).getD value.literal
      else value.literal)
      ((planWith catalogue graph).passed placed
        (Validation.resolve signature placed.node).values source? parameter) := by
  have own : Plan.valueOf (Validation.resolve signature placed.node).values parameter = value := by
    rw [Plan.valueOf, Validation.get?_resolve_values names declared settled]
    rfl
  have series := Validation.knownSeries_of_settle known settled
  have literal : Carries catalogue graph placed.position value.literal (.setting value) :=
    .of_unread (unread_setting series) (shown_setting series)
  simp only [Plan.passed, own, names_planWith]
  by_cases isSource : parameter.type = .source
  · simp only [if_pos isSource]
    cases source? with
    | none => exact literal
    | some source =>
      obtain ⟨there, produces⟩ := supplies source rfl
      obtain ⟨read, word, unread⟩ := read?_eq_valueText distinct catalogue there produces
      rw [Option.bind_some, read]
      exact .of_name word unread
  · simp only [if_neg isSource]
    by_cases passes : parameter.type.passesByInput = true
    · have tunable := isSome_inputFunction? passes
      obtain ⟨name, input⟩ := Option.isSome_iff_exists.1
        (Naming.isSome_inputAt?_bind found selected declared tunable)
      rw [if_pos passes, input]
      have word := isWord_of_all_isNameChar (Naming.all_isNameChar_of_inputAt? input)
      refine ⟨?_, fun other read => ?_, .inr (shown_name word)⟩
      · have default := default?_inputs names found selected declared tunable input
        rw [Option.map_some, Option.getD_some, inlinedText_name, default, own]
        rfl
      · rw [List.mem_singleton.1 read]
        exact not_foreign_of_inputAt? input
    · rw [if_neg passes]
      exact literal

end Passed

/-! ### Calls -/

/-- A call comes, with all inputs at their defaults, to the call of a function on the texts that
belong to the parameters of a node. -/
def Wires (catalogue : Catalogue) (graph : Graph) (node : Node) (signature : Signature)
    (function : String) (declarations : List Statement) (call : Call) : Prop :=
  ∃ texts : List String,
    (call.inlined declarations).render = function ++ "(" ++ ", ".intercalate texts ++ ")" ∧
      texts.length = signature.parameters.length ∧
      ∀ (index : Nat) (parameter : Parameter), signature.parameters[index]? = some parameter →
        ∃ value, settle signature node parameter = .ok value ∧
          texts[index]? = some (ownText (textsInFront catalogue graph node)
            (signature.parameters.take index) parameter value)

/-- The text of a signature has a name as one of its own words: the function of a call has it, or a
template has it besides what is put in, or a literal that is put into a template. -/
inductive Spells (arguments : List (String × Operand)) (binding : Binding) :
    Catalogue.Form → String → Prop
  | function {function name : String} :
      name ∈ wordsOf function.toList → Spells arguments binding (.call function) name
  | template {texts : List String} {text name : String} : text ∈ texts →
      name ∈ wordsOf (hollow text (placeholder? binding
        (arguments.map fun entry => (entry.1, entry.2.render)))).toList →
      Spells arguments binding (.templates texts) name
  | literal {texts : List String} {entry : String × Operand} {name : String} :
      entry ∈ arguments → IsLiteral entry.2 → name ∈ wordsOf entry.2.render.toList →
      Spells arguments binding (.templates texts) name

/-- How an indicator gets its values: a call is wired to the node's own parameters and the values in
front of the node, and nothing that is passed reads an input variable of another node.  Where the
placeholders of templates stand apart, a line reads such a variable only if the text of the signature
has its name; with the functions known from the start no line reads one. -/
structure Wired (catalogue : Catalogue) (options : Options) (graph : Graph) (placed : Placed)
    (signature : Signature) : Prop where
  call : ∀ function, signature.form = .call function → ∃ binding call,
    (Naming.bind catalogue graph).binding? placed.node.id = some binding ∧
      (planWith catalogue graph).calculationsOf placed =
        [.assign (targetOf binding) (.call call)] ∧
      .assign (targetOf binding) (.call call) ∈
        (Program.ofPlan options (planWith catalogue graph)).calculations ∧
      Wires catalogue graph placed.node signature function
        (Program.ofPlan options (planWith catalogue graph)).inputs call
  arguments : ∀ entry ∈ (planWith catalogue graph).argumentsOf placed signature,
    ∀ name ∈ entry.2.reads, ¬ Foreign (Naming.bind catalogue graph) placed.position name
  lines : ∃ binding, (Naming.bind catalogue graph).binding? placed.node.id = some binding ∧
    ((∀ texts, signature.form = .templates texts → ∀ text ∈ texts, StandsApart text) →
      ∀ statement ∈ (planWith catalogue graph).calculationsOf placed, ∀ name ∈ statement.reads,
        Foreign (Naming.bind catalogue graph) placed.position name →
          Spells ((planWith catalogue graph).argumentsOf placed signature) binding signature.form
            name)
  builtin : catalogue = Catalogue.builtin →
    ∀ statement ∈ (planWith catalogue graph).calculationsOf placed,
      ∀ name ∈ statement.reads, ¬ Foreign (Naming.bind catalogue graph) placed.position name

def callOf (catalogue : Catalogue) (graph : Graph) (placed : Placed) (signature : Signature)
    (function : String) : Call where
  function
  arguments := ((planWith catalogue graph).argumentsOf placed signature).map
    fun entry => { value := entry.2 }

section Bound

variable {placed : Placed} {signature : Signature} {binding : Binding}
  (selected : Naming.signatureOf? catalogue placed.node = some signature)
  (bound : (Naming.bind catalogue graph).bindingAt? placed.position = some binding)
include selected bound

private theorem calculationsOf_call {function : String} (form : signature.form = .call function) :
    (planWith catalogue graph).calculationsOf placed =
      [.assign (targetOf binding) (.call (callOf catalogue graph placed signature function))] := by
  simp only [Plan.calculationsOf, kind_of_signatureOf? selected, Plan.indicatorLines,
    catalogue_planWith, names_planWith, selected, bound, form, callOf]

private theorem calculationsOf_templates {texts : List String}
    (form : signature.form = .templates texts) :
    (planWith catalogue graph).calculationsOf placed =
      List.zipWith (fun text name => .assign (.single name)
        (.verbatim ((planWith catalogue graph).filled placed signature binding text)))
        texts binding.identifiers := by
  simp only [Plan.calculationsOf, kind_of_signatureOf? selected, Plan.indicatorLines,
    catalogue_planWith, names_planWith, selected, bound, form, Plan.filled]

end Bound

section Accepted

variable {placed : Placed} {signature : Signature}
  (distinct : (graph.nodes.map Node.id).Nodup)
  (found : graph.nodes[placed.position]? = some placed.node)
  (selected : Naming.signatureOf? catalogue placed.node = some signature)
  (clean : (Validation.resolve signature placed.node).errors = [])
  (names : (signature.parameters.map Parameter.name).Nodup)
  (series : ∀ parameter ∈ signature.parameters, KnownSeries parameter.default)
include distinct found selected clean names series

private theorem argumentsOf_spec {index : Nat} {parameter : Parameter}
    (declared : signature.parameters[index]? = some parameter) :
    ∃ value operand, settle signature placed.node parameter = .ok value ∧
      ((planWith catalogue graph).argumentsOf placed signature)[index]? =
        some (parameter.name, operand) ∧
      Carries catalogue graph placed.position
        (ownText (textsInFront catalogue graph placed.node) (signature.parameters.take index)
          parameter value) operand := by
  have member := List.mem_of_getElem? declared
  obtain ⟨value, settled⟩ := Validation.exists_settle clean member
  have supplies : ∀ source ∈ ((planWith catalogue graph).suppliers placed)[sourceCount
      (signature.parameters.take index)]?, graph.nodes[source.position]? = some source.node ∧
        source.node.kind.producesValue = true :=
    fun source taken => mem_suppliers_planWith (List.mem_of_getElem? taken)
  have carries := carries_passed names (series parameter member) found selected member settled
    distinct supplies
  rw [← List.getElem?_map, map_valueText_suppliers distinct found] at carries
  refine ⟨value, _, settled, ?_, carries⟩
  rw [Plan.argumentsOf, arguments_getElem?, declared, Option.map_some]

private theorem carries_of_mem_argumentsOf {entry : String × Operand}
    (member : entry ∈ (planWith catalogue graph).argumentsOf placed signature) :
    ∃ text, Carries catalogue graph placed.position text entry.2 := by
  obtain ⟨index, stands⟩ := List.getElem?_of_mem member
  have listed := stands
  rw [Plan.argumentsOf, arguments_getElem?] at listed
  obtain ⟨parameter, declared, -⟩ := Option.map_eq_some_iff.1 listed
  obtain ⟨value, operand, -, same, carries⟩ :=
    argumentsOf_spec distinct found selected clean names series declared
  obtain rfl := Option.some.inj (stands.symm.trans same)
  exact ⟨_, carries⟩

private theorem not_foreign_of_mem_argumentsOf {entry : String × Operand}
    (member : entry ∈ (planWith catalogue graph).argumentsOf placed signature) :
    ∀ name ∈ entry.2.reads, ¬ Foreign (Naming.bind catalogue graph) placed.position name := by
  obtain ⟨text, carries⟩ :=
    carries_of_mem_argumentsOf distinct found selected clean names series member
  exact carries.own

private theorem wires_callOf (function : String) :
    Wires catalogue graph placed.node signature function (planWith catalogue graph).inputs
      (callOf catalogue graph placed signature function) := by
  refine ⟨((planWith catalogue graph).argumentsOf placed signature).map fun entry =>
    inlinedText (planWith catalogue graph).inputs entry.2, ?_, ?_, ?_⟩
  · rw [Call.inlined, Call.rename, Call.render, callOf, List.map_map, List.map_map]
    rfl
  · have keys : ((planWith catalogue graph).argumentsOf placed signature).map Prod.fst =
        signature.parameters.map Parameter.name := arguments_names _ _ _ _ _
    simpa using congrArg List.length keys
  · intro index parameter declared
    obtain ⟨value, operand, settled, stands, carries⟩ :=
      argumentsOf_spec distinct found selected clean names series declared
    refine ⟨value, settled, ?_⟩
    rw [List.getElem?_map, stands, Option.map_some, carries.text]

/-- What is put in for a placeholder names no input of another node, unless it is a literal. -/
private theorem isLiteral_of_foreign {binding : Binding}
    (bound : (Naming.bind catalogue graph).bindingAt? placed.position = some binding)
    {key value name : String}
    (resolved : placeholder? binding (((planWith catalogue graph).argumentsOf placed signature).map
      fun entry => (entry.1, entry.2.render)) key = some value)
    (inside : name ∈ wordsOf value.toList)
    (foreign : Foreign (Naming.bind catalogue graph) placed.position name) :
    ∃ entry ∈ (planWith catalogue graph).argumentsOf placed signature,
      IsLiteral entry.2 ∧ name ∈ wordsOf entry.2.render.toList := by
  rcases placeholder?_cases resolved with output | ⟨entry, argument, rfl⟩
  · -- The node's own names are words, and no input variables.
    have word := isWord_of_mem_identifiers (mem_identifiers_of_bindingAt? bound output)
    obtain rfl := Script.eq_of_mem_wordsOf word inside
    exact absurd foreign.mem_inputVariables (bound_not_mem_inputVariables bound output)
  · obtain ⟨_, carries⟩ :=
      carries_of_mem_argumentsOf distinct found selected clean names series argument
    rcases carries.shown with literal | shown
    · exact ⟨entry, argument, literal, inside⟩
    · exact absurd foreign (carries.own name (shown name inside))

/-- A line reads an input of another node only if the text of the signature has its name. -/
private theorem spells_of_foreign {binding : Binding}
    (bound : (Naming.bind catalogue graph).bindingAt? placed.position = some binding)
    (apart : ∀ texts, signature.form = .templates texts → ∀ text ∈ texts, StandsApart text)
    {statement : Statement} (member : statement ∈ (planWith catalogue graph).calculationsOf placed)
    {name : String} (read : name ∈ statement.reads)
    (foreign : Foreign (Naming.bind catalogue graph) placed.position name) :
    Spells ((planWith catalogue graph).argumentsOf placed signature) binding signature.form
      name := by
  cases form : signature.form with
  | call function =>
    rw [calculationsOf_call selected bound form] at member
    obtain rfl := List.mem_singleton.1 member
    rcases List.mem_append.1 read with spelled | passed
    · exact .function spelled
    · obtain ⟨argument, inside, reads⟩ := List.mem_flatMap.1 passed
      obtain ⟨entry, listed, rfl⟩ := List.mem_map.1 inside
      exact absurd foreign (not_foreign_of_mem_argumentsOf distinct found selected clean names
        series listed name reads)
  | templates texts =>
    rw [calculationsOf_templates selected bound form, ← List.map_uncurry_zip_eq_zipWith] at member
    obtain ⟨⟨text, target⟩, pair, rfl⟩ := List.mem_map.1 member
    have listed := (List.of_mem_zip pair).1
    rcases Catalogue.Template.mem_wordsOf_fill (apart texts form text listed) read with
      spelled | ⟨key, value, resolved, inside⟩
    · exact .template listed spelled
    · obtain ⟨entry, argument, literal, shown⟩ := isLiteral_of_foreign distinct found selected clean
        names series bound resolved inside foreign
      exact .literal argument literal shown

end Accepted

/-! ### Lines -/

private theorem not_foreign_of_readable {placed : Placed} {name : String}
    (readable : Readable graph placed name) :
    ¬ Foreign (Naming.bind Catalogue.builtin graph) placed.position name := by
  cases readable with
  | fixed fixed =>
    intro foreign
    exact not_tracked_of_fixed fixed
      (.inl (mem_identifiers_of_mem_inputVariables foreign.mem_inputVariables))
  | input parameter input => exact not_foreign_of_inputAt? input
  | supplied source binding supplier bound own =>
    exact fun foreign => bound_not_mem_inputVariables bound own foreign.mem_inputVariables

private theorem not_foreign_of_mem_calculationsOf {placed : Placed}
    (valid : (validate Catalogue.builtin graph).errors = [])
    (found : graph.nodes[placed.position]? = some placed.node) {statement : Statement}
    (member : statement ∈ (planWith Catalogue.builtin graph).calculationsOf placed) :
    ∀ name ∈ statement.reads,
      ¬ Foreign (Naming.bind Catalogue.builtin graph) placed.position name := by
  intro name read
  have inOrder : Scoped (Readable graph placed)
      (((planWith Catalogue.builtin graph).calculationsOf placed).map Line.statement) :=
    (sound_calculationsOf found).inOrder
  obtain ⟨before, after, split⟩ :=
    List.append_of_mem (List.mem_map_of_mem (f := Line.statement) member)
  rw [split] at inOrder
  rcases inOrder.split read with readable | ⟨earlier, inside, assigns⟩
  · exact not_foreign_of_readable readable
  · -- The lines of a template read what the lines in front of them assign.
    have listed := List.mem_append_left (.statement statement :: after) inside
    rw [← split] at listed
    obtain ⟨other, own, rfl⟩ := List.mem_map.1 listed
    have bound : name ∈ boundAt (Naming.bind Catalogue.builtin graph) placed.position := by
      rw [← assigned_node valid templated_builtin found]
      exact List.mem_append_left _ (List.mem_flatMap.2 ⟨other, own, assigns⟩)
    unfold boundAt at bound
    cases binding : (Naming.bind Catalogue.builtin graph).bindingAt? placed.position with
    | none => simp [binding] at bound
    | some outputs =>
      rw [binding] at bound
      exact fun foreign => bound_not_mem_inputVariables binding bound foreign.mem_inputVariables

/-- With parameters of different names whose sources are price series by default, every indicator of
a graph without errors is wired to its own parameters and to the values in front of it. -/
theorem wiring_faithful (options : Options) (catalogue : Catalogue) (graph : Graph)
    (names : ∀ signature ∈ catalogue.signatures,
      (signature.parameters.map Parameter.name).Nodup)
    (series : ∀ signature ∈ catalogue.signatures, ∀ parameter ∈ signature.parameters,
      KnownSeries parameter.default)
    (valid : (validate catalogue graph).errors = []) :
    ((compile catalogue options graph).success = true →
      (compile catalogue options graph).code =
        (Program.ofPlan options (planWith catalogue graph)).render) ∧
    ∀ placed : Placed, graph.nodes[placed.position]? = some placed.node →
      placed.node.kind = .indicator →
        ∃ signature, Naming.signatureOf? catalogue placed.node = some signature ∧
          Wired catalogue options graph placed signature := by
  refine ⟨code_of_success options valid, fun placed found kind => ?_⟩
  have distinct := (validate_errors_eq_nil_iff.1 valid).distinct
  have accepted := (validate_errors_eq_nil_iff.1 valid).nodes placed.node
    (List.mem_of_getElem? found)
  rw [Validation.NodeAccepted, kind] at accepted
  obtain ⟨signature, selected, clean⟩ := signatureOf?_of_accepted kind accepted
  have member := mem_signatures_of_signatureOf? selected
  have own : ∀ entry ∈ (planWith catalogue graph).argumentsOf placed signature,
      ∀ name ∈ entry.2.reads, ¬ Foreign (Naming.bind catalogue graph) placed.position name :=
    fun entry => not_foreign_of_mem_argumentsOf distinct found selected clean
      (names signature member) (series signature member)
  obtain ⟨earlier, bound⟩ := exists_binding found (namedOutputs?_of_signatureOf? selected)
  have bindingOf := (binding?_bind distinct found).trans bound
  refine ⟨signature, selected, ⟨fun function form => ?_, own, ⟨_, bindingOf, ?_⟩, ?_⟩⟩
  · have lines := calculationsOf_call selected bound form
    refine ⟨_, _, bindingOf, lines, ?_, ?_⟩
    · refine List.mem_flatMap.2 ⟨placed, Naming.mem_namingOrder.2 found, ?_⟩
      rw [lines]
      exact List.mem_singleton_self _
    · exact wires_callOf distinct found selected clean (names signature member)
        (series signature member) function
  · intro apart statement inside name
    exact spells_of_foreign distinct found selected clean (names signature member)
      (series signature member) bound apart inside
  · intro builtin statement inside
    rw [builtin] at valid inside ⊢
    exact not_foreign_of_mem_calculationsOf valid found inside

theorem wiring_faithful_averageCrossing :
    (∀ signature ∈ Catalogue.builtin.signatures,
        (signature.parameters.map Parameter.name).Nodup) ∧
      (∀ signature ∈ Catalogue.builtin.signatures, ∀ parameter ∈ signature.parameters,
        KnownSeries parameter.default) ∧
      (validate Catalogue.builtin averageCrossing).errors = [] ∧
      ∃ signature, Naming.signatureOf? Catalogue.builtin averageCrossing.nodes[4] =
          some signature ∧
        signature.form = .call "ta.sma" ∧
        Wired Catalogue.builtin {} averageCrossing ⟨4, averageCrossing.nodes[4]⟩ signature := by
  have names : ∀ signature ∈ Catalogue.builtin.signatures,
      (signature.parameters.map Parameter.name).Nodup :=
    fun signature member => (regular_builtin signature member).parameters
  have series : ∀ signature ∈ Catalogue.builtin.signatures,
      ∀ parameter ∈ signature.parameters, KnownSeries parameter.default :=
    fun signature member parameter =>
      knownSeries_default (Catalogue.isKnown_builtin signature member)
  obtain ⟨signature, selected, wired⟩ :=
    (wiring_faithful {} Catalogue.builtin averageCrossing names series valid_averageCrossing).2
      ⟨4, averageCrossing.nodes[4]⟩ rfl rfl
  have form : (Naming.signatureOf? Catalogue.builtin averageCrossing.nodes[4]).map
      Signature.form = some (.call "ta.sma") := by decide +kernel
  refine ⟨names, series, valid_averageCrossing, signature, selected, ?_, wired⟩
  rw [selected] at form
  exact Option.some.inj form

/-! ### Templates that have a name of their own -/

def lengthSignature (name : String) (form : Catalogue.Form) : Signature :=
  { Signature.ofForm name .trend form with
    parameters := [Parameter.ofDefault "length" (.int 14)] }

/-- A call, and two templates.  One of them has the input variable of the call in its text, and the
other one makes it from its own input variable and a letter. -/
def namesakes : Catalogue :=
  ((Catalogue.empty.register (lengthSignature "own" (.call "own.trend"))).register
    (lengthSignature "twice" (.templates ["own_length * 2"]))).register
    (lengthSignature "wn" (.templates ["o" ++ Catalogue.Template.braced "length" ++ " * 2"]))

def namesakeNode (id indicator : String) : Node where
  id
  kind := .indicator
  label := ""
  config := [("indicatorId", .string indicator)]

def namesakeGraph : Graph where
  nodes :=
    [ { id := "price", kind := .dataSource, label := "" }, namesakeNode "trend" "own",
      namesakeNode "double" "twice", namesakeNode "joined" "wn" ]

/-- A template that has the input variable of another node in its text reads it, and so does one
that makes its name from what is put in. -/
theorem reads_foreign_namesakes :
    (∀ signature ∈ namesakes.signatures, (signature.parameters.map Parameter.name).Nodup) ∧
      (∀ signature ∈ namesakes.signatures, ∀ parameter ∈ signature.parameters,
        KnownSeries parameter.default) ∧
      (validate namesakes namesakeGraph).errors = [] ∧
      (∃ statement ∈ (planWith namesakes namesakeGraph).calculationsOf
          ⟨2, namesakeNode "double" "twice"⟩, ∃ name ∈ statement.reads,
        Foreign (Naming.bind namesakes namesakeGraph) 2 name) ∧
      ∃ statement ∈ (planWith namesakes namesakeGraph).calculationsOf
          ⟨3, namesakeNode "joined" "wn"⟩, ∃ name ∈ statement.reads,
        Foreign (Naming.bind namesakes namesakeGraph) 3 name := by
  have each : ∀ signature ∈ namesakes.signatures,
      (signature.parameters.map Parameter.name).Nodup ∧
        ∀ parameter ∈ signature.parameters, parameter.default = .int 14 := by
    decide +kernel
  have input : "own_length" ∈
      (inputsAt (Naming.bind namesakes namesakeGraph) 1).map Input.name := by
    decide +kernel
  have reads : ∀ placed ∈ [(⟨2, namesakeNode "double" "twice"⟩ : Placed),
      ⟨3, namesakeNode "joined" "wn"⟩],
      "own_length" ∈
        ((planWith namesakes namesakeGraph).calculationsOf placed).flatMap Statement.reads := by
    decide +kernel
  obtain ⟨double, inside, read⟩ := List.mem_flatMap.1 (reads _ List.mem_cons_self)
  obtain ⟨joined, listed, also⟩ := List.mem_flatMap.1 (reads _ (.tail _ (.head _)))
  refine ⟨fun signature member => (each signature member).1, fun signature member => ?_,
    by decide +kernel, ⟨double, inside, _, read, 1, by decide, input⟩,
    joined, listed, _, also, 1, by decide, input⟩
  intro parameter declared series same
  rw [(each signature member).2 parameter declared] at same
  exact absurd same (by simp)

end StrategyCompiler.Compilation
