import StrategyCompiler.Compilation.Program
import StrategyCompiler.Proofs.Catalogue.Builtin
import StrategyCompiler.Proofs.Catalogue.Template
import StrategyCompiler.Proofs.Naming.Table
import StrategyCompiler.Proofs.Script.Render
/-!
What nodes read.  With the functions known from the start, a node reads words of the script
language, the inputs of its own parameters, and names that are bound to the nodes in front of it.
-/

set_option autoImplicit false

namespace StrategyCompiler.Compilation

open Catalogue (Parameter Setting Settings Signature)
open Catalogue.SettingType (passesByInput)
open StrategyCompiler.Graph (Index Node Placed)
open Script (Clean CleanWords Expr Operand Statement isFixed isWord)
open Validation (KnownSeries)

def planWith (catalogue : Catalogue) (graph : Graph) : Plan := .ofIndex catalogue (.ofGraph graph)

theorem catalogue_planWith (catalogue : Catalogue) (graph : Graph) :
    (planWith catalogue graph).catalogue = catalogue := by
  rw [planWith, Plan.ofIndex]

theorem names_planWith (catalogue : Catalogue) (graph : Graph) :
    (planWith catalogue graph).names = Naming.bind catalogue graph := rfl

def planOf (graph : Graph) : Plan := .ofIndex Catalogue.builtin (.ofGraph graph)

variable {graph : Graph}

theorem catalogue_planOf : (planOf graph).catalogue = Catalogue.builtin := by
  rw [planOf, Plan.ofIndex]

theorem names_planOf : (planOf graph).names = Naming.bind Catalogue.builtin graph := rfl

theorem mem_order_planOf {placed : Placed} :
    placed ∈ (planOf graph).order ↔ graph.nodes[placed.position]? = some placed.node :=
  Naming.mem_namingOrder

theorem mem_suppliers_planWith {catalogue : Catalogue} {source placed : Placed}
    (supplier : source ∈ (planWith catalogue graph).suppliers placed) :
    graph.nodes[source.position]? = some source.node ∧
      source.node.kind.producesValue = true := by
  obtain ⟨member, produces⟩ := List.mem_filter.1 supplier
  obtain ⟨-, found⟩ := Index.mem_placed.1 member
  rw [planWith, Plan.ofIndex, Index.node?_ofGraph] at found
  exact ⟨found, produces⟩

theorem mem_suppliers {source placed : Placed}
    (supplier : source ∈ (planOf graph).suppliers placed) :
    graph.nodes[source.position]? = some source.node ∧
      source.node.kind.producesValue = true :=
  mem_suppliers_planWith supplier

theorem mem_indicators_planWith {catalogue : Catalogue} {placed : Placed}
    {signature : Signature} :
    (placed, signature) ∈ (planWith catalogue graph).indicators ↔
      graph.nodes[placed.position]? = some placed.node ∧
        Naming.signatureOf? catalogue placed.node = some signature := by
  rw [Plan.indicators, List.mem_filterMap, catalogue_planWith]
  constructor
  · rintro ⟨other, member, found⟩
    obtain ⟨own, selected, same⟩ := Option.map_eq_some_iff.1 found
    obtain ⟨rfl, rfl⟩ := Prod.mk.inj same
    exact ⟨Naming.mem_namingOrder.1 member, selected⟩
  · rintro ⟨found, selected⟩
    exact ⟨placed, Naming.mem_namingOrder.2 found, by rw [selected]; rfl⟩

theorem mem_inputs_iff {catalogue : Catalogue} {statement : Statement} :
    statement ∈ (planWith catalogue graph).inputs ↔
      ∃ (placed : Placed) (signature : Signature),
        graph.nodes[placed.position]? = some placed.node ∧
        Naming.signatureOf? catalogue placed.node = some signature ∧
        ∃ parameter ∈ signature.parameters, ∃ name,
          (Naming.bind catalogue graph).inputAt? placed.position parameter.name = some name ∧
          inputDeclaration? name (Plan.displayLabel placed.node signature) parameter
            (Plan.valueOf (Validation.resolve signature placed.node).values parameter) =
              some statement := by
  constructor
  · intro member
    obtain ⟨⟨placed, signature⟩, indicator, inside⟩ := List.mem_flatMap.1 member
    obtain ⟨found, selected⟩ := mem_indicators_planWith.1 indicator
    obtain ⟨parameter, declared, bound⟩ := List.mem_filterMap.1 inside
    obtain ⟨name, input, declaration⟩ := Option.bind_eq_some_iff.1 bound
    exact ⟨placed, signature, found, selected, parameter, declared, name, input, declaration⟩
  · rintro ⟨placed, signature, found, selected, parameter, declared, name, input, declaration⟩
    refine List.mem_flatMap.2 ⟨_, mem_indicators_planWith.2 ⟨found, selected⟩, ?_⟩
    refine List.mem_filterMap.2 ⟨parameter, declared, ?_⟩
    exact Option.bind_eq_some_iff.2 ⟨name, input, declaration⟩

/-- A name that a node can read. -/
inductive Readable (graph : Graph) (placed : Placed) (name : String) : Prop
  | fixed (fixed : isFixed name = true)
  | input (parameter : String)
      (found : (planOf graph).names.inputAt? placed.position parameter = some name)
  | supplied (source : Placed) (binding : Naming.Binding)
      (supplier : source ∈ (planOf graph).suppliers placed)
      (bound : (planOf graph).names.bindingAt? source.position = some binding)
      (member : name ∈ binding.identifiers)

/-! ### Names are words -/

private theorem isWordChar_of_isNameChar {c : Char} (name : Naming.isNameChar c = true) :
    Script.isWordChar c = true := by
  simp only [Naming.isNameChar, Bool.or_eq_true] at name
  rcases name with (lower | digit) | underscore
  · simp [Script.isWordChar, Naming.isAlphanum_of_isLower lower]
  · simp [Script.isWordChar, Naming.isAlphanum_of_isDigit digit]
  · simp [Script.isWordChar, underscore]

theorem isWord_of_all_isNameChar {name : String}
    (names : name.toList.all Naming.isNameChar = true) : isWord name = true :=
  List.all_eq_true.2 fun c member => isWordChar_of_isNameChar (List.all_eq_true.1 names c member)

theorem isWord_of_bindingAt? {position : Nat} {binding : Naming.Binding} {name : String}
    (bound : (planOf graph).names.bindingAt? position = some binding)
    (member : name ∈ binding.identifiers) : isWord name = true :=
  isWord_of_all_isNameChar (Naming.all_isNameChar_of_isIdentifier
    (Naming.isIdentifier_of_bindingAt? bound member))

theorem isWord_of_inputAt? {position : Nat} {parameter name : String}
    (found : (planOf graph).names.inputAt? position parameter = some name) :
    isWord name = true :=
  isWord_of_all_isNameChar (Naming.all_isNameChar_of_inputAt? found)

theorem Readable.isWord {placed : Placed} {name : String}
    (readable : Readable graph placed name) : isWord name = true := by
  cases readable with
  | fixed fixed => exact Script.isWord_of_isFixed fixed
  | input parameter found => exact isWord_of_inputAt? found
  | supplied source binding supplier bound member => exact isWord_of_bindingAt? bound member

theorem primary_mem_of_bindingAt? {position : Nat} {binding : Naming.Binding}
    (bound : (planOf graph).names.bindingAt? position = some binding) :
    binding.primary ∈ binding.identifiers := by
  obtain ⟨node, -, outputs, -, earlier, rfl⟩ := Naming.bindingAt?_bind bound
  exact Naming.primary_mem_identifiers _ _ _

private theorem output_mem_of_bindingAt? {position : Nat} {binding : Naming.Binding}
    (bound : (planOf graph).names.bindingAt? position = some binding) (output : Option String) :
    (output.bind binding.output?).getD binding.primary ∈ binding.identifiers := by
  cases found : output.bind binding.output? with
  | none => exact primary_mem_of_bindingAt? bound
  | some name =>
    obtain ⟨suffix, -, selected⟩ := Option.bind_eq_some_iff.1 found
    exact Naming.mem_identifiers_of_output? selected

/-! ### Operands -/

private theorem isFixed_of_mem_priceSeries {series : String}
    (member : series ∈ Script.priceSeries) :
    isFixed series = true := by
  have all : Script.priceSeries.all isFixed = true := by decide
  exact List.all_eq_true.1 all series member

theorem seriesOf_mem (node : Node) : Plan.seriesOf node ∈ Script.priceSeries := by
  unfold Plan.seriesOf
  split
  · split
    · rename_i known
      exact List.contains_iff_mem.1 known
    · decide
  · decide

theorem Readable.series {placed : Placed} (node : Node) :
    Readable graph placed (Plan.seriesOf node) :=
  .fixed (isFixed_of_mem_priceSeries (seriesOf_mem node))

theorem read?_eq_some {placed source : Placed} {output : Option String} {expr : Expr}
    (supplier : source ∈ (planOf graph).suppliers placed)
    (found : (planOf graph).read? source output = some expr) :
    ∃ name, expr = .name name ∧ Readable graph placed name := by
  unfold Plan.read? at found
  split at found
  · rename_i binding _ bound
    exact ⟨_, (Option.some.inj found).symm,
      .supplied source binding supplier bound (primary_mem_of_bindingAt? bound)⟩
  · exact ⟨_, (Option.some.inj found).symm, .series source.node⟩
  · rename_i binding _ bound
    exact ⟨_, (Option.some.inj found).symm,
      .supplied source binding supplier bound (output_mem_of_bindingAt? bound output)⟩
  · rename_i binding _ bound
    exact ⟨_, (Option.some.inj found).symm,
      .supplied source binding supplier bound (output_mem_of_bindingAt? bound output)⟩
  · exact absurd found (by simp)

/-! ### Arguments -/

def sourceCount (parameters : List Parameter) : Nat :=
  parameters.countP fun parameter => parameter.type == .source

/-- What is passed for a parameter, to a source the value of a node if there is one. -/
def Plan.passed (plan : Plan) (placed : Placed) (values : Settings) (source? : Option Placed)
    (parameter : Parameter) : Operand :=
  let literal : Operand := .setting (valueOf values parameter)
  if parameter.type = .source then
    ((source?.bind fun source => plan.read? source none).map Operand.expr).getD literal
  else if parameter.type.passesByInput then
    ((plan.names.inputAt? placed.position parameter.name).map
      fun name => Operand.expr (.name name)).getD literal
  else literal

theorem arguments_cons (plan : Plan) (placed : Placed) (values : Settings)
    (sources : List Placed) (parameter : Parameter) (rest : List Parameter) :
    plan.arguments placed values sources (parameter :: rest) =
      (parameter.name, plan.passed placed values sources[0]? parameter) ::
        plan.arguments placed values
          (if parameter.type = .source then sources.tail else sources) rest := by
  conv_lhs => unfold Plan.arguments
  dsimp only
  split
  · rename_i source later isSource
    simp [Plan.passed, isSource]
  · rename_i own _ _ untaken
    by_cases isSource : parameter.type = .source
    · cases own with
      | nil => simp [Plan.passed, isSource, passesByInput]
      | cons source later => exact absurd rfl (untaken source later isSource)
    · simp only [Plan.passed, if_neg isSource]

private theorem sourceCount_cons (parameter : Parameter) (rest : List Parameter) :
    sourceCount (parameter :: rest) =
      if parameter.type = .source then sourceCount rest + 1 else sourceCount rest := by
  rw [sourceCount, List.countP_cons]
  split <;> simp_all [sourceCount]

/-- The argument for a parameter is what is passed for it, and each source takes the value that is
left for it by the sources among the parameters in front of it. -/
theorem arguments_getElem? (plan : Plan) (placed : Placed) (values : Settings)
    (sources : List Placed) (parameters : List Parameter) (index : Nat) :
    (plan.arguments placed values sources parameters)[index]? =
      parameters[index]?.map fun parameter =>
        (parameter.name, plan.passed placed values
          sources[sourceCount (parameters.take index)]? parameter) := by
  induction parameters generalizing sources index with
  | nil => rfl
  | cons parameter rest ih =>
    rw [arguments_cons]
    cases index with
    | zero => rfl
    | succ index =>
      rw [List.getElem?_cons_succ, List.getElem?_cons_succ, ih, List.take_succ_cons,
        sourceCount_cons]
      split
      · rw [List.getElem?_tail]
      · rfl

/-- A source is passed the value of a node, another parameter its input; where there is none, the
value of the parameter is written out. -/
theorem passed_cases (plan : Plan) (placed : Placed) (values : Settings)
    (source? : Option Placed) (parameter : Parameter) :
    (∃ source ∈ source?, ∃ expr, parameter.type = .source ∧
        plan.read? source none = some expr ∧
        plan.passed placed values source? parameter = .expr expr) ∨
      (∃ name, parameter.type.passesByInput = true ∧
        plan.names.inputAt? placed.position parameter.name = some name ∧
        plan.passed placed values source? parameter = .expr (.name name)) ∨
      (parameter.type = .source → (source?.bind fun source => plan.read? source none) = none) ∧
        (parameter.type.passesByInput = true →
          plan.names.inputAt? placed.position parameter.name = none) ∧
        plan.passed placed values source? parameter = .setting (Plan.valueOf values parameter) := by
  unfold Plan.passed
  dsimp only
  split
  · rename_i isSource
    have kept : parameter.type.passesByInput ≠ true := by simp [isSource, passesByInput]
    cases read : source?.bind fun source => plan.read? source none with
    | none => exact .inr (.inr ⟨fun _ => rfl, fun passes => absurd passes kept, rfl⟩)
    | some expr =>
      obtain ⟨source, taken, reads⟩ := Option.bind_eq_some_iff.1 read
      exact .inl ⟨source, taken, expr, isSource, reads, rfl⟩
  · rename_i other
    split
    · rename_i passes
      cases found : plan.names.inputAt? placed.position parameter.name with
      | none => exact .inr (.inr ⟨fun isSource => absurd isSource other, fun _ => rfl, rfl⟩)
      | some name => exact .inr (.inl ⟨name, passes, rfl, rfl⟩)
    · rename_i kept
      exact .inr (.inr ⟨fun isSource => absurd isSource other, fun passes => absurd passes kept,
        rfl⟩)

theorem exists_passed_of_mem {plan : Plan} {placed : Placed} {values : Settings}
    {sources : List Placed} {parameters : List Parameter} {entry : String × Operand}
    (member : entry ∈ plan.arguments placed values sources parameters) :
    ∃ parameter ∈ parameters, ∃ source?, (∀ source ∈ source?, source ∈ sources) ∧
      entry = (parameter.name, plan.passed placed values source? parameter) := by
  obtain ⟨index, stands⟩ := List.getElem?_of_mem member
  rw [arguments_getElem?] at stands
  obtain ⟨parameter, declared, same⟩ := Option.map_eq_some_iff.1 stands
  exact ⟨parameter, List.mem_of_getElem? declared, _, fun _ taken => List.mem_of_getElem? taken,
    same.symm⟩

/-- What an indicator passes for a parameter: a value in front of it, an input, or a literal when
there is no input that could be passed. -/
inductive Passed (graph : Graph) (placed : Placed) (values : Settings) (parameter : Parameter) :
    Operand → Prop
  | name {name : String} (readable : Readable graph placed name) :
      Passed graph placed values parameter (.expr (.name name))
  | literal
      (noInput : parameter.type.passesByInput = true →
        (planOf graph).names.inputAt? placed.position parameter.name = none) :
      Passed graph placed values parameter (.setting (Plan.valueOf values parameter))

theorem mem_arguments {placed : Placed} {values : Settings} {sources : List Placed}
    {parameters : List Parameter} {entry : String × Operand}
    (suppliers : ∀ source ∈ sources, source ∈ (planOf graph).suppliers placed)
    (member : entry ∈ (planOf graph).arguments placed values sources parameters) :
    ∃ parameter ∈ parameters, entry.1 = parameter.name ∧
      Passed graph placed values parameter entry.2 := by
  obtain ⟨parameter, declared, source?, among, rfl⟩ := exists_passed_of_mem member
  refine ⟨parameter, declared, rfl, ?_⟩
  dsimp only
  rcases passed_cases (planOf graph) placed values source? parameter with
    ⟨source, taken, expr, -, read, passed⟩ | ⟨name, -, found, passed⟩ | ⟨-, noInput, passed⟩
  · obtain ⟨name, rfl, readable⟩ := read?_eq_some (suppliers source (among source taken)) read
    exact passed ▸ .name readable
  · exact passed ▸ .name (.input parameter.name found)
  · exact passed ▸ .literal noInput

/-! ### Values -/

theorem knownSeries_default {signature : Signature} (known : Catalogue.isKnown signature = true)
    {parameter : Parameter} (member : parameter ∈ signature.parameters) :
    KnownSeries parameter.default :=
  Catalogue.knownSeries_of_hasKnownDefault (Catalogue.hasKnownDefault_of_isKnown known member)

theorem knownSeries_valueOf {signature : Signature} (known : Catalogue.isKnown signature = true)
    (node : Node) {parameter : Parameter} (member : parameter ∈ signature.parameters) :
    KnownSeries (Plan.valueOf (Validation.resolve signature node).values parameter) := by
  unfold Plan.valueOf
  cases found : (Validation.resolve signature node).values.get? parameter.name with
  | none => exact knownSeries_default known member
  | some value =>
    obtain ⟨entry, selected, rfl⟩ := Option.map_eq_some_iff.1 found
    obtain ⟨other, inside, -, settled⟩ :=
      Validation.mem_resolve_values (List.mem_of_find?_eq_some selected)
    exact Validation.knownSeries_of_settle (knownSeries_default known inside) settled

theorem reads_setting {setting : Setting} (known : KnownSeries setting) {name : String}
    (member : name ∈ (Operand.setting setting).reads) : isFixed name = true := by
  cases setting with
  | source series =>
    obtain rfl := List.mem_singleton.1 member
    exact isFixed_of_mem_priceSeries (known _ rfl)
  | int | float | bool | string => exact absurd member List.not_mem_nil

theorem Passed.reads {signature : Signature} (known : Catalogue.isKnown signature = true)
    {placed : Placed} {parameter : Parameter} (member : parameter ∈ signature.parameters)
    {operand : Operand}
    (passed : Passed graph placed (Validation.resolve signature placed.node).values parameter
      operand) :
    operand.functions = [] ∧ ∀ name ∈ operand.reads, Readable graph placed name := by
  cases passed with
  | name readable =>
    refine ⟨rfl, fun other member => ?_⟩
    rwa [List.mem_singleton.1 member]
  | literal noInput =>
    refine ⟨rfl, fun name read => .fixed ?_⟩
    exact reads_setting (knownSeries_valueOf known placed.node member) read

/-! ### The stochastic oscillator -/

theorem arguments_names (plan : Plan) (placed : Placed) (values : Settings)
    (sources : List Placed) (parameters : List Parameter) :
    (plan.arguments placed values sources parameters).map Prod.fst =
      parameters.map Parameter.name := by
  induction parameters generalizing sources with
  | nil => rfl
  | cons parameter rest ih => rw [arguments_cons, List.map_cons, ih, List.map_cons]

/-- The names and types of the parameters of the stochastic oscillator. -/
def stochasticParameters : List (String × Catalogue.SettingType) :=
  [("source", .source), ("kLength", .int), ("kSmoothing", .int), ("dSmoothing", .int)]

private theorem eq_of_mem_stochasticParameters {key : String} {first second : Catalogue.SettingType}
    (left : (key, first) ∈ stochasticParameters) (right : (key, second) ∈ stochasticParameters) :
    first = second := by
  simp only [stochasticParameters, List.mem_cons, Prod.mk.injEq, List.not_mem_nil, or_false] at left
  rcases left with ⟨rfl, rfl⟩ | ⟨rfl, rfl⟩ | ⟨rfl, rfl⟩ | ⟨rfl, rfl⟩ <;>
  · simpa [stochasticParameters, eq_comm] using right

private theorem type_of_mem_stochasticParameters {key : String} {type : Catalogue.SettingType}
    (member : (key, type) ∈ stochasticParameters) : type = .source ∨ type = .int := by
  simp only [stochasticParameters, List.mem_cons, Prod.mk.injEq, List.not_mem_nil,
    or_false] at member
  tauto

section Stochastic

variable {placed : Placed} {signature : Signature}

private theorem mem_stochasticParameters
    (parameters : signature.parameters.map (fun parameter => (parameter.name, parameter.type)) =
      stochasticParameters) {parameter : Parameter} (member : parameter ∈ signature.parameters) :
    (parameter.name, parameter.type) ∈ stochasticParameters :=
  parameters ▸ List.mem_map_of_mem member

private theorem valueOf_stochastic (node : Node) (known : Catalogue.isKnown signature = true)
    (parameters : signature.parameters.map (fun parameter => (parameter.name, parameter.type)) =
      stochasticParameters) {parameter : Parameter} (member : parameter ∈ signature.parameters) :
    (Plan.valueOf (Validation.resolve signature node).values parameter).type = parameter.type := by
  have typed {other : Parameter} (inside : other ∈ signature.parameters) :
      other.default.type = other.type :=
    Catalogue.type_of_hasKnownDefault (Catalogue.hasKnownDefault_of_isKnown known inside)
  unfold Plan.valueOf
  cases found : (Validation.resolve signature node).values.get? parameter.name with
  | none => exact typed member
  | some value =>
    obtain ⟨entry, selected, rfl⟩ := Option.map_eq_some_iff.1 found
    obtain ⟨other, inside, named, settled⟩ :=
      Validation.mem_resolve_values (List.mem_of_find?_eq_some selected)
    have same : entry.1 = parameter.name := by simpa using List.find?_some selected
    have own := mem_stochasticParameters parameters member
    have others := mem_stochasticParameters parameters inside
    rw [← named, same] at others
    rw [Option.getD_some, Validation.type_of_settle (typed inside) settled]
    exact eq_of_mem_stochasticParameters others own

private theorem readable_render (known : Catalogue.isKnown signature = true)
    (found : graph.nodes[placed.position]? = some placed.node)
    (selected : Naming.signatureOf? Catalogue.builtin placed.node = some signature)
    (parameters : signature.parameters.map (fun parameter => (parameter.name, parameter.type)) =
      stochasticParameters) {parameter : Parameter} (declared : parameter ∈ signature.parameters)
    {operand : Operand}
    (passed : Passed graph placed (Validation.resolve signature placed.node).values parameter
      operand) :
    Readable graph placed operand.render := by
  cases passed with
  | name readable => exact readable
  | literal noInput =>
    have typed := valueOf_stochastic placed.node known parameters declared
    have series := knownSeries_valueOf known placed.node declared
    rcases type_of_mem_stochasticParameters
      (mem_stochasticParameters parameters declared) with isSource | isInt
    · rw [isSource] at typed
      generalize Plan.valueOf (Validation.resolve signature placed.node).values parameter = value
        at typed series
      cases value with
      | source name => exact .fixed (isFixed_of_mem_priceSeries (series name rfl))
      | int | float | bool | string => exact absurd typed (by simp [Setting.type])
    · have absent := noInput (by rw [isInt]; rfl)
      have present := Naming.isSome_inputAt?_bind found selected declared (by rw [isInt]; rfl)
      rw [← names_planOf, absent] at present
      exact absurd present (by decide)

private theorem mem_keys_stochastic
    (parameters : signature.parameters.map (fun parameter => (parameter.name, parameter.type)) =
      stochasticParameters) {key : String} {type : Catalogue.SettingType}
    (member : (key, type) ∈ stochasticParameters) :
    key ∈ ((planOf graph).argumentsOf placed signature).map Prod.fst := by
  have names : signature.parameters.map Parameter.name = stochasticParameters.map Prod.fst := by
    rw [← parameters, List.map_map]
    rfl
  rw [Plan.argumentsOf, arguments_names, names]
  exact List.mem_map_of_mem member

theorem placeholder_argument
    (parameters : signature.parameters.map (fun parameter => (parameter.name, parameter.type)) =
      stochasticParameters) (binding : Naming.Binding) (key : String)
    {type : Catalogue.SettingType} (member : (key, type) ∈ stochasticParameters) :
    ∃ entry ∈ (planOf graph).argumentsOf placed signature,
      placeholder? binding (((planOf graph).argumentsOf placed signature).map fun entry =>
        (entry.1, entry.2.render)) key = some entry.2.render := by
  have plain : ("out:".toList.isPrefixOf key.toList) = false := by
    simp only [stochasticParameters, List.mem_cons, Prod.mk.injEq, List.not_mem_nil,
      or_false] at member
    rcases member with ⟨rfl, -⟩ | ⟨rfl, -⟩ | ⟨rfl, -⟩ | ⟨rfl, -⟩ <;> decide
  obtain ⟨entry, inside, same⟩ := List.mem_map.1 (mem_keys_stochastic parameters member)
  unfold placeholder?
  rw [plain]
  cases looked : (((planOf graph).argumentsOf placed signature).map fun entry =>
      (entry.1, entry.2.render)).find? fun entry => entry.1 == key with
  | none =>
    have absent := List.find?_eq_none.1 looked (entry.1, entry.2.render)
      (List.mem_map.2 ⟨entry, inside, rfl⟩)
    exact absurd (beq_iff_eq.2 same) absent
  | some rendered =>
    obtain ⟨entry, inside, rfl⟩ := List.mem_map.1 (List.mem_of_find?_eq_some looked)
    exact ⟨entry, inside, rfl⟩

private theorem placeholder_stochastic (known : Catalogue.isKnown signature = true)
    (found : graph.nodes[placed.position]? = some placed.node)
    (selected : Naming.signatureOf? Catalogue.builtin placed.node = some signature)
    (parameters : signature.parameters.map (fun parameter => (parameter.name, parameter.type)) =
      stochasticParameters) (binding : Naming.Binding) (key : String)
    {type : Catalogue.SettingType} (member : (key, type) ∈ stochasticParameters) :
    ∃ name, placeholder? binding
        (((planOf graph).argumentsOf placed signature).map fun entry =>
          (entry.1, entry.2.render)) key = some name ∧
      Readable graph placed name := by
  obtain ⟨entry, inside, stands⟩ := placeholder_argument parameters binding key member
  obtain ⟨parameter, declared, named, passed⟩ := mem_arguments (fun _ supplies => supplies) inside
  exact ⟨entry.2.render, stands,
    readable_render known found selected parameters declared passed⟩

end Stochastic

/-! ### The lines of an indicator -/

theorem targetOf_names (binding : Naming.Binding) :
    (targetOf binding).names = binding.identifiers := by
  cases binding <;> rfl

theorem kind_of_signatureOf? {catalogue : Catalogue} {node : Node} {signature : Signature}
    (selected : Naming.signatureOf? catalogue node = some signature) : node.kind = .indicator := by
  by_contra other
  simp [Naming.signatureOf?, other] at selected

theorem namedOutputs?_of_signatureOf? {catalogue : Catalogue} {node : Node} {signature : Signature}
    (selected : Naming.signatureOf? catalogue node = some signature) :
    Naming.namedOutputs? catalogue node = some signature.outputs.names := by
  simp [Naming.namedOutputs?, kind_of_signatureOf? selected, selected]

theorem isKnown_of_signatureOf? {node : Node} {signature : Signature}
    (selected : Naming.signatureOf? Catalogue.builtin node = some signature) :
    Catalogue.isKnown signature = true := by
  unfold Naming.signatureOf? at selected
  split at selected
  · obtain ⟨id, -, looked⟩ := Option.bind_eq_some_iff.1 selected
    exact Catalogue.isKnown_of_lookup? looked
  · exact absurd selected (by simp)

theorem bindingAt?_pair {placed : Placed} {signature : Signature} {binding : Naming.Binding}
    {first second : String} (found : graph.nodes[placed.position]? = some placed.node)
    (selected : Naming.signatureOf? Catalogue.builtin placed.node = some signature)
    (outputs : signature.outputs = .tuple [first, second])
    (bound : (planOf graph).names.bindingAt? placed.position = some binding) :
    ∃ name other, binding = .tuple [(first, name), (second, other)] := by
  obtain ⟨node, here, names, named, earlier, rfl⟩ := Naming.bindingAt?_bind bound
  obtain rfl := Option.some.inj (here.symm.trans found)
  rw [namedOutputs?_of_signatureOf? selected, outputs] at named
  obtain rfl := Option.some.inj named
  exact ⟨_, _, rfl⟩

theorem indicatorLines_cases {placed : Placed} {signature : Signature} {binding : Naming.Binding}
    (found : graph.nodes[placed.position]? = some placed.node)
    (selected : Naming.signatureOf? Catalogue.builtin placed.node = some signature)
    (bound : (planOf graph).names.bindingAt? placed.position = some binding) :
    (∃ function, isFixed function = true ∧
      (planOf graph).indicatorLines placed =
        [.assign (targetOf binding) (.call
          { function
            arguments := ((planOf graph).argumentsOf placed signature).map
              fun entry => { value := entry.2 } })]) ∨
    ∃ k d source length smoothing period, binding.identifiers = [k, d] ∧
      (∀ name ∈ [source, length, smoothing, period], Readable graph placed name) ∧
      (planOf graph).indicatorLines placed =
        List.zipWith (fun text name => .assign (.single name) (.verbatim text))
          (Catalogue.stochasticLines source length smoothing k period) [k, d] := by
  have known := isKnown_of_signatureOf? selected
  rcases Catalogue.form_of_isKnown known with ⟨function, form, fixed⟩ | ⟨form, outputs, parameters⟩
  · refine .inl ⟨function, fixed, ?_⟩
    simp only [Plan.indicatorLines, catalogue_planOf, selected, bound, form]
  · obtain ⟨k, d, rfl⟩ := bindingAt?_pair found selected outputs bound
    have value := placeholder_stochastic known found selected parameters
      (.tuple [("k", k), ("d", d)])
    obtain ⟨source, ofSource, readSource⟩ := value "source" (.head _)
    obtain ⟨length, ofLength, readLength⟩ := value "kLength" (.tail _ (.head _))
    obtain ⟨smoothing, ofSmoothing, readSmoothing⟩ :=
      value "kSmoothing" (.tail _ (.tail _ (.head _)))
    obtain ⟨period, ofPeriod, readPeriod⟩ :=
      value "dSmoothing" (.tail _ (.tail _ (.tail _ (.head _))))
    refine .inr ⟨k, d, source, length, smoothing, period, rfl, ?_, ?_⟩
    · simp only [List.forall_mem_cons, List.not_mem_nil, false_implies, implies_true, and_true]
      exact ⟨readSource, readLength, readSmoothing, readPeriod⟩
    · have filled := Catalogue.fill_stochastic ofSource ofLength ofSmoothing
        (show placeholder? _ _ "out:k" = some k from rfl) ofPeriod
      rw [← filled, List.zipWith_map_left]
      simp only [Plan.indicatorLines, catalogue_planOf, selected, bound, form]
      rfl

end StrategyCompiler.Compilation
