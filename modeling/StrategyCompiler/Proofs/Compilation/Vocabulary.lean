import StrategyCompiler.Proofs.Compilation.Assigned
import StrategyCompiler.Proofs.Compilation.Structure
import StrategyCompiler.Proofs.Script.Vocabulary
/-!
The vocabulary of scripts.  With every catalogue a script is made of constants of the compiler,
names of its table, finite numbers, literals, and what the signatures of the catalogue add.
-/

set_option autoImplicit false

namespace StrategyCompiler.Compilation

open Catalogue (Parameter ReferenceLine Setting Settings Signature)
open StrategyCompiler.Graph (Index Levels Node Operation Placed Role)
open Number (Double)
open Script (Argument Call Expr Operand Source Statement Vocabulary lineFunctions
  orderFunctions)

/-- The words that a script may hold with every catalogue. -/
def ownWords : List String :=
  Script.priceSeries ++ palette ++ [Naming.entryCondition, Naming.exitCondition] ++
  [ "syminfo.tickerid", "timeframe.period", "request.security", "time", "na",
    "input.int", "input.float", "input.bool", "input.string",
    "math.min", "math.max", "math.abs", "ta.crossover", "ta.crossunder",
    "strategy", "strategy.fixed", "strategy.cash", "strategy.percent_of_equity",
    "strategy.entry", "strategy.close_all", "strategy.exit", "strategy.long",
    "strategy.position_avg_price",
    "plot", "hline", "plotshape", "plot.style_columns", "hline.style_dashed",
    "location.belowbar", "location.abovebar", "color.green", "color.red",
    "shape.triangleup", "shape.triangledown", "size.small" ]

def ownLabels : List String :=
  [ "title", "minval", "maxval", "step", "options", "qty", "limit", "stop", "comment", "color",
    "style", "location", "size", "linestyle", "overlay", "initial_capital", "default_qty_type",
    "default_qty_value" ]

def Plan.filled (plan : Plan) (placed : Placed) (signature : Signature) (binding : Naming.Binding)
    (text : String) : String :=
  Catalogue.Template.fill text (placeholder? binding
    ((plan.argumentsOf placed signature).map fun entry => (entry.1, entry.2.render)))

theorem placeholder?_cases {binding : Naming.Binding} {arguments : List (String × Operand)}
    {key value : String}
    (resolved : placeholder? binding (arguments.map fun entry => (entry.1, entry.2.render)) key =
      some value) :
    value ∈ binding.identifiers ∨ ∃ entry ∈ arguments, entry.2.render = value := by
  unfold placeholder? at resolved
  split at resolved
  · exact .inl (Naming.mem_identifiers_of_output? resolved)
  · obtain ⟨entry, selected, rfl⟩ := Option.map_eq_some_iff.1 resolved
    obtain ⟨argument, member, rfl⟩ := List.mem_map.1 (List.mem_of_find?_eq_some selected)
    exact .inr ⟨argument, member, rfl⟩

/-- The words that a signature writes: its function, its series and its colors. -/
def signatureWords (signature : Signature) : List String :=
  (match signature.form with
    | .call function => [function]
    | .templates _ => []) ++
  (signature.parameters.filterMap fun parameter =>
    match parameter.default with
    | .source series => some series
    | _ => none) ++
  signature.plot.referenceLines.map ReferenceLine.color

/-- The numbers that a signature writes: its defaults, its bounds and its levels. -/
def signatureNumbers (signature : Signature) : List Double :=
  (signature.parameters.flatMap fun parameter =>
    (match parameter.default with
      | .float value => [value]
      | _ => []) ++
    parameter.min.toList ++ parameter.max.toList ++ parameter.step.toList) ++
  signature.plot.referenceLines.map ReferenceLine.level

/-- What a signature writes besides templates belongs to a vocabulary. -/
structure SignatureWithin (allowed : Vocabulary) (signature : Signature) : Prop where
  words : ∀ word ∈ signatureWords signature, allowed.word word
  numbers : ∀ number ∈ signatureNumbers signature, allowed.number number

structure Supplies (allowed : Vocabulary) (catalogue : Catalogue) (graph : Graph) : Prop where
  words : ∀ word ∈ ownWords, allowed.word word
  labels : ∀ label ∈ ownLabels, allowed.label label
  effects : ∀ function ∈ lineFunctions, allowed.effect function
  numbers : ∀ value : Double, value.isFinite = true → allowed.number value
  losses : ∀ (node : Node), ∀ percent ∈ (Levels.of node).stopLoss,
    allowed.number (percentFactor percent.neg)
  profits : ∀ (node : Node), ∀ percent ∈ (Levels.of node).takeProfit,
    allowed.number (percentFactor percent)
  signatures : ∀ signature ∈ catalogue.signatures, SignatureWithin allowed signature
  names : ∀ name ∈ (Naming.bind catalogue graph).identifiers,
    allowed.word name ∧ allowed.target name
  conditions : allowed.target Naming.entryCondition ∧ allowed.target Naming.exitCondition
  filled : ∀ placed signature binding texts,
    graph.nodes[placed.position]? = some placed.node →
    Naming.signatureOf? catalogue placed.node = some signature →
    (planWith catalogue graph).names.bindingAt? placed.position = some binding →
    signature.form = .templates texts →
    (∀ entry ∈ (planWith catalogue graph).argumentsOf placed signature, entry.2.Within allowed) →
    ∀ text ∈ texts, allowed.text ((planWith catalogue graph).filled placed signature binding text)

variable {allowed : Vocabulary} {catalogue : Catalogue} {graph : Graph}

/-! ### Signatures -/

section SignatureWithin

variable {signature : Signature} (own : SignatureWithin allowed signature)
include own

theorem SignatureWithin.function {function : String} (form : signature.form = .call function) :
    allowed.word function := by
  have words := own.words
  rw [signatureWords, form, List.forall_mem_append, List.forall_mem_append] at words
  exact words.1.1 function List.mem_cons_self

theorem SignatureWithin.default {parameter : Parameter}
    (declared : parameter ∈ signature.parameters) :
    (Operand.setting parameter.default).Within allowed := by
  have words := own.words
  have numbers := own.numbers
  rw [signatureWords, List.forall_mem_append, List.forall_mem_append] at words
  rw [signatureNumbers, List.forall_mem_append, List.forall_mem_flatMap] at numbers
  cases default : parameter.default with
  | source series =>
    refine words.1.2 series (List.mem_filterMap.2 ⟨parameter, declared, ?_⟩)
    rw [default]
  | float value =>
    have number := numbers.1 parameter declared
    rw [default, List.forall_mem_append, List.forall_mem_append, List.forall_mem_append] at number
    exact number.1.1.1 value List.mem_cons_self
  | int | bool | string => trivial

theorem SignatureWithin.bound {parameter : Parameter} (declared : parameter ∈ signature.parameters)
    {bound : Double}
    (given : bound ∈ parameter.min ∨ bound ∈ parameter.max ∨ bound ∈ parameter.step) :
    allowed.number bound := by
  have numbers := own.numbers
  rw [signatureNumbers, List.forall_mem_append, List.forall_mem_flatMap] at numbers
  have number := numbers.1 parameter declared
  rw [List.forall_mem_append, List.forall_mem_append, List.forall_mem_append] at number
  obtain ⟨⟨⟨-, least⟩, most⟩, step⟩ := number
  rcases given with given | given | given
  · exact least bound (Option.mem_toList.2 given)
  · exact most bound (Option.mem_toList.2 given)
  · exact step bound (Option.mem_toList.2 given)

theorem SignatureWithin.reference {reference : ReferenceLine}
    (listed : reference ∈ signature.plot.referenceLines) :
    allowed.word reference.color ∧ allowed.number reference.level := by
  have words := own.words
  have numbers := own.numbers
  rw [signatureWords, List.forall_mem_append] at words
  rw [signatureNumbers, List.forall_mem_append] at numbers
  exact ⟨words.2 _ (List.mem_map_of_mem listed), numbers.2 _ (List.mem_map_of_mem listed)⟩

end SignatureWithin

/-! ### Names -/

theorem mem_identifiers_of_bindingAt? {table : Naming.Table} {position : Nat}
    {binding : Naming.Binding} {name : String} (bound : table.bindingAt? position = some binding)
    (member : name ∈ binding.identifiers) : name ∈ table.identifiers := by
  obtain ⟨entry, stands, own⟩ := Option.bind_eq_some_iff.1 bound
  refine List.mem_flatMap.2 ⟨entry, List.mem_of_getElem? stands, List.mem_append_right _ ?_⟩
  rwa [own]

private theorem mem_identifiers_of_inputAt? {table : Naming.Table} {position : Nat}
    {parameter name : String} (found : table.inputAt? position parameter = some name) :
    name ∈ table.identifiers := by
  obtain ⟨entry, stands, looked⟩ := Option.bind_eq_some_iff.1 found
  obtain ⟨input, selected, rfl⟩ := Option.map_eq_some_iff.1 looked
  refine List.mem_flatMap.2 ⟨entry, List.mem_of_getElem? stands, List.mem_append_left _ ?_⟩
  exact List.mem_map_of_mem (List.mem_of_find?_eq_some selected)

theorem primary_mem_of_bind {position : Nat} {binding : Naming.Binding}
    (bound : (planWith catalogue graph).names.bindingAt? position = some binding) :
    binding.primary ∈ binding.identifiers := by
  obtain ⟨node, -, outputs, -, earlier, rfl⟩ := Naming.bindingAt?_bind bound
  exact Naming.primary_mem_identifiers _ _ _

/-! ### Numbers and settings -/

private theorem isFinite_of_numeric? {raw : Json.Value} {value : Double}
    (found : raw.numeric? = some value) : value.isFinite = true :=
  (Option.filter_eq_some_iff.1 found).2

theorem isFinite_of_number? {node : Node} {key : String} {value : Double}
    (found : node.number? key = some value) : value.isFinite = true := by
  obtain ⟨raw, -, read⟩ := Option.bind_eq_some_iff.1 found
  exact isFinite_of_numeric? read

private theorem isFinite_of_convert {parameter : Parameter} {raw : Json.Value} {value : Double}
    (converted : parameter.convert raw = .ok (.float value)) : value.isFinite = true := by
  unfold Parameter.convert at converted
  dsimp only at converted
  split at converted
  · split at converted
    · split at converted <;> simp at converted
    · simp at converted
  · split at converted
    · rename_i found
      exact Setting.float.inj (Except.ok.inj converted) ▸ isFinite_of_numeric? found
    · simp at converted
  · simp at converted
  · split at converted <;> simp at converted
  · simp at converted
  · split at converted <;> simp at converted
  · simp at converted

section Supplies

variable (supplies : Supplies allowed catalogue graph)
include supplies

private theorem Supplies.within_convert {parameter : Parameter} {raw : Json.Value} {value : Setting}
    (converted : parameter.convert raw = .ok value) : (Operand.setting value).Within allowed := by
  cases value with
  | int | bool | string => trivial
  | float value => exact supplies.numbers value (isFinite_of_convert converted)
  | source series =>
    have known := Validation.knownSeries_of_convert converted series rfl
    exact supplies.words series (by simp [ownWords, known])

private theorem Supplies.within_valueOf {node : Node} {signature : Signature}
    {parameter : Parameter}
    (selected : Naming.signatureOf? catalogue node = some signature)
    (declared : parameter ∈ signature.parameters) :
    (Operand.setting (Plan.valueOf (Validation.resolve signature node).values parameter)).Within
      allowed := by
  have own := supplies.signatures signature (mem_signatures_of_signatureOf? selected)
  unfold Plan.valueOf
  cases found : (Validation.resolve signature node).values.get? parameter.name with
  | none => exact own.default declared
  | some value =>
    obtain ⟨entry, stands, rfl⟩ := Option.map_eq_some_iff.1 found
    obtain ⟨other, inside, -, settled⟩ :=
      Validation.mem_resolve_values (List.mem_of_find?_eq_some stands)
    rcases Validation.settle_eq_ok settled with same | ⟨raw, converted⟩
    · rw [Option.getD_some, same]
      exact own.default inside
    · exact supplies.within_convert converted

/-! ### Arguments -/

private theorem Supplies.within_named {label : String} {value : Expr} (own : label ∈ ownLabels)
    (within : value.Within allowed) : (Argument.named label value).Within allowed where
  label := by
    rintro _ ⟨⟩
    exact supplies.labels label own
  value := within

omit supplies in
private theorem within_positional {value : Operand} (within : value.Within allowed) :
    Argument.Within allowed { value } :=
  ⟨fun _ absent => absurd absent (by simp), within⟩

private theorem Supplies.within_bound {node : Node} {signature : Signature} {parameter : Parameter}
    (selected : Naming.signatureOf? catalogue node = some signature)
    (declared : parameter ∈ signature.parameters) :
    ∀ argument ∈ boundArguments parameter, argument.Within allowed := by
  have own := supplies.signatures signature (mem_signatures_of_signatureOf? selected)
  have each (label : String) (known : label ∈ ownLabels) (bound : Double)
      (given : bound ∈ parameter.min ∨ bound ∈ parameter.max ∨ bound ∈ parameter.step) :
      (boundArgument parameter label bound).Within allowed := by
    have number := own.bound declared given
    refine ⟨?_, ?_⟩
    · rintro _ ⟨⟩
      exact supplies.labels label known
    · unfold boundArgument
      split
      · exact number
      · exact number
  intro argument member
  unfold boundArguments at member
  split at member
  · simp only [List.mem_append, Option.mem_toList, Option.map_eq_some_iff] at member
    rcases member with (⟨bound, given, rfl⟩ | ⟨bound, given, rfl⟩) | ⟨bound, given, rfl⟩
    · exact each "minval" (by decide) bound (.inl given)
    · exact each "maxval" (by decide) bound (.inr (.inl given))
    · exact each "step" (by decide) bound (.inr (.inr given))
  · exact absurd member List.not_mem_nil

private theorem Supplies.within_options (parameter : Parameter) :
    ∀ argument ∈ optionArguments parameter, argument.Within allowed := by
  intro argument member
  unfold optionArguments at member
  split at member
  · exact absurd member List.not_mem_nil
  · obtain rfl := List.mem_singleton.1 member
    refine ⟨?_, trivial⟩
    rintro _ ⟨⟩
    exact supplies.labels "options" (by decide)

/-! ### Inputs -/

theorem Supplies.within_inputs : ∀ statement ∈ (planWith catalogue graph).inputs,
    statement.Within allowed := by
  intro statement member
  obtain ⟨placed, signature, -, selected, parameter, declared, name, input, declaration⟩ :=
    mem_inputs_iff.1 member
  obtain ⟨function, typed, rfl⟩ := Option.map_eq_some_iff.1 declaration
  refine ⟨(supplies.names name (mem_identifiers_of_inputAt? input)).2, ?_, ?_⟩
  · refine supplies.words function ?_
    cases type : parameter.type <;> rw [type] at typed
    case source => exact absurd typed (by simp [Catalogue.SettingType.inputFunction?])
    all_goals
      obtain rfl := Option.some.inj typed
      decide
  · simp only [List.forall_mem_append, List.forall_mem_cons, List.not_mem_nil, false_implies,
      implies_true, and_true]
    refine ⟨⟨⟨?_, ?_⟩, supplies.within_bound selected declared⟩, supplies.within_options parameter⟩
    · exact within_positional (supplies.within_valueOf selected declared)
    · exact supplies.within_named (by decide) trivial

/-! ### Values of nodes -/

private theorem Supplies.word_own {word : String} (own : word ∈ ownWords) :
    (Expr.name word).Within allowed :=
  supplies.words word own

private theorem Supplies.word_series (node : Node) : allowed.word (Plan.seriesOf node) := by
  have known := seriesOf_mem node
  exact supplies.words _ (by simp [ownWords, known])

private theorem Supplies.name_of_bindingAt? {position : Nat} {binding : Naming.Binding}
    {name : String}
    (bound : (planWith catalogue graph).names.bindingAt? position = some binding)
    (member : name ∈ binding.identifiers) : allowed.word name ∧ allowed.target name :=
  supplies.names name (mem_identifiers_of_bindingAt? bound member)

theorem Supplies.primary {position : Nat} {binding : Naming.Binding}
    (bound : (planWith catalogue graph).names.bindingAt? position = some binding) :
    allowed.word binding.primary ∧ allowed.target binding.primary :=
  supplies.name_of_bindingAt? bound (primary_mem_of_bind bound)

private theorem Supplies.within_read? {source : Placed} {output : Option String} {expr : Expr}
    (found : (planWith catalogue graph).read? source output = some expr) :
    expr.Within allowed := by
  have own {binding : Naming.Binding} (bound :
      (planWith catalogue graph).names.bindingAt? source.position = some binding) :
      allowed.word ((output.bind binding.output?).getD binding.primary) := by
    cases looked : output.bind binding.output? with
    | none => exact (supplies.primary bound).1
    | some name =>
      obtain ⟨suffix, -, selected⟩ := Option.bind_eq_some_iff.1 looked
      exact (supplies.name_of_bindingAt? bound (Naming.mem_identifiers_of_output? selected)).1
  unfold Plan.read? at found
  split at found
  · rename_i binding _ bound
    exact Option.some.inj found ▸ (supplies.primary bound).1
  · exact Option.some.inj found ▸ supplies.word_series source.node
  · rename_i binding _ bound
    exact Option.some.inj found ▸ own bound
  · rename_i binding _ bound
    exact Option.some.inj found ▸ own bound
  · exact absurd found (by simp)

omit supplies in
private theorem within_getD {found : Option Expr} {other : Expr}
    (each : ∀ expr, found = some expr → expr.Within allowed) (default : other.Within allowed) :
    (found.getD other).Within allowed := by
  cases found with
  | none => exact default
  | some expr => exact each expr rfl

private theorem Supplies.within_close : (Expr.name "close").Within allowed :=
  supplies.word_own (by decide)

/-! ### Calculations -/

private theorem Supplies.within_securityLine {placed : Placed} {statement : Statement}
    (found : (planWith catalogue graph).securityLine? placed = some statement) :
    statement.Within allowed := by
  unfold Plan.securityLine? at found
  split at found
  · rename_i timeframe binding _ bound
    obtain rfl := Option.some.inj found
    refine ⟨(supplies.primary bound).2, supplies.words "request.security" (by decide), ?_⟩
    simp only [List.forall_mem_cons, List.not_mem_nil, false_implies, implies_true, and_true]
    have ticker : (Expr.name "syminfo.tickerid").Within allowed := supplies.word_own (by decide)
    exact ⟨within_positional ticker, within_positional trivial,
      within_positional (supplies.word_series placed.node)⟩
  · exact absurd found (by simp)

private theorem Supplies.within_arguments {placed : Placed} {signature : Signature}
    (selected : Naming.signatureOf? catalogue placed.node = some signature) :
    ∀ entry ∈ (planWith catalogue graph).argumentsOf placed signature,
      entry.2.Within allowed := by
  intro entry member
  obtain ⟨parameter, declared, source?, -, rfl⟩ := exists_passed_of_mem member
  rcases passed_cases (planWith catalogue graph) placed
      (Validation.resolve signature placed.node).values source? parameter with
    ⟨source, -, expr, -, read, passed⟩ | ⟨name, -, found, passed⟩ | ⟨-, -, passed⟩
  · exact passed ▸ supplies.within_read? read
  · exact passed ▸ (supplies.names name (mem_identifiers_of_inputAt? found)).1
  · exact passed ▸ supplies.within_valueOf selected declared

private theorem Supplies.within_targetOf {position : Nat} {binding : Naming.Binding} {call : Call}
    (bound : (planWith catalogue graph).names.bindingAt? position = some binding)
    (within : call.Within allowed) :
    (Statement.assign (targetOf binding) (.call call)).Within allowed := by
  have each (name : String) (member : name ∈ binding.identifiers) :
      allowed.word name ∧ allowed.target name :=
    supplies.name_of_bindingAt? bound member
  cases binding with
  | single name => exact ⟨(each name (List.mem_singleton_self name)).2, within⟩
  | tuple outputs =>
    -- The first output has the primary name, so there is one.
    have first := primary_mem_of_bind bound
    exact ⟨List.ne_nil_of_mem first, fun name member => (each name member).2, within⟩

private theorem Supplies.within_indicatorLines {placed : Placed}
    (found : graph.nodes[placed.position]? = some placed.node) :
    ∀ statement ∈ (planWith catalogue graph).indicatorLines placed,
      statement.Within allowed := by
  intro statement member
  unfold Plan.indicatorLines at member
  rw [catalogue_planWith] at member
  split at member
  · rename_i signature binding selected bound
    have own := supplies.signatures signature (mem_signatures_of_signatureOf? selected)
    have arguments : ∀ entry ∈ (planWith catalogue graph).argumentsOf placed signature,
        entry.2.Within allowed :=
      supplies.within_arguments selected
    dsimp only at member
    split at member
    · rename_i function form
      obtain rfl := List.mem_singleton.1 member
      refine supplies.within_targetOf bound ⟨own.function form, ?_⟩
      exact List.forall_mem_map.2 fun entry inside => within_positional (arguments entry inside)
    · rename_i texts form
      rw [← List.map_uncurry_zip_eq_zipWith] at member
      obtain ⟨⟨text, name⟩, pair, rfl⟩ := List.mem_map.1 member
      obtain ⟨listed, named⟩ := List.of_mem_zip pair
      refine ⟨(supplies.name_of_bindingAt? bound named).2, ?_⟩
      exact supplies.filled placed signature binding texts found selected bound form arguments text
        listed
  · exact absurd member List.not_mem_nil

private theorem Supplies.within_applyOperation {left right : Expr} (operation : Operation)
    (first : left.Within allowed) (second : right.Within allowed) :
    (applyOperation operation left right).Within allowed := by
  cases operation with
  | add | subtract | multiply | divide => exact ⟨first, second⟩
  | min => exact ⟨supplies.words "math.min" (by decide), first, second, trivial⟩
  | max => exact ⟨supplies.words "math.max" (by decide), first, second, trivial⟩
  | abs => exact ⟨supplies.words "math.abs" (by decide), first, trivial⟩

private theorem Supplies.within_mathExpr {placed : Placed} {expr : Expr}
    (found : (planWith catalogue graph).mathExpr? placed = some expr) : expr.Within allowed := by
  obtain ⟨operation, -, rfl⟩ := Option.map_eq_some_iff.1 found
  have operand (source : Option Placed) (expr : Expr)
      (read : (source.bind fun source => (planWith catalogue graph).read? source none) =
        some expr) : expr.Within allowed := by
    obtain ⟨source, -, read⟩ := Option.bind_eq_some_iff.1 read
    exact supplies.within_read? read
  refine supplies.within_applyOperation operation (within_getD (operand _) supplies.within_close) ?_
  refine within_getD (fun expr selected => ?_) (supplies.numbers _ ?_)
  · rcases Option.or_eq_some_iff.1 selected with second | ⟨-, value⟩
    · exact operand _ expr second
    · obtain ⟨number, given, rfl⟩ := Option.map_eq_some_iff.1 value
      exact supplies.numbers number (isFinite_of_number? given)
  · cases operation <;> decide +kernel

private theorem Supplies.within_mathLine {placed : Placed} {statement : Statement}
    (found : (planWith catalogue graph).mathLine? placed = some statement) :
    statement.Within allowed := by
  unfold Plan.mathLine? at found
  split at found
  · rename_i binding expr bound composed
    obtain rfl := Option.some.inj found
    exact ⟨(supplies.primary bound).2, supplies.within_mathExpr composed⟩
  · exact absurd found (by simp)

theorem Supplies.within_calculations : ∀ statement ∈ (planWith catalogue graph).calculations,
    statement.Within allowed := by
  intro statement member
  obtain ⟨placed, ordered, inside⟩ := List.mem_flatMap.1 member
  unfold Plan.calculationsOf at inside
  split at inside
  · exact supplies.within_securityLine (Option.mem_toList.1 inside)
  · exact supplies.within_indicatorLines (Naming.mem_namingOrder.1 ordered) statement inside
  · exact supplies.within_mathLine (Option.mem_toList.1 inside)
  · exact absurd inside List.not_mem_nil

/-! ### Conditions and sessions -/

private theorem Supplies.word_operatorFunction {name : String} (own : "ta." ++ name ∈ ownWords) :
    allowed.word ((planWith catalogue graph).operatorFunction name) := by
  unfold Plan.operatorFunction
  rw [catalogue_planWith]
  split
  · rename_i function found
    obtain ⟨signature, looked, form⟩ := Option.map_eq_some_iff.1 found
    have written := supplies.signatures signature (Catalogue.mem_of_lookup? looked)
    exact written.function form
  · exact supplies.words _ own

private theorem Supplies.within_leftOperand (placed : Placed) :
    ((planWith catalogue graph).leftOperand placed).Within allowed := by
  refine within_getD (fun expr found => ?_) supplies.within_close
  obtain ⟨source, -, read⟩ := Option.bind_eq_some_iff.1 found
  exact supplies.within_read? read

private theorem Supplies.within_rightOperand (placed : Placed) :
    ((planWith catalogue graph).rightOperand placed).Within allowed := by
  unfold Plan.rightOperand
  split
  · rename_i threshold given
    exact supplies.numbers threshold (isFinite_of_number? given)
  · refine within_getD (fun expr found => ?_) (supplies.numbers _ (by decide +kernel))
    obtain ⟨source, -, read⟩ := Option.bind_eq_some_iff.1 found
    exact supplies.within_read? read

private theorem Supplies.within_conditionExpr (placed : Placed) :
    ((planWith catalogue graph).conditionExpr placed).Within allowed := by
  have left := supplies.within_leftOperand placed
  have right := supplies.within_rightOperand placed
  unfold Plan.conditionExpr compareExpr
  dsimp only
  split
  · exact ⟨left, right⟩
  · exact ⟨left, right⟩
  · exact ⟨left, right⟩
  · exact ⟨left, right⟩
  · exact ⟨supplies.word_operatorFunction (by decide), left, right, trivial⟩
  · exact ⟨supplies.word_operatorFunction (by decide), left, right, trivial⟩

private theorem Supplies.within_sessionExpr (node : Node) : (sessionExpr node).Within allowed := by
  have period : (Expr.name "timeframe.period").Within allowed := supplies.word_own (by decide)
  have time : (Expr.call "time" [.name "timeframe.period",
      .string ((node.text? "session").getD Graph.defaultSession)]).Within allowed :=
    ⟨supplies.words "time" (by decide), period, trivial, trivial⟩
  exact ⟨supplies.words "na" (by decide), time, trivial⟩

private theorem Supplies.within_logicExpr {placed : Placed} {expr : Expr}
    (found : (planWith catalogue graph).logicExpr? placed = some expr) : expr.Within allowed := by
  unfold Plan.logicExpr? at found
  split at found
  · exact Option.some.inj found ▸ supplies.within_conditionExpr placed
  · exact Option.some.inj found ▸ supplies.within_sessionExpr placed.node
  · exact absurd found (by simp)

theorem Supplies.within_definitions : ∀ statement ∈ (planWith catalogue graph).definitions,
    statement.Within allowed := by
  intro statement member
  obtain ⟨placed, -, found⟩ := List.mem_filterMap.1 member
  split at found
  · rename_i expr binding composed bound
    obtain rfl := Option.some.inj found
    exact ⟨(supplies.primary bound).2, supplies.within_logicExpr composed⟩
  · exact absurd found (by simp)

/-! ### Combined conditions -/

omit supplies in
private theorem within_all {terms : List Expr} (each : ∀ term ∈ terms, term.Within allowed) :
    (Expr.all terms).Within allowed := by
  rcases terms with _ | ⟨first, _ | ⟨second, rest⟩⟩
  · trivial
  · exact each first List.mem_cons_self
  · exact ⟨List.cons_ne_nil _ _, Expr.allWithin_iff.2 each⟩

omit supplies in
private theorem within_any {terms : List Expr} (each : ∀ term ∈ terms, term.Within allowed) :
    (Expr.any terms).Within allowed := by
  rcases terms with _ | ⟨first, _ | ⟨second, rest⟩⟩
  · trivial
  · exact each first List.mem_cons_self
  · exact ⟨List.cons_ne_nil _ _, Expr.allWithin_iff.2 each⟩

private theorem Supplies.within_variablesOf (nodes : List Placed) :
    ∀ term ∈ (planWith catalogue graph).variablesOf nodes, term.Within allowed := by
  intro term member
  obtain ⟨placed, -, found⟩ := List.mem_filterMap.1 member
  obtain ⟨binding, bound, rfl⟩ := Option.map_eq_some_iff.1 found
  exact (supplies.primary bound).1

theorem Supplies.within_entryExpr {expr : Expr}
    (found : (planWith catalogue graph).entryExpr? = some expr) : expr.Within allowed := by
  unfold Plan.entryExpr? at found
  dsimp only at found
  split at found
  · exact absurd found (by simp)
  · obtain rfl := Option.some.inj found
    refine within_all (List.forall_mem_append.2 ⟨?_, ?_⟩)
    · exact supplies.within_variablesOf _
    · exact supplies.within_variablesOf _

theorem Supplies.within_exitExpr {expr : Expr}
    (found : (planWith catalogue graph).exitExpr? = some expr) : expr.Within allowed := by
  unfold Plan.exitExpr? at found
  dsimp only at found
  split at found
  · exact absurd found (by simp)
  · obtain rfl := Option.some.inj found
    exact within_any (supplies.within_variablesOf _)

/-! ### Orders -/

private theorem Supplies.within_call {function : String} {arguments : List Argument}
    (own : function ∈ ownWords) (each : ∀ argument ∈ arguments, argument.Within allowed) :
    Call.Within allowed { function, arguments } :=
  ⟨supplies.words function own, each⟩

private theorem Supplies.within_effect {function : String} {arguments : List Argument}
    (own : function ∈ ownWords ∧ function ∈ lineFunctions)
    (each : ∀ argument ∈ arguments, argument.Within allowed) :
    (Statement.call { function, arguments }).Within allowed :=
  ⟨supplies.effects function own.2, supplies.within_call own.1 each⟩

theorem Supplies.within_declaration {options : Options}
    (capital : allowed.number options.initialCapital)
    (quantity : allowed.number options.quantityValue) : options.declaration.Within allowed := by
  have constant : options.quantityType.constant ∈ ownWords := by
    cases options.quantityType <;> decide
  refine supplies.within_call (by decide) ?_
  simp only [List.forall_mem_cons, List.not_mem_nil, false_implies, implies_true, and_true]
  exact ⟨within_positional trivial, supplies.within_named (by decide) trivial,
    supplies.within_named (by decide) capital,
    supplies.within_named (by decide) (supplies.word_own constant),
    supplies.within_named (by decide) quantity⟩

private theorem Supplies.within_price (node : Node) : (priceOf node).Within allowed := by
  unfold priceOf
  refine within_getD (fun expr found => ?_) supplies.within_close
  obtain ⟨price, given, rfl⟩ := Option.map_eq_some_iff.1 found
  exact supplies.numbers price (isFinite_of_number? given)

private theorem Supplies.number_quantityOf (node : Node) : allowed.number (quantityOf node) := by
  unfold quantityOf
  cases found : Graph.orderQuantity? node with
  | none => exact supplies.numbers _ (by decide +kernel)
  | some quantity =>
    exact supplies.numbers quantity (isFinite_of_number? (Option.filter_eq_some_iff.1 found).1)

private theorem Supplies.within_entryOrder (node : Node) : (entryOrder node).Within allowed := by
  refine supplies.within_call (by decide) (List.forall_mem_append.2 ⟨?_, ?_⟩)
  · simp only [List.forall_mem_cons, List.not_mem_nil, false_implies, implies_true, and_true]
    have direction : (Expr.name "strategy.long").Within allowed := supplies.word_own (by decide)
    exact ⟨within_positional trivial, within_positional direction,
      supplies.within_named (by decide) (supplies.number_quantityOf node)⟩
  · have price {label : String} (own : label ∈ ownLabels) :
        (Argument.named label (priceOf node)).Within allowed :=
      supplies.within_named own (supplies.within_price node)
    split
    · simp
    · exact List.forall_mem_singleton.2 (price (by decide))
    · exact List.forall_mem_singleton.2 (price (by decide))

private theorem Supplies.within_exitOrder (node : Node) : (exitOrder node).Within allowed :=
  supplies.within_call (by decide)
    (List.forall_mem_singleton.2 (supplies.within_named (by decide) trivial))

private theorem Supplies.within_protection {node : Node} {call : Call}
    (found : protection? node = some call) : (Statement.call call).Within allowed := by
  have average : (Expr.name "strategy.position_avg_price").Within allowed :=
    supplies.word_own (by decide)
  unfold protection? at found
  dsimp only at found
  split at found
  · exact absurd found (by simp)
  · obtain rfl := Option.some.inj found
    refine supplies.within_effect (by decide) ?_
    simp only [List.forall_mem_append, List.forall_mem_singleton, Option.mem_toList,
      Option.map_eq_some_iff]
    refine ⟨⟨within_positional trivial, ?_⟩, ?_⟩
    · rintro _ ⟨percent, given, rfl⟩
      exact supplies.within_named (by decide) ⟨average, supplies.losses node percent given⟩
    · rintro _ ⟨percent, given, rfl⟩
      exact supplies.within_named (by decide) ⟨average, supplies.profits node percent given⟩

theorem Supplies.within_entryOrders : ∀ call ∈ (planWith catalogue graph).entryOrders,
    call.function ∈ orderFunctions ∧ call.Within allowed :=
  List.forall_mem_map.2 fun placed _ =>
    ⟨List.mem_cons_self, supplies.within_entryOrder placed.node⟩

theorem Supplies.within_exitOrders : ∀ call ∈ (planWith catalogue graph).exitOrders,
    call.function ∈ orderFunctions ∧ call.Within allowed :=
  List.forall_mem_map.2 fun placed _ =>
    ⟨List.mem_cons_of_mem _ List.mem_cons_self, supplies.within_exitOrder placed.node⟩

theorem Supplies.within_protections : ∀ call ∈ (planWith catalogue graph).protections,
    (Statement.call call).Within allowed := by
  intro call member
  obtain ⟨placed, -, found⟩ := List.mem_filterMap.1 member
  split at found
  · exact supplies.within_protection found
  · exact absurd found (by simp)

/-! ### Plots -/

private theorem Supplies.within_plotCall (number : Nat) {series : Series}
    (named : allowed.word series.name) :
    (Statement.call (plotCall number series)).Within allowed := by
  refine supplies.within_effect (by decide) (List.forall_mem_append.2 ⟨?_, ?_⟩)
  · have color : colorOf number ∈ ownWords := by simp [ownWords, colorOf_mem number]
    simp only [List.forall_mem_cons, List.not_mem_nil, false_implies, implies_true, and_true]
    exact ⟨within_positional named, supplies.within_named (by decide) trivial,
      supplies.within_named (by decide) (supplies.word_own color)⟩
  · have columns : (Expr.name "plot.style_columns").Within allowed :=
      supplies.word_own (by decide)
    split
    · exact List.forall_mem_singleton.2 (supplies.within_named (by decide) columns)
    · simp

private theorem Supplies.within_plotCalls {series : List Series}
    (named : ∀ own ∈ series, allowed.word own.name) (number : Nat) :
    ∀ call ∈ plotCalls number series, (Statement.call call).Within allowed := by
  induction series generalizing number with
  | nil => simp [plotCalls]
  | cons own rest ih =>
    obtain ⟨here, later⟩ := List.forall_mem_cons.1 named
    rw [plotCalls, List.forall_mem_cons]
    exact ⟨supplies.within_plotCall number here, ih later (number + 1)⟩

private theorem Supplies.within_referenceCall {reference : Catalogue.ReferenceLine}
    (color : allowed.word reference.color) (level : allowed.number reference.level) :
    (Statement.call (referenceCall reference)).Within allowed := by
  have dashed : (Expr.name "hline.style_dashed").Within allowed := supplies.word_own (by decide)
  refine supplies.within_effect (by decide) ?_
  simp only [List.forall_mem_cons, List.not_mem_nil, false_implies, implies_true, and_true]
  exact ⟨within_positional level, supplies.within_named (by decide) trivial,
    supplies.within_named (by decide) color, supplies.within_named (by decide) dashed⟩

private theorem Supplies.within_pricePlot : (Statement.call pricePlot).Within allowed := by
  have color : (Expr.name "color.blue").Within allowed := supplies.word_own (by decide)
  refine supplies.within_effect (by decide) ?_
  simp only [List.forall_mem_cons, List.not_mem_nil, false_implies, implies_true, and_true]
  exact ⟨within_positional supplies.within_close, supplies.within_named (by decide) trivial,
    supplies.within_named (by decide) color⟩

private theorem Supplies.within_marker {condition location color style : String} (title : String)
    (own : ∀ word ∈ [condition, location, color, style], word ∈ ownWords) :
    (Statement.call (marker condition title location color style)).Within allowed := by
  simp only [List.forall_mem_cons, List.not_mem_nil, false_implies, implies_true, and_true] at own
  obtain ⟨holds, ofLocation, ofColor, ofStyle⟩ := own
  have small : (Expr.name "size.small").Within allowed := supplies.word_own (by decide)
  refine supplies.within_effect (by decide) ?_
  simp only [List.forall_mem_cons, List.not_mem_nil, false_implies, implies_true, and_true]
  exact ⟨within_positional (supplies.word_own holds), supplies.within_named (by decide) trivial,
    supplies.within_named (by decide) (supplies.word_own ofLocation),
    supplies.within_named (by decide) (supplies.word_own ofColor),
    supplies.within_named (by decide) (supplies.word_own ofStyle),
    supplies.within_named (by decide) small⟩

private theorem Supplies.word_of_mem_series {placed : Placed} {signature : Signature}
    {series : Series}
    (member : series ∈ (planWith catalogue graph).series placed signature) :
    allowed.word series.name := by
  unfold Plan.series at member
  split at member
  · rename_i binding bound
    split at member
    · exact absurd member List.not_mem_nil
    · exact (supplies.name_of_bindingAt? bound (name_of_mem_seriesFor member)).1
  · exact absurd member List.not_mem_nil

private theorem Supplies.within_indicatorPlotsFrom {indicators : List (Placed × Signature)}
    (each : ∀ indicator ∈ indicators, indicator.2 ∈ catalogue.signatures) (number : Nat) :
    ∀ call ∈ (planWith catalogue graph).indicatorPlotsFrom number indicators,
      (Statement.call call).Within allowed := by
  induction indicators generalizing number with
  | nil => simp [Plan.indicatorPlotsFrom]
  | cons indicator rest ih =>
    obtain ⟨placed, signature⟩ := indicator
    obtain ⟨here, later⟩ := List.forall_mem_cons.1 each
    have own := supplies.signatures signature here
    simp only [Plan.indicatorPlotsFrom, List.forall_mem_append, List.forall_mem_map]
    refine ⟨⟨?_, fun reference member => ?_⟩, ih later _⟩
    · exact supplies.within_plotCalls (fun _ => supplies.word_of_mem_series) number
    · have listed : reference ∈ signature.plot.referenceLines := by
        unfold Plan.references at member
        split at member
        · split at member
          · exact absurd member List.not_mem_nil
          · exact member
        · exact absurd member List.not_mem_nil
      obtain ⟨color, level⟩ := own.reference listed
      exact supplies.within_referenceCall color level

theorem Supplies.within_plots : ∀ call ∈ (planWith catalogue graph).plots,
    (Statement.call call).Within allowed := by
  refine List.forall_mem_append.2 ⟨supplies.within_indicatorPlotsFrom ?_ 0, ?_⟩
  · intro indicator member
    obtain ⟨placed, -, found⟩ := List.mem_filterMap.1 member
    obtain ⟨signature, selected, rfl⟩ := Option.map_eq_some_iff.1 found
    rw [catalogue_planWith] at selected
    exact mem_signatures_of_signatureOf? selected
  · split
    · exact List.forall_mem_singleton.2 supplies.within_pricePlot
    · simp

theorem Supplies.within_entryMarker : (Statement.call entryMarker).Within allowed :=
  supplies.within_marker _ (by decide)

theorem Supplies.within_exitMarker : (Statement.call exitMarker).Within allowed :=
  supplies.within_marker _ (by decide)

end Supplies

end StrategyCompiler.Compilation
