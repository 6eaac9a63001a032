import StrategyCompiler.Proofs.Compilation.Reads
import StrategyCompiler.Proofs.Compilation.Scope
/-!
The sections of a script: which names their statements read, and that all words in them are clean.
-/

set_option autoImplicit false

namespace StrategyCompiler.Compilation

open Catalogue (Parameter Setting Settings Signature)
open StrategyCompiler.Graph (Index Node Placed)
open Number (Double)
open Script (Argument Call Clean CleanWords Expr Operand Source Statement isFixed isWord)
open Validation (KnownSeries)

/-! ### Calls -/

theorem cleanWords_of_all_isWord {words : List String} (all : words.all isWord = true) :
    CleanWords words :=
  fun word member => Script.clean_of_isWord (List.all_eq_true.1 all word member)

structure Limited (allowed : String → Prop) (argument : Argument) : Prop where
  reads : ∀ name ∈ argument.value.reads, allowed name
  functions : argument.value.functions = []
  labels : ∀ label ∈ argument.name, isWord label = true

structure LimitedCall (allowed : String → Prop) (call : Call) : Prop where
  function : isWord call.function = true
  allows : allowed call.function
  arguments : ∀ argument ∈ call.arguments, Limited allowed argument

abbrev Fixed (name : String) : Prop := isFixed name = true

section Limited

variable {allowed : String → Prop}

private theorem limited_expr {expr : Expr} (reads : ∀ name ∈ expr.reads, allowed name)
    (functions : expr.functions = []) : Limited allowed (.expr expr) :=
  ⟨reads, functions, by simp [Argument.expr]⟩

theorem limited_named {label : String} {expr : Expr} (word : isWord label = true)
    (reads : ∀ name ∈ expr.reads, allowed name) (functions : expr.functions = []) :
    Limited allowed (.named label expr) :=
  ⟨reads, functions, by simpa [Argument.named] using word⟩

theorem limited_string (text : String) : Limited allowed (.expr (.string text)) :=
  limited_expr (by simp [Expr.reads]) (by rw [Expr.functions])

theorem limited_name {name : String} (allows : allowed name) :
    Limited allowed (.expr (.name name)) :=
  limited_expr (by simpa [Expr.reads] using allows) (by rw [Expr.functions])

theorem limited_number (value : Double) : Limited allowed (.expr (.number value)) :=
  limited_expr (by simp [Expr.reads]) (by rw [Expr.functions])

theorem limited_named_string {label : String} (word : isWord label = true) (text : String) :
    Limited allowed (.named label (.string text)) :=
  limited_named word (by simp [Expr.reads]) (by rw [Expr.functions])

theorem limited_named_name {label name : String} (word : isWord label = true)
    (allows : allowed name) : Limited allowed (.named label (.name name)) :=
  limited_named word (by simpa [Expr.reads] using allows) (by rw [Expr.functions])

theorem limited_named_number {label : String} (word : isWord label = true) (value : Double) :
    Limited allowed (.named label (.number value)) :=
  limited_named word (by simp [Expr.reads]) (by rw [Expr.functions])

theorem Limited.cleanWords {argument : Argument} (limited : Limited allowed argument)
    (words : ∀ name, allowed name → isWord name = true) : CleanWords argument.words := by
  intro word member
  simp only [Argument.words, Operand.words, limited.functions, List.append_nil, List.mem_append,
    Option.mem_toList] at member
  rcases member with label | read
  · exact Script.clean_of_isWord (limited.labels word label)
  · exact Script.clean_of_isWord (words word (limited.reads word read))

theorem LimitedCall.reads {call : Call} (limited : LimitedCall allowed call) {name : String}
    (read : name ∈ call.reads) : allowed name := by
  rcases Call.mem_reads limited.function read with rfl | ⟨argument, member, own⟩
  · exact limited.allows
  · exact (limited.arguments argument member).reads name own

private theorem cleanWords_call {call : Call} (function : isWord call.function = true)
    (arguments : ∀ argument ∈ call.arguments, CleanWords argument.words) :
    CleanWords call.words := by
  rw [Call.words, CleanWords, List.forall_mem_cons]
  refine ⟨Script.clean_of_isWord function, fun word member => ?_⟩
  obtain ⟨argument, inside, own⟩ := List.mem_flatMap.1 member
  exact arguments argument inside word own

theorem LimitedCall.cleanWords {call : Call} (limited : LimitedCall allowed call)
    (words : ∀ name, allowed name → isWord name = true) : CleanWords call.words :=
  cleanWords_call limited.function fun argument member =>
    (limited.arguments argument member).cleanWords words

end Limited

/-! ### Inputs -/

private theorem limited_boundArguments {parameter : Parameter} {argument : Argument}
    (member : argument ∈ boundArguments parameter) : Limited Fixed argument := by
  have each (label : String) (word : isWord label = true) (bound : Double) :
      Limited Fixed (boundArgument parameter label bound) := by
    unfold boundArgument
    split
    · exact ⟨by simp [Operand.reads], rfl, by simpa using word⟩
    · exact limited_named_number word bound
  unfold boundArguments at member
  split at member
  · simp only [List.mem_append, Option.mem_toList, Option.map_eq_some_iff] at member
    rcases member with (⟨bound, -, rfl⟩ | ⟨bound, -, rfl⟩) | ⟨bound, -, rfl⟩
    · exact each "minval" (by decide) bound
    · exact each "maxval" (by decide) bound
    · exact each "step" (by decide) bound
  · exact absurd member List.not_mem_nil

private theorem limited_optionArguments {parameter : Parameter} {argument : Argument}
    (member : argument ∈ optionArguments parameter) : Limited Fixed argument := by
  unfold optionArguments at member
  split at member
  · exact absurd member List.not_mem_nil
  · obtain rfl := List.mem_singleton.1 member
    exact ⟨by simp [Operand.reads], rfl, by simp; decide⟩

private theorem inputDeclaration?_eq_some {name label : String} {parameter : Parameter}
    {value : Setting}
    {statement : Statement} (series : KnownSeries value)
    (declared : inputDeclaration? name label parameter value = some statement) :
    ∃ call, statement = .assign (.single name) (.call call) ∧ LimitedCall Fixed call := by
  obtain ⟨function, found, rfl⟩ := Option.map_eq_some_iff.1 declared
  have fixed : Fixed function := by
    cases type : parameter.type <;> rw [type] at found
    case source => exact absurd found (by simp [Catalogue.SettingType.inputFunction?])
    all_goals
      obtain rfl := Option.some.inj found
      decide
  refine ⟨_, rfl, Script.isWord_of_isFixed fixed, fixed, fun argument member => ?_⟩
  simp only [List.mem_append, List.mem_cons, List.not_mem_nil, or_false] at member
  rcases member with ((rfl | rfl) | bound) | options
  · exact ⟨fun name read => reads_setting series read, rfl, by simp⟩
  · exact limited_named_string (by decide) _
  · exact limited_boundArguments bound
  · exact limited_optionArguments options

theorem mem_indicators {graph : Graph} {placed : Placed} {signature : Signature} :
    (placed, signature) ∈ (planOf graph).indicators ↔
      placed ∈ (planOf graph).order ∧
        Naming.signatureOf? Catalogue.builtin placed.node = some signature :=
  mem_indicators_planWith.trans (and_congr_left' mem_order_planOf.symm)

theorem sound_inputs (graph : Graph) : Sound Fixed ((planOf graph).inputs.map Line.statement) := by
  have each : ∀ statement ∈ (planOf graph).inputs,
      (∀ name ∈ statement.reads, Fixed name) ∧ CleanWords statement.words := by
    intro statement member
    obtain ⟨placed, signature, -, selected, parameter, declared, name, found, declaration⟩ :=
      mem_inputs_iff.1 member
    have known := isKnown_of_signatureOf? selected
    obtain ⟨call, rfl, limited⟩ :=
      inputDeclaration?_eq_some (knownSeries_valueOf known placed.node declared) declaration
    refine ⟨fun name read => limited.reads read, CleanWords.append_iff.2 ⟨?_, ?_⟩⟩
    · exact cleanWords_of_all_isWord (by simpa [Script.Target.names] using isWord_of_inputAt? found)
    · exact limited.cleanWords fun name => Script.isWord_of_isFixed
  exact Sound.statements (fun statement member => (each statement member).1)
    fun statement member => (each statement member).2

theorem mem_assigned_inputs {graph : Graph} {position : Nat} {key name : String}
    (found : (planOf graph).names.inputAt? position key = some name) :
    name ∈ (planOf graph).inputs.flatMap Statement.assigned := by
  obtain ⟨node, here, signature, selected, parameter, declared, rfl, tunable, -⟩ :=
    Naming.inputAt?_bind found
  obtain ⟨function, input⟩ := Option.isSome_iff_exists.1 tunable
  obtain ⟨statement, declaration⟩ : ∃ statement, inputDeclaration? name
      (Plan.displayLabel node signature) parameter
      (Plan.valueOf (Validation.resolve signature node).values parameter) = some statement := by
    rw [inputDeclaration?, input]
    exact ⟨_, rfl⟩
  have assigned : statement.assigned = [name] := by
    have known := isKnown_of_signatureOf? selected
    obtain ⟨call, rfl, -⟩ := inputDeclaration?_eq_some (knownSeries_valueOf known node declared)
      declaration
    rfl
  have member : statement ∈ (planOf graph).inputs :=
    mem_inputs_iff.2 ⟨⟨position, node⟩, signature, here, selected, parameter, declared, name,
      found, declaration⟩
  exact List.mem_flatMap.2 ⟨statement, member, assigned ▸ List.mem_singleton_self name⟩

/-! ### Expressions -/

section Expressions

variable {graph : Graph} {placed : Placed}

/-- An expression that calls named functions on what a node can read. -/
def Composed (graph : Graph) (placed : Placed) (expr : Expr) : Prop :=
  (∀ function ∈ expr.functions, isWord function = true) ∧
    ∀ name ∈ expr.reads, Readable graph placed name

theorem Composed.cleanWords {expr : Expr} (composed : Composed graph placed expr) :
    CleanWords expr.words := by
  refine CleanWords.append_iff.2 ⟨fun name read => ?_, fun function called => ?_⟩
  · exact Script.clean_of_isWord (composed.2 name read).isWord
  · exact Script.clean_of_isWord (composed.1 function called)

private theorem composed_name {name : String} (readable : Readable graph placed name) :
    Composed graph placed (.name name) :=
  ⟨by simp [Expr.functions], by simpa [Expr.reads] using readable⟩

private theorem composed_number (value : Double) : Composed graph placed (.number value) :=
  ⟨by simp [Expr.functions], by simp [Expr.reads]⟩

private theorem composed_close : Composed graph placed (.name "close") :=
  composed_name (.fixed (by decide))

private theorem composed_read? {source : Placed} {output : Option String} {expr : Expr}
    (supplier : source ∈ (planOf graph).suppliers placed)
    (found : (planOf graph).read? source output = some expr) : Composed graph placed expr := by
  obtain ⟨name, rfl, readable⟩ := read?_eq_some supplier found
  exact composed_name readable

private theorem composed_getD {found : Option Expr} {other : Expr}
    (each : ∀ expr, found = some expr → Composed graph placed expr)
    (default : Composed graph placed other) : Composed graph placed (found.getD other) := by
  cases found with
  | none => exact default
  | some expr => exact each expr rfl

private theorem composed_call {function : String} {arguments : List Expr}
    (word : isWord function = true)
    (each : ∀ expr ∈ arguments, Composed graph placed expr) :
    Composed graph placed (.call function arguments) := by
  have parts : (∀ name ∈ Expr.functionsOf arguments, isWord name = true) ∧
      ∀ name ∈ Expr.readsOf arguments, Readable graph placed name := by
    induction arguments with
    | nil => exact ⟨by simp [Expr.functionsOf], by simp [Expr.readsOf]⟩
    | cons first rest ih =>
      obtain ⟨here, later⟩ := List.forall_mem_cons.1 each
      obtain ⟨functions, reads⟩ := ih later
      rw [Expr.functionsOf, Expr.readsOf, List.forall_mem_append, List.forall_mem_append]
      exact ⟨⟨here.1, functions⟩, here.2, reads⟩
  rw [Composed, Expr.functions, Expr.reads, List.forall_mem_cons]
  exact ⟨⟨word, parts.1⟩, parts.2⟩

private theorem composed_arith {operator : Script.Operator} {left right : Expr}
    (first : Composed graph placed left) (second : Composed graph placed right) :
    Composed graph placed (.arith operator left right) := by
  rw [Composed, Expr.functions, Expr.reads, List.forall_mem_append, List.forall_mem_append]
  exact ⟨⟨first.1, second.1⟩, first.2, second.2⟩

private theorem composed_compare {comparator : Script.Comparator} {left right : Expr}
    (first : Composed graph placed left) (second : Composed graph placed right) :
    Composed graph placed (.compare comparator left right) := by
  rw [Composed, Expr.functions, Expr.reads, List.forall_mem_append, List.forall_mem_append]
  exact ⟨⟨first.1, second.1⟩, first.2, second.2⟩

private theorem composed_applyOperation {left right : Expr} (operation : Graph.Operation)
    (first : Composed graph placed left) (second : Composed graph placed right) :
    Composed graph placed (applyOperation operation left right) := by
  have both : ∀ expr ∈ [left, right], Composed graph placed expr := by
    simpa using ⟨first, second⟩
  cases operation with
  | add | subtract | multiply | divide => exact composed_arith first second
  | min | max => exact composed_call (by decide) both
  | abs => exact composed_call (by decide) (by simpa using first)

end Expressions

/-! ### Calculations -/

section Calculations

variable {graph : Graph} {placed : Placed}

structure Written (graph : Graph) (placed : Placed) (statement : Statement) : Prop where
  reads : ∀ name ∈ statement.reads, Readable graph placed name
  words : CleanWords statement.words

theorem written_define {name : String} {expr : Expr} (word : isWord name = true)
    (composed : Composed graph placed expr) : Written graph placed (.define name expr) where
  reads := composed.2
  words := by
    refine CleanWords.append_iff.2 ⟨?_, composed.cleanWords⟩
    exact cleanWords_of_all_isWord (by simpa [Script.Target.names] using word)

theorem isWord_primary {position : Nat} {binding : Naming.Binding}
    (bound : (planOf graph).names.bindingAt? position = some binding) :
    isWord binding.primary = true :=
  isWord_of_bindingAt? bound (primary_mem_of_bindingAt? bound)

private theorem written_securityLine {statement : Statement}
    (found : (planOf graph).securityLine? placed = some statement) :
    Written graph placed statement := by
  unfold Plan.securityLine? at found
  split at found
  · rename_i timeframe binding _ bound
    obtain rfl := Option.some.inj found
    have series : Readable graph placed (Plan.seriesOf placed.node) := .series placed.node
    constructor
    · intro name read
      have word : isWord "request.security" = true := by decide
      rcases Call.mem_reads word read with same | ⟨argument, member, own⟩
      · rw [same]
        exact .fixed (by decide : Fixed "request.security")
      · simp only [List.mem_cons, List.not_mem_nil, or_false] at member
        rcases member with rfl | rfl | rfl
        · obtain rfl := List.mem_singleton.1 own
          exact .fixed (by decide)
        · exact absurd own List.not_mem_nil
        · obtain rfl := List.mem_singleton.1 own
          exact series
    · have words : CleanWords
          [binding.primary, "request.security", "syminfo.tickerid", Plan.seriesOf placed.node] := by
        refine cleanWords_of_all_isWord ?_
        have function : isWord "request.security" = true := by decide
        have ticker : isWord "syminfo.tickerid" = true := by decide
        simp only [List.all_cons, List.all_nil, isWord_primary bound, series.isWord, function,
          ticker, Bool.and_self]
      exact words
  · exact absurd found (by simp)

private theorem composed_mathExpr {expr : Expr}
    (found : (planOf graph).mathExpr? placed = some expr) :
    Composed graph placed expr := by
  obtain ⟨operation, -, rfl⟩ := Option.map_eq_some_iff.1 found
  have operand (index : Nat) (expr : Expr)
      (read : ((((planOf graph).suppliers placed)[index]?).bind fun source =>
        (planOf graph).read? source none) = some expr) : Composed graph placed expr := by
    obtain ⟨source, supplies, read⟩ := Option.bind_eq_some_iff.1 read
    exact composed_read? (List.mem_of_getElem? supplies) read
  refine composed_applyOperation operation (composed_getD (operand 0) composed_close) ?_
  refine composed_getD (fun expr selected => ?_) (composed_number _)
  rcases Option.or_eq_some_iff.1 selected with second | ⟨-, value⟩
  · exact operand 1 expr second
  · obtain ⟨number, -, rfl⟩ := Option.map_eq_some_iff.1 value
    exact composed_number number

private theorem written_mathLine {statement : Statement}
    (found : (planOf graph).mathLine? placed = some statement) :
    Written graph placed statement := by
  unfold Plan.mathLine? at found
  split at found
  · rename_i binding expr bound composed
    obtain rfl := Option.some.inj found
    exact written_define (isWord_primary bound) (composed_mathExpr composed)
  · exact absurd found (by simp)

private theorem cleanWords_identifiers {position : Nat} {binding : Naming.Binding}
    (bound : (planOf graph).names.bindingAt? position = some binding) :
    CleanWords binding.identifiers :=
  fun _ member => Script.clean_of_isWord (isWord_of_bindingAt? bound member)

private theorem written_indicatorCall {signature : Signature} {binding : Naming.Binding}
    {function : String} (known : Catalogue.isKnown signature = true)
    (bound : (planOf graph).names.bindingAt? placed.position = some binding)
    (fixed : Fixed function) :
    Written graph placed (.assign (targetOf binding) (.call
      { function
        arguments := ((planOf graph).argumentsOf placed signature).map
          fun entry => { value := entry.2 } })) := by
  have each : ∀ entry ∈ (planOf graph).argumentsOf placed signature,
      entry.2.functions = [] ∧ ∀ name ∈ entry.2.reads, Readable graph placed name := by
    intro entry member
    obtain ⟨parameter, declared, -, passed⟩ := mem_arguments (fun _ supplies => supplies) member
    exact passed.reads known declared
  have word := Script.isWord_of_isFixed fixed
  constructor
  · intro name read
    rcases Call.mem_reads word read with rfl | ⟨argument, member, own⟩
    · exact .fixed fixed
    · obtain ⟨entry, inside, rfl⟩ := List.mem_map.1 member
      exact (each entry inside).2 name own
  · refine CleanWords.append_iff.2 ⟨?_, cleanWords_call word ?_⟩
    · rw [targetOf_names]
      exact cleanWords_identifiers bound
    · intro argument member
      obtain ⟨entry, inside, rfl⟩ := List.mem_map.1 member
      intro other own
      have read : other ∈ entry.2.reads := by
        simpa [Argument.words, Operand.words, (each entry inside).1] using own
      exact Script.clean_of_isWord ((each entry inside).2 other read).isWord

private theorem sound_stochasticLines {binding : Naming.Binding}
    {k d source length smoothing period : String}
    (bound : (planOf graph).names.bindingAt? placed.position = some binding)
    (names : binding.identifiers = [k, d])
    (readable : ∀ name ∈ [source, length, smoothing, period], Readable graph placed name) :
    Sound (Readable graph placed) ((List.zipWith
      (fun text name => Statement.assign (.single name) (.verbatim text))
      (Catalogue.stochasticLines source length smoothing k period) [k, d]).map Line.statement) := by
  simp only [List.forall_mem_cons, List.not_mem_nil, false_implies, implies_true,
    and_true] at readable
  obtain ⟨ofSource, ofLength, ofSmoothing, ofPeriod⟩ := readable
  have ofK : isWord k = true := isWord_of_bindingAt? bound (names ▸ List.mem_cons_self)
  have ofD : isWord d = true := isWord_of_bindingAt? bound (names ▸ .tail _ (.head _))
  have clean := Catalogue.clean_stochasticLines ofSource.isWord ofLength.isWord ofSmoothing.isWord
    ofK ofPeriod.isWord
  obtain ⟨first, second, shape, firstWords, secondWords⟩ := Catalogue.words_stochasticLines
    ofSource.isWord ofLength.isWord ofSmoothing.isWord ofK ofPeriod.isWord
  rw [shape] at clean ⊢
  simp only [CleanWords, List.forall_mem_cons, List.not_mem_nil, false_implies, implies_true,
    and_true] at clean
  have assigns {name text : String} (word : isWord name = true) (clean : Clean text.toList) :
      CleanWords (Statement.assign (.single name) (.verbatim text)).words := by
    simpa [CleanWords, Statement.words, Source.words, Script.Target.names] using
      ⟨Script.clean_of_isWord word, clean⟩
  refine ⟨⟨fun name read => ?_, fun name read => ?_, trivial⟩, ?_⟩
  · have own := firstWords name read
    simp only [List.mem_cons, List.not_mem_nil, or_false] at own
    rcases own with rfl | rfl | rfl | rfl | rfl | rfl | rfl
    · exact .fixed (by decide)
    · exact .fixed (by decide)
    · exact ofSource
    · exact .fixed (by decide)
    · exact .fixed (by decide)
    · exact ofLength
    · exact ofSmoothing
  · have own := secondWords name read
    simp only [List.mem_cons, List.not_mem_nil, or_false] at own
    rcases own with rfl | rfl | rfl
    · exact .inl (.fixed (by decide))
    · exact .inr (List.mem_singleton_self _)
    · exact .inl ofPeriod
  · intro line member
    simp only [List.zipWith_cons_cons, List.zipWith_nil_left, List.map_cons, List.map_nil,
      List.mem_cons, List.not_mem_nil, or_false] at member
    rcases member with rfl | rfl
    · exact tidy_statement (assigns ofK clean.1)
    · exact tidy_statement (assigns ofD clean.2)

theorem Written.sound {statement : Statement} (written : Written graph placed statement) :
    Sound (Readable graph placed) [.statement statement] :=
  Sound.statement written.reads written.words

private theorem sound_indicatorLines (found : graph.nodes[placed.position]? = some placed.node) :
    Sound (Readable graph placed) (((planOf graph).indicatorLines placed).map Line.statement) := by
  cases selected : Naming.signatureOf? Catalogue.builtin placed.node with
  | none =>
    simpa [Plan.indicatorLines, catalogue_planOf, selected] using Sound.nil
  | some signature =>
    cases bound : (planOf graph).names.bindingAt? placed.position with
    | none =>
      simpa [Plan.indicatorLines, catalogue_planOf, selected, bound] using Sound.nil
    | some binding =>
      rcases indicatorLines_cases found selected bound with
        ⟨function, fixed, lines⟩ | ⟨k, d, source, length, smoothing, period, names, readable, lines⟩
      · rw [lines]
        exact (written_indicatorCall (isKnown_of_signatureOf? selected) bound fixed).sound
      · rw [lines]
        exact sound_stochasticLines bound names readable

private theorem sound_toList {found : Option Statement}
    (written : ∀ statement, found = some statement → Written graph placed statement) :
    Sound (Readable graph placed) (found.toList.map Line.statement) := by
  cases found with
  | none => exact Sound.nil
  | some statement => exact (written statement rfl).sound

theorem sound_calculationsOf (found : graph.nodes[placed.position]? = some placed.node) :
    Sound (Readable graph placed) (((planOf graph).calculationsOf placed).map Line.statement) := by
  unfold Plan.calculationsOf
  cases placed.node.kind with
  | dataSource => exact sound_toList fun _ => written_securityLine
  | indicator => exact sound_indicatorLines found
  | math => exact sound_toList fun _ => written_mathLine
  | condition | action | risk | timing => exact Sound.nil

end Calculations

/-! ### Definitions -/

section Definitions

variable {graph : Graph} {placed : Placed}

private theorem isWord_operatorFunction {name : String} (word : isWord ("ta." ++ name) = true) :
    isWord ((planOf graph).operatorFunction name) = true := by
  unfold Plan.operatorFunction
  rw [catalogue_planOf]
  split
  · rename_i function found
    obtain ⟨signature, looked, form⟩ := Option.map_eq_some_iff.1 found
    rcases Catalogue.form_of_isKnown (Catalogue.isKnown_of_lookup? looked) with
      ⟨own, call, fixed⟩ | ⟨templates, -⟩
    · rw [form] at call
      exact Catalogue.Form.call.inj call ▸ Script.isWord_of_isFixed fixed
    · rw [form] at templates
      exact absurd templates (by simp)
  · exact word

private theorem composed_leftOperand : Composed graph placed
    ((planOf graph).leftOperand placed) := by
  refine composed_getD (fun expr found => ?_) composed_close
  obtain ⟨source, examined, read⟩ := Option.bind_eq_some_iff.1 found
  refine composed_read? ?_ read
  rcases Option.or_eq_some_iff.1 examined with first | ⟨-, second⟩
  · exact List.mem_of_find?_eq_some first
  · exact List.mem_of_find?_eq_some second

private theorem composed_rightOperand : Composed graph placed
    ((planOf graph).rightOperand placed) := by
  unfold Plan.rightOperand
  split
  · exact composed_number _
  · refine composed_getD (fun expr found => ?_) (composed_number _)
    obtain ⟨source, selected, read⟩ := Option.bind_eq_some_iff.1 found
    exact composed_read? (List.mem_of_find?_eq_some selected) read

private theorem composed_conditionExpr : Composed graph placed
    ((planOf graph).conditionExpr placed) := by
  have left : Composed graph placed ((planOf graph).leftOperand placed) := composed_leftOperand
  have right : Composed graph placed ((planOf graph).rightOperand placed) := composed_rightOperand
  have both : ∀ expr ∈ [(planOf graph).leftOperand placed, (planOf graph).rightOperand placed],
      Composed graph placed expr := by
    simpa using ⟨left, right⟩
  unfold Plan.conditionExpr compareExpr
  dsimp only
  split
  · exact composed_compare left right
  · exact composed_compare left right
  · exact composed_compare left right
  · exact composed_compare left right
  · exact composed_call (isWord_operatorFunction (by decide)) both
  · exact composed_call (isWord_operatorFunction (by decide)) both

private theorem composed_sessionExpr (node : Node) : Composed graph placed (sessionExpr node) := by
  have arguments : ∀ expr ∈ [Expr.name "timeframe.period",
      .string ((node.text? "session").getD Graph.defaultSession)], Composed graph placed expr := by
    rw [List.forall_mem_cons, List.forall_mem_singleton]
    exact ⟨composed_name (.fixed (by decide)), by simp [Expr.functions], by simp [Expr.reads]⟩
  have time : Composed graph placed (.call "time" _) := composed_call (by decide) arguments
  have called : Composed graph placed (.call "na" _) :=
    composed_call (by decide) (List.forall_mem_singleton.2 time)
  rw [Composed, sessionExpr, Expr.functions, Expr.reads]
  exact called

theorem composed_logicExpr {expr : Expr} (found : (planOf graph).logicExpr? placed = some expr) :
    Composed graph placed expr := by
  unfold Plan.logicExpr? at found
  split at found
  · exact Option.some.inj found ▸ composed_conditionExpr
  · exact Option.some.inj found ▸ composed_sessionExpr placed.node
  · exact absurd found (by simp)

theorem mem_definitions {statement : Statement} :
    statement ∈ (planOf graph).definitions ↔
      ∃ placed ∈ (planOf graph).order, ∃ binding expr,
        (planOf graph).names.bindingAt? placed.position = some binding ∧
        (planOf graph).logicExpr? placed = some expr ∧
        statement = .define binding.primary expr := by
  rw [Plan.definitions, List.mem_filterMap]
  constructor
  · rintro ⟨placed, member, found⟩
    split at found
    · rename_i expr binding composed bound
      exact ⟨placed, member, binding, expr, bound, composed, (Option.some.inj found).symm⟩
    · exact absurd found (by simp)
  · rintro ⟨placed, member, binding, expr, bound, composed, rfl⟩
    exact ⟨placed, member, by rw [bound, composed]⟩

end Definitions

end StrategyCompiler.Compilation
