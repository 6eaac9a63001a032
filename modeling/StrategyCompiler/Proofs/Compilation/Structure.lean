import StrategyCompiler.Compilation.Compile
import StrategyCompiler.Proofs.Compilation.Signals
import StrategyCompiler.Proofs.Validation.Verdict
/-!
The lines of a compiled script are sound, and so the check of its structure always passes.
-/

set_option autoImplicit false

namespace StrategyCompiler.Compilation

open Diagnostic (Error)
open StrategyCompiler.Graph (Index Placed)
open Script (Call CleanWords Expr Statement Tidy Writes checkStructure isWord)

variable {graph : Graph} {known : String → Prop}

/-- What nodes and plots read from nodes is known, or calculated in front of them. -/
structure Supplied (graph : Graph) (known : String → Prop) : Prop where
  fixed : ∀ name, Fixed name → known name
  calculated : ∀ before placed after, (planOf graph).order = before ++ placed :: after →
    ∀ source ∈ (planOf graph).suppliers placed,
      ∀ binding, (planOf graph).names.bindingAt? source.position = some binding →
        ∀ name ∈ binding.identifiers, known name ∨
          name ∈ (before.flatMap (planOf graph).calculationsOf).flatMap Statement.assigned
  plotted : ∀ name, Plotted graph name →
    known name ∨ name ∈ (planOf graph).calculations.flatMap Statement.assigned

theorem assignedIn_append (lines more : List Line) :
    assignedIn (lines ++ more) = assignedIn lines ++ assignedIn more :=
  List.flatMap_append

theorem assignedIn_statements (statements : List Statement) :
    assignedIn (statements.map Line.statement) = statements.flatMap Statement.assigned := by
  simp [assignedIn, List.flatMap_map, Line.assigned]

theorem assignedIn_orComment (text : String) (statements : List Statement) :
    assignedIn (Line.orComment text (statements.map Line.statement)) =
      statements.flatMap Statement.assigned := by
  cases statements with
  | nil => rfl
  | cons statement rest => exact assignedIn_statements (statement :: rest)

/-! ### Calculations -/

/-- A node in its place in the order reads what is known, an input, or what is calculated in front
of it. -/
theorem Supplied.readable (supplied : Supplied graph known) {before after : List Placed}
    {placed : Placed} (order : (planOf graph).order = before ++ placed :: after) {name : String}
    (readable : Readable graph placed name) :
    (known name ∨ name ∈ (planOf graph).inputs.flatMap Statement.assigned) ∨
      name ∈ (before.flatMap (planOf graph).calculationsOf).flatMap Statement.assigned := by
  cases readable with
  | fixed fixed => exact .inl (.inl (supplied.fixed name fixed))
  | input parameter found => exact .inl (.inr (mem_assigned_inputs found))
  | supplied source binding supplier bound member =>
    rcases supplied.calculated before placed after order source supplier binding bound name member
      with old | earlier
    · exact .inl (.inl old)
    · exact .inr earlier

private theorem Supplied.readable_in_order (supplied : Supplied graph known) {placed : Placed}
    (member : placed ∈ (planOf graph).order) {name : String}
    (readable : Readable graph placed name) :
    (known name ∨ name ∈ (planOf graph).inputs.flatMap Statement.assigned) ∨
      name ∈ (planOf graph).calculations.flatMap Statement.assigned := by
  obtain ⟨before, after, order⟩ := List.append_of_mem member
  refine (supplied.readable order readable).imp_right fun earlier => ?_
  rw [Plan.calculations, order, List.flatMap_append, List.flatMap_append]
  exact List.mem_append_left _ earlier

private theorem sound_calculationsFrom (supplied : Supplied graph known) {before rest : List Placed}
    (order : (planOf graph).order = before ++ rest) :
    Sound
      (fun name => (known name ∨ name ∈ (planOf graph).inputs.flatMap Statement.assigned) ∨
        name ∈ (before.flatMap (planOf graph).calculationsOf).flatMap Statement.assigned)
      ((rest.flatMap (planOf graph).calculationsOf).map Line.statement) := by
  -- `before` grows by the node that is written, and with it what the later nodes can read.
  induction rest generalizing before with
  | nil => exact Sound.nil
  | cons placed rest ih =>
    have found : graph.nodes[placed.position]? = some placed.node :=
      mem_order_planOf.1 (order ▸ by simp)
    have own := (sound_calculationsOf found).mono fun _ => supplied.readable order
    have behind : (planOf graph).order = (before ++ [placed]) ++ rest := by
      rw [order, List.append_assoc, List.singleton_append]
    have later := ih behind
    rw [List.flatMap_cons, List.map_append]
    refine own.append (later.mono fun name reason => ?_)
    rw [assignedIn_statements]
    simp only [List.flatMap_append, List.flatMap_singleton, List.mem_append] at reason
    tauto

private theorem sound_calculations (supplied : Supplied graph known) :
    Sound (fun name => known name ∨ name ∈ (planOf graph).inputs.flatMap Statement.assigned)
      ((planOf graph).calculations.map Line.statement) := by
  have start : (planOf graph).order = [] ++ (planOf graph).order := rfl
  refine (sound_calculationsFrom supplied start).mono fun name reason => ?_
  simpa using reason

/-! ### Logic -/

private theorem sound_calls {calls : List Call} {allowed : String → Prop}
    (limited : ∀ call ∈ calls, LimitedCall allowed call)
    (words : ∀ name, allowed name → isWord name = true)
    (implies : ∀ name, allowed name → known name) : Sound known (calls.map Line.call) := by
  refine Sound.of_forall (List.forall_mem_map.2 fun call member name read => ?_)
    (List.forall_mem_map.2 fun call member => ?_)
  · exact implies name ((limited call member).reads read)
  · exact tidy_statement ((limited call member).cleanWords words)

private theorem sound_call {call : Call} {allowed : String → Prop}
    (limited : LimitedCall allowed call)
    (words : ∀ name, allowed name → isWord name = true)
    (implies : ∀ name, allowed name → known name) : Sound known [.call call] :=
  Sound.statement (fun name read => implies name (limited.reads read)) (limited.cleanWords words)

private theorem sound_guardedLines {condition : String} {orders : List Call}
    (word : isWord condition = true) (holds : orders ≠ [] → known condition)
    (limited : ∀ call ∈ orders, LimitedCall Fixed call)
    (fixed : ∀ name, Fixed name → known name) :
    Sound known (Program.guardedLines condition orders) := by
  unfold Program.guardedLines
  split
  · exact Sound.nil
  · rename_i nonempty
    have held := holds (by simpa using nonempty)
    refine Sound.of_forall ?_ ?_
    · simp only [List.forall_mem_cons, List.forall_mem_map, Line.reads, List.not_mem_nil,
        false_implies, implies_true, true_and, and_true]
      exact ⟨held, fun call member name read => fixed name ((limited call member).reads read)⟩
    · simp only [List.forall_mem_cons, List.forall_mem_map]
      refine ⟨tidy_empty, tidy_guard (Script.clean_of_isWord word), fun call member => ?_⟩
      exact tidy_order ((limited call member).cleanWords fun _ => Script.isWord_of_isFixed)

private theorem isWord_of_mem_assigned {name : String}
    (member : name ∈ (planOf graph).definitions.flatMap Statement.assigned) :
    isWord name = true := by
  obtain ⟨statement, inside, assigned⟩ := List.mem_flatMap.1 member
  obtain ⟨placed, -, binding, expr, bound, -, rfl⟩ := mem_definitions.1 inside
  rw [List.mem_singleton.1 assigned]
  exact isWord_primary bound

private theorem sound_combined {name : String} {expr : Expr} {terms : List Expr}
    (word : isWord name = true)
    (join : JoinOf terms expr) (defined : Defined graph terms)
    (implies : ∀ name ∈ (planOf graph).definitions.flatMap Statement.assigned, known name) :
    Sound known [.statement (.define name expr)] := by
  refine Sound.statement (fun other read => ?_) ?_
  · exact implies other (defined.reads other (join.reads ▸ read))
  · refine CleanWords.append_iff.2 ⟨?_, CleanWords.append_iff.2 ⟨fun other read => ?_, ?_⟩⟩
    · exact cleanWords_of_all_isWord (by simpa [Script.Target.names] using word)
    · have own := defined.reads other (join.reads ▸ read)
      exact Script.clean_of_isWord (isWord_of_mem_assigned own)
    · rw [join.functions, defined.functions]
      exact fun _ absent => absurd absent List.not_mem_nil

section Program

variable (options : Options)

private theorem sound_combinedLines
    (defined : ∀ name ∈ (planOf graph).definitions.flatMap Statement.assigned, known name) :
    Sound known (Program.ofPlan options (planOf graph)).combinedLines := by
  have blank : Sound known [.empty] :=
    Sound.of_forall (by simp [Line.reads]) (List.forall_mem_singleton.2 tidy_empty)
  unfold Program.combinedLines
  refine Sound.append ?_ (Sound.mono (fun _ => .inl) ?_)
  · split
    · rename_i expr found
      obtain ⟨terms, join, own⟩ := entryExpr?_eq_some found
      have word : isWord Naming.entryCondition = true := by decide
      have definition := sound_combined word join own defined
      exact blank.append (definition.mono fun _ => .inl)
    · exact Sound.nil
  · split
    · rename_i expr found
      obtain ⟨terms, join, own⟩ := exitExpr?_eq_some found
      have word : isWord Naming.exitCondition = true := by decide
      have definition := sound_combined word join own defined
      refine Sound.append ?_ (definition.mono fun _ => .inl)
      split
      · exact blank
      · exact Sound.nil
    · exact Sound.nil

private theorem mem_assigned_combinedLines (program : Program) :
    (program.entry.isSome = true → Naming.entryCondition ∈ assignedIn program.combinedLines) ∧
      (program.exit.isSome = true → Naming.exitCondition ∈ assignedIn program.combinedLines) := by
  unfold Program.combinedLines
  constructor
  · intro defined
    obtain ⟨expr, found⟩ := Option.isSome_iff_exists.1 defined
    rw [found, assignedIn_append]
    exact List.mem_append_left _ (List.mem_singleton_self _)
  · intro defined
    obtain ⟨expr, found⟩ := Option.isSome_iff_exists.1 defined
    rw [found, assignedIn_append, assignedIn_append]
    exact List.mem_append_right _ (List.mem_append_right _ (List.mem_singleton_self _))

private theorem mem_assigned_logicLines (program : Program) :
    (program.entry.isSome = true → Naming.entryCondition ∈ assignedIn program.logicLines) ∧
      (program.exit.isSome = true → Naming.exitCondition ∈ assignedIn program.logicLines) := by
  have within : ∀ name ∈ assignedIn program.combinedLines,
      name ∈ assignedIn program.logicLines := by
    intro name member
    simp only [Program.logicLines, assignedIn_append, List.mem_append, member, or_true, true_or]
  have combined := mem_assigned_combinedLines program
  exact ⟨fun defined => within _ (combined.1 defined), fun defined => within _ (combined.2 defined)⟩

private theorem sound_protectionLines (fixed : ∀ name, Fixed name → known name) :
    Sound known (Program.ofPlan options (planOf graph)).protectionLines := by
  have limited : ∀ call ∈ (planOf graph).protections, LimitedCall Fixed call := by
    intro call member
    obtain ⟨placed, -, found⟩ := List.mem_filterMap.1 member
    split at found
    · exact limited_protection found
    · exact absurd found (by simp)
  have calls := sound_calls limited (fun _ => Script.isWord_of_isFixed) fixed
  unfold Program.protectionLines
  split
  · exact Sound.nil
  · refine Sound.of_forall ?_ ?_
    · rw [List.forall_mem_cons, List.forall_mem_cons]
      refine ⟨by simp [Line.reads], by simp [Line.comment, Line.reads], ?_⟩
      exact List.forall_mem_map.2 fun call member name read =>
        fixed name ((limited call member).reads read)
    · rw [List.forall_mem_cons, List.forall_mem_cons]
      exact ⟨tidy_empty, tidy_comment _, calls.tidy⟩

private theorem sound_definitions
    (readable : ∀ placed ∈ (planOf graph).order, ∀ name, Readable graph placed name → known name) :
    Sound known ((planOf graph).definitions.map Line.statement) := by
  refine Sound.statements (fun statement member name read => ?_) fun statement member => ?_
  · obtain ⟨placed, inside, binding, expr, -, found, rfl⟩ := mem_definitions.1 member
    exact readable placed inside name ((composed_logicExpr found).2 name read)
  · obtain ⟨placed, -, binding, expr, bound, found, rfl⟩ := mem_definitions.1 member
    exact (written_define (isWord_primary bound) (composed_logicExpr found)).words

private theorem sound_logicLines (fixed : ∀ name, Fixed name → known name)
    (readable : ∀ placed ∈ (planOf graph).order, ∀ name, Readable graph placed name → known name) :
    Sound known (Program.ofPlan options (planOf graph)).logicLines := by
  have combined := mem_assigned_combinedLines (Program.ofPlan options (planOf graph))
  have entryOrders : ∀ call ∈ (planOf graph).entryOrders, LimitedCall Fixed call :=
    List.forall_mem_map.2 fun placed _ => limited_entryOrder placed.node
  have exitOrders : ∀ call ∈ (planOf graph).exitOrders, LimitedCall Fixed call :=
    List.forall_mem_map.2 fun placed _ => limited_exitOrder placed.node
  unfold Program.logicLines
  have definitions := sound_definitions readable
  refine ((((definitions.append ?_).append ?_).append ?_).append ?_).append ?_
  · refine sound_combinedLines options fun name member => .inr ?_
    rw [assignedIn_statements]
    exact member
  · refine sound_guardedLines (by decide) (fun orders => .inr ?_) entryOrders
      fun name own => .inl (fixed name own)
    rw [assignedIn_append]
    exact List.mem_append_right _ (combined.1 (isSome_entryExpr? orders))
  · refine sound_guardedLines (by decide) (fun orders => .inr ?_) exitOrders
      fun name own => .inl (fixed name own)
    rw [assignedIn_append, assignedIn_append]
    exact List.mem_append_left _ (List.mem_append_right _ (combined.2 (isSome_exitExpr? orders)))
  · exact sound_protectionLines options fun name own => .inl (fixed name own)
  · split
    · exact Sound.comment _
    · exact Sound.nil

/-! ### Plots -/

private theorem sound_plotLines (shown : ∀ name, Shown graph name → known name)
    (entry : (planOf graph).entryExpr?.isSome = true → known Naming.entryCondition)
    (exit : (planOf graph).exitExpr?.isSome = true → known Naming.exitCondition) :
    Sound known (Program.ofPlan options (planOf graph)).plotLines := by
  have marked {condition : String} {call : Call} (word : isWord condition = true)
      (holds : known condition)
      (limited : LimitedCall (fun name => Fixed name ∨ name = condition) call) :
      Sound known [.call call] := by
    refine sound_call limited ?_ ?_
    · rintro name (own | rfl)
      · exact Script.isWord_of_isFixed own
      · exact word
    · rintro name (own | rfl)
      · exact shown name (.inl own)
      · exact holds
  have plots := sound_calls (limited_plots graph) (fun _ => Shown.isWord) shown
  unfold Program.plotLines
  refine (plots.append ?_).append ?_
  · refine Sound.mono (fun _ => .inl) ?_
    split
    · rename_i defined
      refine marked (by decide) (entry defined) ?_
      exact limited_marker _ (fun _ => .inl) (.inr rfl) (by decide)
    · exact Sound.nil
  · refine Sound.mono (fun _ => .inl) ?_
    split
    · rename_i defined
      refine marked (by decide) (exit defined) ?_
      exact limited_marker _ (fun _ => .inl) (.inr rfl) (by decide)
    · exact Sound.nil

/-! ### Scripts -/

theorem sound_declaration (fixed : ∀ name, Fixed name → known name) :
    Sound known [.call options.declaration] :=
  sound_call (limited_declaration options) (fun _ => Script.isWord_of_isFixed) fixed

theorem tidy_versionLine : Tidy options.versionLine.toList := by
  have flat : Script.Flat ("@version=".toList ++ (toString options.version).toList) :=
    (Script.Clean.ofPlain (by decide)).flat.append (Number.clean_toString_nat _).flat
  have tidy := Tidy.comment flat
  simpa [Options.versionLine] using tidy

private theorem isVersioned : "//@version=".toList <:+: options.versionLine.toList := by
  rw [Options.versionLine, String.toList_append]
  exact (List.prefix_append _ _).isInfix

theorem sound_lines (supplied : Supplied graph known) :
    Sound known (Program.ofPlan options (planOf graph)).lines := by
  have body : Sound known (Program.ofPlan options (planOf graph)).bodyLines := by
    unfold Program.bodyLines
    refine ((((((((sound_declaration options supplied.fixed).append
      (Sound.banner (by decide))).append ?inputs).append (Sound.banner (by decide))).append
      ?calculations).append (Sound.banner (by decide))).append ?logic).append
      (Sound.banner (by decide))).append ?plots
    case inputs =>
      exact ((sound_inputs graph).mono fun name own => .inl (supplied.fixed name own)).orComment _
    case calculations =>
      refine ((sound_calculations supplied).mono fun name reason => ?_).orComment _
      refine reason.imp_right fun input => ?_
      simp only [Program.ofPlan, assignedIn_append, assignedIn_orComment, List.mem_append, input,
        or_true, true_or]
    case logic =>
      refine sound_logicLines options (fun name own => .inl (supplied.fixed name own)) ?_
      intro placed member name readable
      rcases supplied.readable_in_order member readable with (old | input) | calculated
      · exact .inl old
      · right
        simp only [Program.ofPlan, assignedIn_append, assignedIn_orComment, List.mem_append, input,
          or_true, true_or]
      · right
        simp only [Program.ofPlan, assignedIn_append, assignedIn_orComment, List.mem_append,
          calculated, or_true, true_or]
    case plots =>
      have combined := mem_assigned_logicLines (Program.ofPlan options (planOf graph))
      refine sound_plotLines options ?_ ?_ ?_
      · rintro name (fixed | plotted)
        · exact .inl (supplied.fixed name fixed)
        · refine (supplied.plotted name plotted).imp_right fun calculated => ?_
          simp only [Program.ofPlan, assignedIn_append, assignedIn_orComment, List.mem_append,
            calculated, or_true, true_or]
      · intro defined
        right
        simp only [assignedIn_append, List.mem_append, combined.1 defined, or_true, true_or]
      · intro defined
        right
        simp only [assignedIn_append, List.mem_append, combined.2 defined, or_true, true_or]
  refine ⟨⟨fun _ absent => absurd absent List.not_mem_nil, body.inOrder.mono fun _ => .inl⟩, ?_⟩
  exact List.forall_mem_cons.2 ⟨tidy_versionLine options, body.tidy⟩

theorem declares :
    "strategy(".toList <:+: (Line.call options.declaration).render.toList := by
  have shape : options.declaration.render.toList = "strategy(".toList ++
      ((", ".intercalate (options.declaration.arguments.map Script.Argument.render)).toList ++
        ")".toList) := by
    simp [Call.render, Options.declaration]
  exact ⟨[], _, by rw [List.nil_append, Line.call, Line.render, Statement.render, shape]⟩

theorem checkStructure_program (graph : Graph) :
    checkStructure (Program.ofPlan options (planOf graph)).render = .ok () := by
  have supplied : Supplied graph fun _ => True :=
    ⟨fun _ _ => trivial, by simp, fun _ _ => .inl trivial⟩
  have tidy := (sound_lines options supplied).tidy
  rw [Program.render, Program.steps_eq]
  refine Script.checkStructure_layout (Options.versionLine_ne _) (writes_bodySteps _) ?_
    (isVersioned options) ?_
  · rw [Program.lines, List.forall_mem_cons] at tidy
    exact List.forall_mem_cons.2 ⟨tidy.1, List.forall_mem_map.2 tidy.2⟩
  · exact ⟨_, List.mem_map_of_mem List.mem_cons_self, declares options⟩

/-- The lines of the script for errors, behind the one of the version. -/
def fallbackLines (errors : List Error) : List Line :=
  [.call options.declaration] ++ Line.banner "Generation Failed" ++
    [.comment "The strategy graph could not be compiled:"] ++
    (errors.map fun error => .comment ("ERROR: " ++ error.message)) ++ [.empty, .call pricePlot]

private theorem writes_comments (texts : List String) :
    Writes (texts.map .comment) (texts.map Script.commentLine) := by
  induction texts with
  | nil => exact Writes.nil
  | cons text rest ih => exact (Writes.comment text).append ih

theorem writes_fallback (errors : List Error) :
    ∃ steps, fallbackSteps options errors = .line options.versionLine :: steps ∧
      Writes steps ((fallbackLines options errors).map Line.render) := by
  refine ⟨_, rfl, ?_⟩
  have comments := writes_comments (errors.map fun error => "ERROR: " ++ error.message)
  have price : Writes [.blank, .line pricePlot.render] ["", pricePlot.render] :=
    Writes.spaced (prints_calls [pricePlot]) (by simp) (writes_calls [pricePlot]).ends
  have whole := ((((writes_calls [options.declaration]).append
    (writes_banner "Generation Failed")).append
    (Writes.comment "The strategy graph could not be compiled:")).append comments).append price
  simpa [fallbackLines, Program.callLines, Line.comment, Line.call, Line.render, Statement.render,
    Function.comp_def] using whole

theorem sound_fallbackLines (errors : List Error) :
    Sound (fun _ => True) (fallbackLines options errors) := by
  have price : Sound Fixed [.call pricePlot] :=
    sound_call (limited_pricePlot fun _ own => own) (fun _ => Script.isWord_of_isFixed)
      fun _ own => own
  refine Sound.of_forall (fun _ _ _ _ => trivial) ?_
  simp only [fallbackLines, List.forall_mem_append, List.forall_mem_map]
  refine ⟨⟨⟨⟨?_, tidy_banner (by decide)⟩, ?_⟩, fun _ _ => tidy_comment _⟩, ?_⟩
  · exact (sound_declaration options fun _ own => own).tidy
  · exact List.forall_mem_singleton.2 (tidy_comment _)
  · exact List.forall_mem_cons.2 ⟨tidy_empty, price.tidy⟩

theorem checkStructure_fallback (errors : List Error) :
    checkStructure (fallbackScript options errors) = .ok () := by
  obtain ⟨steps, shape, writes⟩ := writes_fallback options errors
  rw [fallbackScript, shape]
  refine Script.checkStructure_layout options.versionLine_ne writes ?_ (isVersioned options) ?_
  · refine List.forall_mem_cons.2 ⟨tidy_versionLine options, List.forall_mem_map.2 ?_⟩
    exact (sound_fallbackLines options errors).tidy
  · exact ⟨_, List.mem_map_of_mem List.mem_cons_self, declares options⟩

private theorem generate_planOf (graph : Graph) (warnings : List Diagnostic.Warning) :
    (generate options (planOf graph) warnings).success = true ∧
      (generate options (planOf graph) warnings).errors = [] ∧
      (generate options (planOf graph) warnings).code =
        (Program.ofPlan options (planOf graph)).render := by
  simp [generate, checkStructure_program]

theorem compile_of_valid (valid : (Validation.validate Catalogue.builtin graph).errors = []) :
    (compile Catalogue.builtin options graph).success = true ∧
      (compile Catalogue.builtin options graph).errors = [] ∧
      (compile Catalogue.builtin options graph).code =
        (Program.ofPlan options (planOf graph)).render := by
  have empty :
      (Validation.validateIndex Catalogue.builtin (.ofGraph graph)).errors.isEmpty = true :=
    List.isEmpty_iff.2 valid
  unfold compile
  dsimp only
  rw [if_pos empty]
  exact generate_planOf options graph _

theorem compile_of_invalid (invalid : (Validation.validate Catalogue.builtin graph).errors ≠ []) :
    (compile Catalogue.builtin options graph).success = false ∧
      (compile Catalogue.builtin options graph).errors =
        (Validation.validate Catalogue.builtin graph).errors ∧
      (compile Catalogue.builtin options graph).code =
        fallbackScript options (Validation.validate Catalogue.builtin graph).errors := by
  have nonempty :
      ¬ (Validation.validateIndex Catalogue.builtin (.ofGraph graph)).errors.isEmpty = true :=
    fun empty => invalid (List.isEmpty_iff.1 empty)
  unfold compile
  dsimp only
  rw [if_neg nonempty]
  exact ⟨rfl, rfl, rfl⟩

end Program

/-- A compilation succeeds exactly when the checks of the graph find no error: no text of a graph or
of options breaks the structure of the script, be it the one of the graph or the one that tells of
the errors. -/
theorem compile_succeeds_iff (options : Options) (graph : Graph) :
    ((compile Catalogue.builtin options graph).success = true ↔
        (Validation.validate Catalogue.builtin graph).errors = []) ∧
      (compile Catalogue.builtin options graph).errors =
        (Validation.validate Catalogue.builtin graph).errors ∧
      (∀ fault, Error.badStructure fault ∉ (compile Catalogue.builtin options graph).errors) ∧
      checkStructure (compile Catalogue.builtin options graph).code = .ok () ∧
      checkStructure (Program.ofPlan options (planOf graph)).render = .ok () := by
  have unreachable : ∀ fault,
      Error.badStructure fault ∉ (Validation.validate Catalogue.builtin graph).errors := by
    intro fault member
    have other := Validation.not_isStructural_of_mem_validate member
    exact absurd other (by simp [Validation.isStructural])
  by_cases valid : (Validation.validate Catalogue.builtin graph).errors = []
  · obtain ⟨success, errors, code⟩ := compile_of_valid options valid
    rw [errors, code, valid]
    exact ⟨iff_of_true success rfl, rfl, fun _ => List.not_mem_nil,
      checkStructure_program options graph, checkStructure_program options graph⟩
  · obtain ⟨success, errors, code⟩ := compile_of_invalid options valid
    rw [errors, code]
    refine ⟨iff_of_false (by simp [success]) valid, rfl, unreachable, ?_, ?_⟩
    · exact checkStructure_fallback options _
    · exact checkStructure_program options graph

end StrategyCompiler.Compilation
