import StrategyCompiler.Proofs.Compilation.Blocks
/-!
Where a script trades.  It calls the function for opening positions under the condition for entries
only, the one for closing them under the condition for exits only, and the one for protecting them
outside of blocks; no other line calls any of these.
-/

set_option autoImplicit false

namespace StrategyCompiler.Compilation

open StrategyCompiler.Graph (Placed)
open Script (Call Statement)

variable {graph : Graph}

/-! ### Calls of a script -/

def tradingFunctions : List String := ["strategy.entry", "strategy.close_all", "strategy.exit"]

def Idle (lines : List Line) : Prop :=
  ∀ line ∈ lines, ∀ function ∈ line.form.function?, function ∉ tradingFunctions

theorem Idle.append {lines more : List Line} (front : Idle lines) (back : Idle more) :
    Idle (lines ++ more) :=
  List.forall_mem_append.2 ⟨front, back⟩

private theorem Idle.callsOf_eq {lines : List Line} (idle : Idle lines) {function : String}
    (trades : function ∈ tradingFunctions) : Line.callsOf function lines = [] :=
  callsOf_eq_nil fun line member called => idle line member function called trades

def Assigning (statements : List Statement) : Prop :=
  ∀ statement ∈ statements, ∃ target source, statement = .assign target source

theorem Assigning.idle {statements : List Statement} (assigning : Assigning statements) :
    Idle (statements.map .statement) := by
  refine List.forall_mem_map.2 fun statement member => ?_
  obtain ⟨target, source, rfl⟩ := assigning statement member
  cases target <;> simp [Line.form, Form.function?]

private theorem idle_orComment {text : String} {lines : List Line} (idle : Idle lines) :
    Idle (Line.orComment text lines) := by
  unfold Line.orComment
  split
  · exact List.forall_mem_singleton.2 (by simp [Line.comment, Line.form, Form.function?])
  · exact idle

private theorem idle_calls {calls : List Call}
    (each : ∀ call ∈ calls, call.function ∉ tradingFunctions) : Idle (calls.map .call) := by
  refine List.forall_mem_map.2 fun call member => ?_
  rintro _ ⟨⟩
  exact each call member

private theorem idle_banner (title : String) : Idle (Line.banner title) := by
  refine List.forall_mem_cons.2 ⟨by simp [Line.form, Form.function?], ?_⟩
  exact List.forall_mem_map.2 fun text _ => by simp [Line.form, Form.function?]

private theorem idle_combinedLines (program : Program) : Idle program.combinedLines := by
  have blank : Idle [.empty] := by simp [Idle, Line.form, Form.function?]
  have define (name : String) (expr : Script.Expr) : Idle [.statement (.define name expr)] :=
    Assigning.idle (List.forall_mem_singleton.2 ⟨_, _, rfl⟩)
  unfold Program.combinedLines
  cases program.entry with
  | none =>
    cases program.exit with
    | none => exact fun _ absent => absurd absent List.not_mem_nil
    | some expr => exact blank.append (define _ expr)
  | some expr =>
    have entry := blank.append (define Naming.entryCondition expr)
    cases program.exit with
    | none => exact entry
    | some other => exact entry.append (define _ other)

private theorem assigning_inputs : Assigning (planOf graph).inputs := by
  intro statement member
  obtain ⟨⟨placed, signature⟩, -, inside⟩ := List.mem_flatMap.1 member
  obtain ⟨parameter, -, bound⟩ := List.mem_filterMap.1 inside
  obtain ⟨name, -, declaration⟩ := Option.bind_eq_some_iff.1 bound
  obtain ⟨function, -, rfl⟩ := Option.map_eq_some_iff.1 declaration
  exact ⟨_, _, rfl⟩

private theorem assigning_calculations : Assigning (planOf graph).calculations := by
  intro statement member
  obtain ⟨placed, -, inside⟩ := List.mem_flatMap.1 member
  unfold Plan.calculationsOf at inside
  split at inside
  · unfold Plan.securityLine? at inside
    split at inside
    · exact ⟨_, _, List.mem_singleton.1 inside⟩
    · exact absurd inside (by simp)
  · unfold Plan.indicatorLines at inside
    split at inside
    · dsimp only at inside
      split at inside
      · exact ⟨_, _, List.mem_singleton.1 inside⟩
      · rw [← List.map_uncurry_zip_eq_zipWith] at inside
        obtain ⟨_, -, rfl⟩ := List.mem_map.1 inside
        exact ⟨_, _, rfl⟩
    · exact absurd inside (by simp)
  · unfold Plan.mathLine? at inside
    split at inside
    · exact ⟨_, _, List.mem_singleton.1 inside⟩
    · exact absurd inside (by simp)
  · exact absurd inside (by simp)

private theorem assigning_definitions : Assigning (planOf graph).definitions := by
  intro statement member
  obtain ⟨placed, -, binding, expr, -, -, rfl⟩ := mem_definitions.1 member
  exact ⟨_, _, rfl⟩

private theorem function_of_mem_plotCalls {call : Call} {number : Nat} {series : List Series}
    (member : call ∈ plotCalls number series) : call.function = "plot" := by
  induction series generalizing number with
  | nil => exact absurd member List.not_mem_nil
  | cons own rest ih =>
    rcases List.mem_cons.1 member with rfl | later
    · rfl
    · exact ih later

private theorem function_of_mem_plots {call : Call} (member : call ∈ (planOf graph).plots) :
    call.function ∈ ["plot", "hline"] := by
  have each (indicators : List (Placed × Catalogue.Signature)) (number : Nat) :
      ∀ call ∈ (planOf graph).indicatorPlotsFrom number indicators,
        call.function ∈ ["plot", "hline"] := by
    induction indicators generalizing number with
    | nil => exact fun _ absent => absurd absent List.not_mem_nil
    | cons indicator rest ih =>
      simp only [Plan.indicatorPlotsFrom, List.forall_mem_append, List.forall_mem_map]
      refine ⟨⟨fun call member => ?_, fun reference _ => ?_⟩, ih _⟩
      · rw [function_of_mem_plotCalls member]
        exact List.mem_cons_self
      · exact List.mem_cons_of_mem _ List.mem_cons_self
  rcases List.mem_append.1 member with indicator | price
  · exact each _ _ call indicator
  · split at price
    · rw [List.mem_singleton.1 price]
      decide
    · exact absurd price List.not_mem_nil

section Program

variable (options : Options) (graph)

private theorem idle_leadingLines : Idle (Program.ofPlan options (planOf graph)).leadingLines := by
  have head : Idle [.note (Program.ofPlan options (planOf graph)).options.versionLine,
      .call (Program.ofPlan options (planOf graph)).options.declaration] := by
    refine List.forall_mem_cons.2 ⟨by simp [Line.form, Form.function?], ?_⟩
    have declares : "strategy" ∉ tradingFunctions := by decide
    exact idle_calls (List.forall_mem_singleton.2 declares)
  exact (((((head.append (idle_banner "Inputs")).append
    (idle_orComment assigning_inputs.idle)).append (idle_banner "Calculations")).append
    (idle_orComment assigning_calculations.idle)).append (idle_banner "Strategy Logic")).append
    assigning_definitions.idle

private theorem idle_plotLines : Idle (Program.ofPlan options (planOf graph)).plotLines := by
  have each : ∀ function ∈ ["plot", "hline"], function ∉ tradingFunctions := by decide
  have plots : Idle ((planOf graph).plots.map .call) :=
    idle_calls fun call member => each _ (function_of_mem_plots member)
  have marker (shown : Bool) {call : Call} (own : call.function = "plotshape") :
      Idle (if shown then [.call call] else []) := by
    cases shown with
    | false => exact fun _ absent => absurd absent List.not_mem_nil
    | true => exact idle_calls (List.forall_mem_singleton.2 (by rw [own]; decide))
  exact (plots.append (marker _ rfl)).append (marker _ rfl)

def Program.frontLines (program : Program) : List Line :=
  program.leadingLines ++ program.combinedLines

def Program.backLines (program : Program) : List Line :=
  (if program.definitions.isEmpty && program.protections.isEmpty then
    [.comment "No trading logic"]
  else []) ++ Line.banner "Plots" ++ program.plotLines

private theorem Program.lines_orders (program : Program) :
    program.lines = program.frontLines ++
      (guardedLines Naming.entryCondition program.entryOrders ++
        (guardedLines Naming.exitCondition program.exitOrders ++
          (program.protectionLines ++ program.backLines))) := by
  simp only [lines_around, frontLines, closingLines, backLines, List.append_assoc]

def Loose (lines : List Line) : Prop := ∀ line ∈ lines, line.inBlock = false

theorem Loose.append {lines more : List Line} (front : Loose lines) (back : Loose more) :
    Loose (lines ++ more) :=
  List.forall_mem_append.2 ⟨front, back⟩

private theorem Loose.guarded?_eq_nil {lines : List Line} (loose : Loose lines) :
    lines.filterMap (fun line => line.form.guarded?) = [] :=
  List.filterMap_eq_nil_iff.2 fun line member =>
    (Line.isOrder_of_inBlock (loose line member)).2

private theorem loose_map {α : Type} (items : List α) {line : α → Line}
    (alone : ∀ item, (line item).inBlock = false) : Loose (items.map line) :=
  List.forall_mem_map.2 fun item _ => alone item

private theorem loose_banner (title : String) : Loose (Line.banner title) :=
  List.forall_mem_cons.2 ⟨rfl, loose_map _ fun _ => rfl⟩

private theorem loose_orComment (text : String) (statements : List Statement) :
    Loose (Line.orComment text (statements.map .statement)) := by
  unfold Line.orComment
  split
  · exact List.forall_mem_singleton.2 rfl
  · exact loose_map statements fun _ => rfl

private theorem loose_combinedLines (program : Program) : Loose program.combinedLines := by
  unfold Program.combinedLines
  cases program.entry <;> cases program.exit <;> simp [Loose, Line.inBlock]

private theorem loose_protectionLines (program : Program) : Loose program.protectionLines := by
  unfold Program.protectionLines
  split
  · simp [Loose]
  · exact List.forall_mem_cons.2
      ⟨rfl, List.forall_mem_cons.2 ⟨rfl, loose_map program.protections fun _ => rfl⟩⟩

private theorem loose_frontLines (program : Program) : Loose program.frontLines := by
  have head : Loose [.note program.options.versionLine, .call program.options.declaration] :=
    List.forall_mem_cons.2 ⟨rfl, List.forall_mem_singleton.2 rfl⟩
  have definitions : Loose (program.definitions.map Line.statement) :=
    loose_map program.definitions fun _ => rfl
  exact ((((((head.append (loose_banner "Inputs")).append (loose_orComment _ _)).append
    (loose_banner "Calculations")).append (loose_orComment _ _)).append
    (loose_banner "Strategy Logic")).append definitions).append (loose_combinedLines program)

private theorem loose_backLines (program : Program) : Loose program.backLines := by
  have comment (shown : Bool) :
      Loose (if shown then [Line.comment "No trading logic"] else []) := by
    cases shown <;> simp [Loose, Line.comment, Line.inBlock]
  have marker (shown : Bool) (call : Call) : Loose (if shown then [Line.call call] else []) := by
    cases shown <;> simp [Loose, Line.call, Line.inBlock]
  have plots : Loose (program.plots.map Line.call) := loose_map program.plots fun _ => rfl
  exact ((comment _).append (loose_banner "Plots")).append
    ((plots.append (marker _ entryMarker)).append (marker _ exitMarker))

private theorem idle_backLines : Idle (Program.ofPlan options (planOf graph)).backLines := by
  have comment (shown : Bool) :
      Idle (if shown then [Line.comment "No trading logic"] else []) := by
    cases shown <;> simp [Idle, Line.comment, Line.form, Form.function?]
  exact ((comment _).append (idle_banner "Plots")).append (idle_plotLines graph options)

end Program

private theorem Program.callsOf_lines {program : Program} (front : Idle program.frontLines)
    (back : Idle program.backLines) {function : String} (trades : function ∈ tradingFunctions) :
    Line.callsOf function program.lines =
      Line.callsOf function (guardedLines Naming.entryCondition program.entryOrders) ++
        (Line.callsOf function (guardedLines Naming.exitCondition program.exitOrders) ++
          Line.callsOf function program.protectionLines) := by
  have entry := grouped_guardedLines Naming.entryCondition program.entryOrders
  have exit := grouped_guardedLines Naming.exitCondition program.exitOrders
  have protection := grouped_protectionLines program
  have closing : Grouped program.backLines := .of_forall (loose_backLines program)
  have tail := protection.append closing
  have leading : Grouped program.frontLines := .of_forall (loose_frontLines program)
  rw [lines_orders, leading.callsOf_append (entry.append (exit.append tail)),
    entry.callsOf_append (exit.append tail), exit.callsOf_append tail,
    protection.callsOf_append closing, front.callsOf_eq trades,
    back.callsOf_eq trades, List.nil_append, List.append_nil]

private theorem silent_of_headed {function : String} {head : Line} {line : Call → Line}
    {calls : List Call}
    (quiet : head.form.function? = none)
    (form : ∀ call, (line call).form.function? = some call.function)
    (other : ∀ call ∈ calls, call.function ≠ function) :
    Line.callsOf function
      (if calls.isEmpty then [] else .empty :: head :: calls.map line) = [] := by
  refine callsOf_eq_nil fun own member => ?_
  split at member
  · exact absurd member List.not_mem_nil
  · rcases List.mem_cons.1 member with rfl | inside
    · simp [Line.form, Form.function?]
    rcases List.mem_cons.1 inside with rfl | stands
    · simp [quiet]
    obtain ⟨call, listed, rfl⟩ := List.mem_map.1 stands
    rw [form call]
    exact fun same => other call listed (Option.some.inj same)

private theorem silent_guardedLines {condition function : String} {orders : List Call}
    (other : ∀ order ∈ orders, order.function ≠ function) :
    Line.callsOf function (Program.guardedLines condition orders) = [] :=
  silent_of_headed rfl (fun _ => rfl) other

theorem Loose.conditional_eq {lines : List Line} (loose : Loose lines) :
    Line.conditional none lines = lines.map fun line => (none, line) := by
  induction lines with
  | nil => rfl
  | cons line rest ih =>
    obtain ⟨here, later⟩ := List.forall_mem_cons.1 loose
    obtain ⟨unordered, unguarded⟩ := Line.isOrder_of_inBlock here
    rw [Line.conditional, unordered, unguarded, if_neg Bool.false_ne_true, ih later, List.map_cons]

private theorem Program.callsOf_protectionLines {program : Program} {function : String}
    (called : ∀ call ∈ program.protections, call.function = function) :
    Line.callsOf function program.protectionLines =
      program.protections.map fun call => (none, .call call) := by
  unfold protectionLines
  split
  · rename_i empty
    rw [List.isEmpty_iff.1 empty]
    rfl
  · have loose : Loose (.empty :: .comment "Risk management" ::
        program.protections.map Line.call) := by
      simp [Loose, Line.comment, Line.call, Line.inBlock]
    have each : ∀ own ∈ program.protections.map fun call =>
        ((none : Option String), Line.call call),
        (own.2.form.function? == some function) = true :=
      List.forall_mem_map.2 fun call member =>
        beq_iff_eq.2 (congrArg some (called call member))
    rw [Line.callsOf, loose.conditional_eq, List.map_cons, List.map_cons, List.map_map,
      List.filter_cons, List.filter_cons]
    exact List.filter_eq_self.2 each

private theorem Program.silent_protectionLines {program : Program} {function : String}
    (other : ∀ call ∈ program.protections, call.function ≠ function) :
    Line.callsOf function program.protectionLines = [] :=
  silent_of_headed rfl (fun _ => rfl) other

private theorem function_of_mem_entryOrders {call : Call}
    (member : call ∈ (planOf graph).entryOrders) :
    call.function = "strategy.entry" := by
  obtain ⟨placed, -, rfl⟩ := List.mem_map.1 member
  rfl

private theorem function_of_mem_exitOrders {call : Call}
    (member : call ∈ (planOf graph).exitOrders) :
    call.function = "strategy.close_all" := by
  obtain ⟨placed, -, rfl⟩ := List.mem_map.1 member
  rfl

private theorem function_of_mem_protections {call : Call}
    (member : call ∈ (planOf graph).protections) :
    call.function = "strategy.exit" := by
  obtain ⟨placed, -, found⟩ := List.mem_filterMap.1 member
  split at found
  · unfold protection? at found
    dsimp only at found
    split at found
    · exact absurd found (by simp)
    · rw [← Option.some.inj found]
  · exact absurd found (by simp)

structure Trades (program : Program) : Prop where
  front : Idle program.frontLines
  back : Idle program.backLines
  entries : ∀ call ∈ program.entryOrders, call.function = "strategy.entry"
  exits : ∀ call ∈ program.exitOrders, call.function = "strategy.close_all"
  protections : ∀ call ∈ program.protections, call.function = "strategy.exit"

theorem trades_ofPlan (options : Options) (graph : Graph) :
    Trades (Program.ofPlan options (planOf graph)) where
  front := (idle_leadingLines graph options).append (idle_combinedLines _)
  back := idle_backLines graph options
  entries := fun _ => function_of_mem_entryOrders
  exits := fun _ => function_of_mem_exitOrders
  protections := fun _ => function_of_mem_protections

section Trades

variable {program : Program} (trades : Trades program)
include trades

theorem Trades.callsOf_entry :
    Line.callsOf "strategy.entry" program.lines =
      program.entryOrders.map fun call => (some Naming.entryCondition, .order call) := by
  have exits : ∀ call ∈ program.exitOrders, call.function ≠ "strategy.entry" :=
    fun call member => trades.exits call member ▸ by decide
  have protections : ∀ call ∈ program.protections, call.function ≠ "strategy.entry" :=
    fun call member => trades.protections call member ▸ by decide
  rw [Program.callsOf_lines trades.front trades.back (by decide),
    callsOf_guardedLines trades.entries, silent_guardedLines exits,
    Program.silent_protectionLines protections, List.append_nil, List.append_nil]

theorem Trades.callsOf_exit :
    Line.callsOf "strategy.close_all" program.lines =
      program.exitOrders.map fun call => (some Naming.exitCondition, .order call) := by
  have entries : ∀ call ∈ program.entryOrders, call.function ≠ "strategy.close_all" :=
    fun call member => trades.entries call member ▸ by decide
  have protections : ∀ call ∈ program.protections, call.function ≠ "strategy.close_all" :=
    fun call member => trades.protections call member ▸ by decide
  rw [Program.callsOf_lines trades.front trades.back (by decide), silent_guardedLines entries,
    callsOf_guardedLines trades.exits, Program.silent_protectionLines protections,
    List.append_nil, List.nil_append]

theorem Trades.callsOf_protection :
    Line.callsOf "strategy.exit" program.lines =
      program.protections.map fun call => (none, .call call) := by
  have entries : ∀ call ∈ program.entryOrders, call.function ≠ "strategy.exit" :=
    fun call member => trades.entries call member ▸ by decide
  have exits : ∀ call ∈ program.exitOrders, call.function ≠ "strategy.exit" :=
    fun call member => trades.exits call member ▸ by decide
  rw [Program.callsOf_lines trades.front trades.back (by decide), silent_guardedLines entries,
    silent_guardedLines exits, Program.callsOf_protectionLines trades.protections,
    List.nil_append, List.nil_append]

end Trades

theorem Program.guarded?_lines (program : Program) :
    program.lines.filterMap (fun line => line.form.guarded?) =
      (if program.entryOrders.isEmpty then [] else [Naming.entryCondition]) ++
        (if program.exitOrders.isEmpty then [] else [Naming.exitCondition]) := by
  have block (condition : String) (orders : List Call) :
      (guardedLines condition orders).filterMap (fun line => line.form.guarded?) =
        if orders.isEmpty then [] else [condition] := by
    unfold guardedLines
    split
    · rfl
    · simp [Line.form, Form.guarded?]
  simp only [lines_orders, List.filterMap_append, (loose_frontLines program).guarded?_eq_nil,
    (loose_protectionLines program).guarded?_eq_nil, (loose_backLines program).guarded?_eq_nil,
    block, List.nil_append, List.append_nil]

theorem callsOf_render (options : Options) (graph : Graph) (function : String) :
    callsOf function (Program.ofPlan options (planOf graph)).render =
      (Line.callsOf function (Program.ofPlan options (planOf graph)).lines).map fun own =>
        (own.1, own.2.render) := by
  have readings := readings_lines options graph
  have lines : Text.lines (Program.ofPlan options (planOf graph)).render = _ :=
    lines_render_of_flat graph (flatTexts_of_regular regular_builtin) options
  rw [callsOf, lines]
  refine (congrArg (List.filter _) (conditional_render readings none)).trans ?_
  rw [List.filter_map, Line.callsOf]
  refine congrArg (List.map _) (List.filter_congr fun own member => ?_)
  rw [Function.comp_apply, (readings own.2 (snd_mem_of_mem_conditional member)).2.2]

theorem guard?_render (options : Options) (graph : Graph) :
    (Text.lines (Program.ofPlan options (planOf graph)).render).filterMap guard? =
      (Program.ofPlan options (planOf graph)).lines.filterMap fun line => line.form.guarded? := by
  have readings := readings_lines options graph
  have lines : Text.lines (Program.ofPlan options (planOf graph)).render = _ :=
    lines_render_of_flat graph (flatTexts_of_regular regular_builtin) options
  rw [lines]
  refine List.filterMap_map.trans ?_
  exact List.filterMap_congr fun line member => (readings line member).2.1

end StrategyCompiler.Compilation
