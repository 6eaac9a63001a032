import StrategyCompiler.Compilation.Program
import StrategyCompiler.Proofs.Script.Layout
import StrategyCompiler.Proofs.Script.Words
/-!
The lines of a script with what they read and assign.  The text of a program has exactly these
lines.
-/

set_option autoImplicit false

namespace StrategyCompiler.Compilation

open Script (Call Expr Statement Step Prints Writes)
open Script.Page (bannerRule)

/-- A line of a script: an empty one, a comment, a statement, the head of a block, or a call in
it. -/
inductive Line
  | empty
  | note (text : String)
  | statement (value : Statement)
  | guard (condition : String)
  | order (value : Call)

namespace Line

def render : Line → String
  | empty => ""
  | note text => text
  | statement value => value.render
  | guard condition => "if " ++ condition
  | order value => Script.Page.indent 1 value.render

def reads : Line → List String
  | empty | note _ => []
  | statement value => value.reads
  | guard condition => [condition]
  | order value => value.reads

def assigned : Line → List String
  | statement value => value.assigned
  | empty | note _ | guard _ | order _ => []

def call (value : Call) : Line := statement (.call value)

def comment (text : String) : Line := note (Script.commentLine text)

def banner (title : String) : List Line := empty :: (Script.bannerLines title).map note

def orComment (text : String) (lines : List Line) : List Line :=
  if lines.isEmpty then [comment text] else lines

end Line

def Options.versionLine (options : Options) : String := "//@version=" ++ toString options.version

namespace Program

variable (program : Program)

def combinedLines : List Line :=
  (match program.entry with
    | some expr => [.empty, .statement (.define Naming.entryCondition expr)]
    | none => []) ++
  (match program.exit with
    | some expr =>
      (if program.entry.isNone then [.empty] else []) ++
        [.statement (.define Naming.exitCondition expr)]
    | none => [])

def guardedLines (condition : String) (orders : List Call) : List Line :=
  if orders.isEmpty then [] else .empty :: .guard condition :: orders.map .order

def protectionLines : List Line :=
  if program.protections.isEmpty then []
  else .empty :: .comment "Risk management" :: program.protections.map .call

def logicLines : List Line :=
  program.definitions.map .statement ++ program.combinedLines ++
    guardedLines Naming.entryCondition program.entryOrders ++
    guardedLines Naming.exitCondition program.exitOrders ++
    program.protectionLines ++
    if program.definitions.isEmpty && program.protections.isEmpty then
      [.comment "No trading logic"]
    else []

def plotLines : List Line :=
  program.plots.map .call ++
    (if program.entry.isSome then [.call entryMarker] else []) ++
    (if program.exit.isSome then [.call exitMarker] else [])

def bodyLines : List Line :=
  [.call program.options.declaration] ++
    Line.banner "Inputs" ++
    Line.orComment "No indicator inputs" (program.inputs.map .statement) ++
    Line.banner "Calculations" ++
    Line.orComment "Price series are used directly" (program.calculations.map .statement) ++
    Line.banner "Strategy Logic" ++ program.logicLines ++
    Line.banner "Plots" ++ program.plotLines

def lines : List Line := .note program.options.versionLine :: program.bodyLines

end Program

/-! ### The lines are written -/

section Writes

private theorem call_render_ne (call : Call) : call.render ≠ "" := by
  intro empty
  have := congrArg String.toList empty
  simp [Call.render] at this

private theorem statement_render_ne (statement : Statement) : statement.render ≠ "" := by
  cases statement with
  | assign target source =>
    intro empty
    have := congrArg String.toList empty
    simp [Statement.render] at this
  | call value => exact call_render_ne value

private theorem writes_statements (statements : List Statement) :
    Writes (Program.statementLines statements)
      ((statements.map Line.statement).map Line.render) := by
  have nonempty : ∀ text ∈ statements.map Statement.render, text ≠ "" := by
    simpa using fun statement _ => statement_render_ne statement
  have writes := Writes.lines nonempty
  simpa [Program.statementLines, Function.comp_def, Line.render] using writes

theorem prints_calls (calls : List Call) :
    Prints (Program.callLines calls) ((calls.map Line.call).map Line.render) := by
  have nonempty : ∀ text ∈ calls.map Call.render, text ≠ "" := by
    simpa using fun call _ => call_render_ne call
  have prints := Prints.lines nonempty
  simpa [Program.callLines, Function.comp_def, Line.render, Line.call, Statement.render]
    using prints

theorem writes_calls (calls : List Call) :
    Writes (Program.callLines calls) ((calls.map Line.call).map Line.render) :=
  Writes.ofPrints (prints_calls calls) (Script.Ends.of_forall
    (by simpa [Line.call, Line.render, Statement.render] using fun call _ => call_render_ne call))

theorem writes_banner (title : String) :
    Writes [.banner title] ((Line.banner title).map Line.render) := by
  simpa [Line.banner, Line.render, Function.comp_def] using Writes.banner title

private theorem writes_linesOr (comment : String) (statements : List Statement) :
    Writes (Program.linesOr comment (Program.statementLines statements))
      ((Line.orComment comment (statements.map Line.statement)).map Line.render) := by
  cases statements with
  | nil => exact Writes.comment comment
  | cons statement rest => exact writes_statements (statement :: rest)

private theorem writes_define (name : String) (expr : Expr) :
    Writes [.line (Statement.define name expr).render]
      [(Line.statement (.define name expr)).render] := by
  simpa [Program.statementLines] using writes_statements [.define name expr]

private theorem writes_spaced_define (name : String) (expr : Expr) :
    Writes [.blank, .line (Statement.define name expr).render]
      ["", (Line.statement (.define name expr)).render] := by
  have nonempty := statement_render_ne (.define name expr)
  exact Writes.spaced (Prints.line nonempty) (by simp)
    (Script.Ends.of_forall (by simpa [Line.render] using nonempty))

private theorem writes_combinedSteps (program : Program) :
    Writes program.combinedSteps (program.combinedLines.map Line.render) := by
  unfold Program.combinedSteps Program.combinedLines
  rw [List.map_append]
  cases program.entry with
  | none =>
    cases program.exit with
    | none => exact Writes.nil
    | some expr => exact Writes.nil.append (writes_spaced_define Naming.exitCondition expr)
  | some expr =>
    have entry := writes_spaced_define Naming.entryCondition expr
    cases program.exit with
    | none => exact entry.append Writes.nil
    | some other => exact entry.append (writes_define Naming.exitCondition other)

private theorem writes_orderBlock (condition : String) (orders : List Call) :
    Writes (Program.orderBlock condition orders)
      ((Program.guardedLines condition orders).map Line.render) := by
  unfold Program.orderBlock Program.guardedLines
  split
  · exact Writes.nil
  · have nonempty : ∀ text ∈ orders.map Call.render, text ≠ "" := by
      simpa using fun call _ => call_render_ne call
    have prints := Prints.block condition nonempty
    rw [List.map_map] at prints
    have texts : ((Line.guard condition :: orders.map Line.order).map Line.render) =
        ("if " ++ condition) :: (orders.map Call.render).map (Script.Page.indent 1) := by
      simp [Line.render, Function.comp_def]
    rw [List.map_cons, texts]
    refine Writes.spaced prints (by simp) (Script.Ends.of_forall ?_)
    intro text member
    rcases List.mem_cons.1 member with rfl | later
    · intro empty
      have := congrArg String.toList empty
      simp at this
    · obtain ⟨_, -, rfl⟩ := List.mem_map.1 later
      intro empty
      have := congrArg String.toList empty
      simp [Script.Page.indent] at this

private theorem writes_protectionSteps (program : Program) :
    Writes program.protectionSteps (program.protectionLines.map Line.render) := by
  unfold Program.protectionSteps Program.protectionLines
  split
  · exact Writes.nil
  · have prints := (Prints.comment "Risk management").append (prints_calls program.protections)
    have last := (Writes.comment "Risk management").append (writes_calls program.protections)
    exact Writes.spaced prints (by simp) last.ends

private theorem writes_logicSteps (program : Program) :
    Writes program.logicSteps (program.logicLines.map Line.render) := by
  have last : Writes
      (if program.definitions.isEmpty && program.protections.isEmpty then
        [.comment "No trading logic"] else [])
      ((if program.definitions.isEmpty && program.protections.isEmpty then
        [.comment "No trading logic"] else [] : List Line).map Line.render) := by
    split
    · exact Writes.comment _
    · exact Writes.nil
  have whole := (((((writes_statements program.definitions).append
    (writes_combinedSteps program)).append
    (writes_orderBlock Naming.entryCondition program.entryOrders)).append
    (writes_orderBlock Naming.exitCondition program.exitOrders)).append
    (writes_protectionSteps program)).append last
  simpa only [Program.logicSteps, Program.logicLines, List.map_append] using whole

private theorem writes_plotSteps (program : Program) :
    Writes program.plotSteps (program.plotLines.map Line.render) := by
  have marker (shown : Bool) (call : Call) :
      Writes (if shown then Program.callLines [call] else [])
        ((if shown then [.call call] else [] : List Line).map Line.render) := by
    cases shown with
    | false => exact Writes.nil
    | true => exact writes_calls [call]
  have whole := ((writes_calls program.plots).append
    (marker program.entry.isSome entryMarker)).append (marker program.exit.isSome exitMarker)
  simpa only [Program.plotSteps, Program.plotLines, List.map_append] using whole

def Program.bodySteps (program : Program) : List Step :=
  [.line program.options.declaration.render] ++
    [.banner "Inputs"] ++
    Program.linesOr "No indicator inputs" (Program.statementLines program.inputs) ++
    [.banner "Calculations"] ++
    Program.linesOr "Price series are used directly"
      (Program.statementLines program.calculations) ++
    [.banner "Strategy Logic"] ++ program.logicSteps ++
    [.banner "Plots"] ++ program.plotSteps

theorem Program.steps_eq (program : Program) :
    program.steps = .line program.options.versionLine :: program.bodySteps := by
  simp [Program.steps, Program.bodySteps, Options.versionLine, Options.header]

theorem writes_bodySteps (program : Program) :
    Writes program.bodySteps (program.bodyLines.map Line.render) := by
  have declared : Writes [.line program.options.declaration.render]
      ([Line.call program.options.declaration].map Line.render) :=
    writes_calls [program.options.declaration]
  have inputs := (declared.append (writes_banner "Inputs")).append
    (writes_linesOr "No indicator inputs" program.inputs)
  have calculations := (inputs.append (writes_banner "Calculations")).append
    (writes_linesOr "Price series are used directly" program.calculations)
  have logic := (calculations.append (writes_banner "Strategy Logic")).append
    (writes_logicSteps program)
  have plots := (logic.append (writes_banner "Plots")).append (writes_plotSteps program)
  simpa only [Program.bodySteps, Program.bodyLines, List.map_append] using plots

theorem Options.versionLine_ne (options : Options) : options.versionLine ≠ "" := by
  intro empty
  have := congrArg String.toList empty
  simp [Options.versionLine] at this

theorem Program.lines_render (program : Program)
    (flat : ∀ line ∈ program.lines, Script.Flat line.render.toList) :
    Text.lines program.render = program.lines.map Line.render := by
  rw [Program.render, Program.steps_eq, Program.lines, List.map_cons]
  refine Script.lines_layout program.options.versionLine_ne (writes_bodySteps program) ?_
  simpa [Program.lines, Line.render] using flat

end Writes

end StrategyCompiler.Compilation
