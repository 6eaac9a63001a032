import StrategyCompiler.Compilation.Calculations
import StrategyCompiler.Compilation.Inputs
import StrategyCompiler.Compilation.Logic
import StrategyCompiler.Compilation.Options
import StrategyCompiler.Compilation.Plots
/-!
Whole scripts: their sections as statements, and how the sections are laid out.
-/

set_option autoImplicit false

namespace StrategyCompiler.Compilation

open Script (Call Expr Statement Step)

structure Program where
  options : Options
  inputs : List Statement
  calculations : List Statement
  definitions : List Statement
  entry : Option Expr
  exit : Option Expr
  entryOrders : List Call
  exitOrders : List Call
  protections : List Call
  plots : List Call

namespace Program

def ofPlan (options : Options) (plan : Plan) : Program where
  options
  inputs := plan.inputs
  calculations := plan.calculations
  definitions := plan.definitions
  entry := plan.entryExpr?
  exit := plan.exitExpr?
  entryOrders := plan.entryOrders
  exitOrders := plan.exitOrders
  protections := plan.protections
  plots := plan.plots

def statementLines (statements : List Statement) : List Step :=
  statements.map fun statement => .line statement.render

def callLines (calls : List Call) : List Step :=
  calls.map fun call => .line call.render

/-- The lines of a section, or a comment when there are none. -/
def linesOr (comment : String) (lines : List Step) : List Step :=
  if lines.isEmpty then [.comment comment] else lines

/-- The lines that define the combined conditions, behind one blank line. -/
def combinedSteps (program : Program) : List Step :=
  (match program.entry with
    | some expr => [.blank, .line (Statement.define Naming.entryCondition expr).render]
    | none => []) ++
  (match program.exit with
    | some expr =>
      (if program.entry.isNone then [.blank] else []) ++
        [.line (Statement.define Naming.exitCondition expr).render]
    | none => [])

/-- A block of orders under a combined condition; without orders there is none. -/
def orderBlock (condition : String) (orders : List Call) : List Step :=
  if orders.isEmpty then [] else [.blank, .block condition (callLines orders)]

def protectionSteps (program : Program) : List Step :=
  if program.protections.isEmpty then []
  else .blank :: .comment "Risk management" :: callLines program.protections

def logicSteps (program : Program) : List Step :=
  statementLines program.definitions ++ program.combinedSteps ++
    orderBlock Naming.entryCondition program.entryOrders ++
    orderBlock Naming.exitCondition program.exitOrders ++
    program.protectionSteps ++
    if program.definitions.isEmpty && program.protections.isEmpty then
      [.comment "No trading logic"]
    else []

def plotSteps (program : Program) : List Step :=
  callLines program.plots ++
    (if program.entry.isSome then callLines [entryMarker] else []) ++
    (if program.exit.isSome then callLines [exitMarker] else [])

def steps (program : Program) : List Step :=
  program.options.header ++
    [.banner "Inputs"] ++ linesOr "No indicator inputs" (statementLines program.inputs) ++
    [.banner "Calculations"] ++
    linesOr "Price series are used directly" (statementLines program.calculations) ++
    [.banner "Strategy Logic"] ++ program.logicSteps ++
    [.banner "Plots"] ++ program.plotSteps

def render (program : Program) : String := Script.layout program.steps

end Program

end StrategyCompiler.Compilation
