import StrategyCompiler.Catalogue.Builtin
import StrategyCompiler.Compilation.Fallback
import StrategyCompiler.Compilation.Program
import StrategyCompiler.Compilation.Result
import StrategyCompiler.Validation.Report
/-!
Compilation: a graph is checked, put in order, named, written and checked again.  It never fails;
a graph with errors yields the script that tells of them.
-/

set_option autoImplicit false

namespace StrategyCompiler.Compilation

open Diagnostic (Error Warning)
open StrategyCompiler.Graph (Index)

def rejected (options : Options) (graph : Graph) (errors : List Error)
    (warnings : List Warning) : Result :=
  let code := fallbackScript options errors
  { success := false
    code
    errors
    warnings
    metadata := .of options graph 0 code }

/-- Compile the graph of a plan that has passed its checks with warnings. -/
def generate (options : Options) (plan : Plan) (warnings : List Warning) : Result :=
  let code := (Program.ofPlan options plan).render
  let warnings := warnings ++ roleWarnings plan.index plan.order
  match Script.checkStructure code with
  | .error fault => rejected options plan.index.graph [.badStructure fault] warnings
  | .ok _ =>
    { success := true
      code
      errors := []
      warnings
      metadata := .of options plan.index.graph plan.names.inputCount code }

def compile (catalogue : Catalogue) (options : Options) (graph : Graph) : Result :=
  let index := Index.ofGraph graph
  let report := Validation.validateIndex catalogue index
  if report.errors.isEmpty then generate options (.ofIndex catalogue index) report.warnings
  else rejected options graph report.errors report.warnings

end StrategyCompiler.Compilation
