import StrategyCompiler.Compilation.Options
import StrategyCompiler.Diagnostic
import StrategyCompiler.Graph.Basic
import StrategyCompiler.Text.Lines
/-!
What a compilation hands back, and its JSON form.
-/

set_option autoImplicit false

namespace StrategyCompiler.Compilation

open Diagnostic (Error Warning)

structure Metadata where
  strategyName : String
  nodeCount : Nat
  edgeCount : Nat
  indicatorCount : Nat
  conditionCount : Nat
  actionCount : Nat
  riskCount : Nat
  inputCount : Nat
  lineCount : Nat
  deriving DecidableEq

def Metadata.of (options : Options) (graph : Graph) (inputCount : Nat) (code : String) :
    Metadata where
  strategyName := options.strategyName
  nodeCount := graph.nodes.length
  edgeCount := graph.edges.length
  indicatorCount := graph.countKind .indicator
  conditionCount := graph.countKind .condition
  actionCount := graph.countKind .action
  riskCount := graph.countKind .risk
  inputCount
  lineCount := (Text.lines code).length

/-- The fields of the JSON form, in the order in which they are written. -/
def Metadata.fields (metadata : Metadata) : Json.Object :=
  [ ("strategyName", .string metadata.strategyName),
    ("nodeCount", .integer metadata.nodeCount),
    ("edgeCount", .integer metadata.edgeCount),
    ("indicatorCount", .integer metadata.indicatorCount),
    ("conditionCount", .integer metadata.conditionCount),
    ("actionCount", .integer metadata.actionCount),
    ("riskCount", .integer metadata.riskCount),
    ("inputCount", .integer metadata.inputCount),
    ("lineCount", .integer metadata.lineCount) ]

/-- The outcome of a compilation.  There is code in any case; after a failure it is the script that
tells of the errors. -/
structure Result where
  success : Bool
  code : String
  errors : List Error
  warnings : List Warning
  metadata : Metadata

/-- The JSON form of a result, with the time of its generation. -/
def Result.toJson (result : Result) (generatedAt : String) : Json.Value :=
  .object
    [ ("success", .bool result.success),
      ("code", .string result.code),
      ("errors", .array (result.errors.map Error.toJson)),
      ("warnings", .array (result.warnings.map Warning.toJson)),
      ("metadata",
        .object (result.metadata.fields ++ [("generatedAt", .string generatedAt)])) ]

end StrategyCompiler.Compilation
