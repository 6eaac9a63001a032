import StrategyCompiler.Catalogue.Basic
import StrategyCompiler.Catalogue.Builtin
import StrategyCompiler.Catalogue.Parameter
import StrategyCompiler.Catalogue.Setting
import StrategyCompiler.Catalogue.Signature
import StrategyCompiler.Catalogue.Template
import StrategyCompiler.CommandLine
import StrategyCompiler.Compilation.Calculations
import StrategyCompiler.Compilation.Compile
import StrategyCompiler.Compilation.Fallback
import StrategyCompiler.Compilation.Inputs
import StrategyCompiler.Compilation.Logic
import StrategyCompiler.Compilation.Options
import StrategyCompiler.Compilation.Plan
import StrategyCompiler.Compilation.Plots
import StrategyCompiler.Compilation.Program
import StrategyCompiler.Compilation.Result
import StrategyCompiler.Compilation.Roles
import StrategyCompiler.Diagnostic
import StrategyCompiler.Graph.Basic
import StrategyCompiler.Graph.Config
import StrategyCompiler.Graph.Document
import StrategyCompiler.Graph.Index
import StrategyCompiler.Graph.Json
import StrategyCompiler.Graph.Walk
import StrategyCompiler.Json.Decode
import StrategyCompiler.Json.Fault
import StrategyCompiler.Json.Numeric
import StrategyCompiler.Json.Reader
import StrategyCompiler.Json.Tree
import StrategyCompiler.Json.Value
import StrategyCompiler.Main
import StrategyCompiler.Naming.Fresh
import StrategyCompiler.Naming.Identifier
import StrategyCompiler.Naming.Table
import StrategyCompiler.Number.Decimal
import StrategyCompiler.Number.Double
import StrategyCompiler.Number.Shortest
import StrategyCompiler.Number.Text
import StrategyCompiler.Script.Check
import StrategyCompiler.Script.Expr
import StrategyCompiler.Script.Layout
import StrategyCompiler.Script.Literal
import StrategyCompiler.Script.Statement
import StrategyCompiler.Script.Words
import StrategyCompiler.Text.Lines
import StrategyCompiler.Text.Shown
import StrategyCompiler.Text.Trim
import StrategyCompiler.Text.UpperCase
import StrategyCompiler.Text.Words
import StrategyCompiler.Validation.Node
import StrategyCompiler.Validation.Parameters
import StrategyCompiler.Validation.Report
import StrategyCompiler.Proofs.Graph.Adjacency
import StrategyCompiler.Proofs.Validation.Parameters
import StrategyCompiler.Proofs.Validation.Verdict
import StrategyCompiler.Proofs.Naming.Table
import StrategyCompiler.Proofs.Naming.Hygiene
import StrategyCompiler.Proofs.Script.Render
import StrategyCompiler.Proofs.Compilation.Lines
import StrategyCompiler.Proofs.Catalogue.Builtin
import StrategyCompiler.Proofs.Catalogue.Template
import StrategyCompiler.Proofs.Compilation.Reads
import StrategyCompiler.Proofs.Compilation.Scope
import StrategyCompiler.Proofs.Compilation.Sections
import StrategyCompiler.Proofs.Compilation.Signals
import StrategyCompiler.Proofs.Compilation.Structure
import StrategyCompiler.Proofs.Compilation.Definitions
import StrategyCompiler.Proofs.Compilation.Failure
import StrategyCompiler.Proofs.Script.Vocabulary
import StrategyCompiler.Proofs.Compilation.Forms
import StrategyCompiler.Proofs.Compilation.Multiplicity
import StrategyCompiler.Proofs.Compilation.Targets
import StrategyCompiler.Proofs.Number.Numeral
import StrategyCompiler.Proofs.Number.Sign
import StrategyCompiler.Proofs.Script.Grammar
import StrategyCompiler.Proofs.Compilation.Grammar
import StrategyCompiler.Proofs.Script.Reading
import StrategyCompiler.Proofs.Graph.Neighbours
import StrategyCompiler.Proofs.Script.Truth
import StrategyCompiler.Proofs.Compilation.Combined
import StrategyCompiler.Proofs.Compilation.Blocks
import StrategyCompiler.Proofs.Compilation.Orders
import StrategyCompiler.Proofs.Compilation.Accounting
import StrategyCompiler.Proofs.Compilation.Wiring
import StrategyCompiler.Proofs.Catalogue.History
import StrategyCompiler.Proofs.Graph.Exchange
import StrategyCompiler.Proofs.Json.Object
import StrategyCompiler.Proofs.Text.Folding
import StrategyCompiler.Proofs.Compilation.Alike
import StrategyCompiler.Proofs.Compilation.Rewording
import StrategyCompiler.Proofs.Compilation.Nulls
import StrategyCompiler.Proofs.Compilation.Spelling
import StrategyCompiler.Proofs.Graph.Visit
import StrategyCompiler.Proofs.Graph.Cycle
import StrategyCompiler.Proofs.Compilation.Annotation
import StrategyCompiler.Proofs.Compilation.Sequence
import StrategyCompiler.Proofs.Text.Lines
import StrategyCompiler.Proofs.Script.Nesting
import StrategyCompiler.Proofs.Naming.Coverage
import StrategyCompiler.Proofs.Graph.Range
import StrategyCompiler.Proofs.Compilation.Range
import StrategyCompiler.Proofs.Number.Order
import StrategyCompiler.Proofs.Number.Decimal
import StrategyCompiler.Proofs.Json.Numeric
import StrategyCompiler.Proofs.Catalogue.Coercion
import StrategyCompiler.Proofs.Validation.Resolution
import StrategyCompiler.Proofs.Compilation.Legality
import StrategyCompiler.Proofs.Graph.Stated
import StrategyCompiler.Proofs.Compilation.Fallbacks
import StrategyCompiler.Proofs.Compilation.Operands
import StrategyCompiler.Proofs.Compilation.Comparisons
import StrategyCompiler.Proofs.Compilation.Drawn
import StrategyCompiler.Proofs.Number.Readback
import StrategyCompiler.Proofs.Number.Monotone
import StrategyCompiler.Proofs.Compilation.Levels
import StrategyCompiler.Proofs.Script.Meaning
import StrategyCompiler.Proofs.Compilation.Arithmetic
import StrategyCompiler.Proofs.Naming.Search
import StrategyCompiler.Proofs.Catalogue.Integers
import StrategyCompiler.Proofs.Number.Literal
import StrategyCompiler.Proofs.Compilation.FloatInputs
import StrategyCompiler.Proofs.Script.Literal
import StrategyCompiler.Proofs.Naming.Runs
import StrategyCompiler.Proofs.Script.Spacing
