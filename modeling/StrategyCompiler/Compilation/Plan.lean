import StrategyCompiler.Naming.Table
import StrategyCompiler.Script.Statement
import StrategyCompiler.Text.UpperCase
import StrategyCompiler.Validation.Parameters
/-!
A graph that is ready to be written: its nodes in dependency order, their names, and how one node
reads the values of others.
-/

set_option autoImplicit false

namespace StrategyCompiler.Compilation

open Catalogue (Parameter Setting Settings Signature)
open StrategyCompiler.Graph (Index Node Placed)
open Script (Expr)

/-- A graph with an order of its nodes and the names of its values. -/
structure Plan where
  catalogue : Catalogue
  index : Index
  order : List Placed
  names : Naming.Table

namespace Plan

def ofIndex (catalogue : Catalogue) (index : Index) : Plan :=
  let order := index.placed index.order
  ⟨catalogue, index, order, Naming.bindAlong catalogue index order⟩

/-- The price series that a data source selects; any other than a known one is `close`. -/
def seriesOf (node : Node) : String :=
  match node.text? "source" with
  | some text =>
    if Script.priceSeries.contains (Text.lower text) then Text.lower text else "close"
  | none => "close"

/-- The nodes in front of a node that produce a value, in the order of edges. -/
def suppliers (plan : Plan) (placed : Placed) : List Placed :=
  (plan.index.placed (plan.index.dependencies placed.position)).filter
    fun source => source.node.kind.producesValue

/-- The expression that reads the value of a node.  An output that the node does not have gives way
to its first one. -/
def read? (plan : Plan) (source : Placed) (output : Option String) : Option Expr :=
  match source.node.kind, plan.names.bindingAt? source.position with
  | .dataSource, some binding => some (.name binding.primary)
  | .dataSource, none => some (.name (seriesOf source.node))
  | .indicator, some binding | .math, some binding =>
    some (.name ((output.bind binding.output?).getD binding.primary))
  | _, _ => none

/-- The value of a parameter, which is the default where none was accepted. -/
def valueOf (values : Settings) (parameter : Parameter) : Setting :=
  (values.get? parameter.name).getD parameter.default

/-- The label of an indicator as it is displayed: the name of its function in upper case when it
has no label of its own. -/
def displayLabel (node : Node) (signature : Signature) : String :=
  if Text.trim node.label == "" then Text.upper signature.name else Text.trim node.label

/-- The label of a node, or another text when it has none. -/
def labelOr (node : Node) (other : String) : String :=
  if Text.trim node.label == "" then other else Text.trim node.label

/-- The indicators in dependency order, each with its signature. -/
def indicators (plan : Plan) : List (Placed × Signature) :=
  plan.order.filterMap fun placed =>
    (Naming.signatureOf? plan.catalogue placed.node).map fun signature => (placed, signature)

end Plan

end StrategyCompiler.Compilation
