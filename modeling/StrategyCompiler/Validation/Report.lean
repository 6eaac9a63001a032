import StrategyCompiler.Graph.Walk
import StrategyCompiler.Validation.Node
/-!
The checks of a whole graph.  They never fail; what they find is collected in a fixed order: what
every graph needs, the nodes one by one, the ends of edges, cycles, and the flow of data.
-/

set_option autoImplicit false

namespace StrategyCompiler.Validation

open Diagnostic (Endpoint Error Warning)
open StrategyCompiler.Graph (Index Kind)

structure Report where
  errors : List Error
  warnings : List Warning

def Report.isValid (report : Report) : Bool := report.errors.isEmpty

/-- The ids that occur again, each where it occurs for the second time. -/
def repeatedIds (before : List String) : List String → List String
  | [] => []
  | id :: rest =>
    (if before.count id == 1 then [id] else []) ++ repeatedIds (id :: before) rest

def componentErrors (graph : Graph) : List Error :=
  (if graph.countKind .dataSource == 0 then [.missingDataSource] else []) ++
    (repeatedIds [] (graph.nodes.map Graph.Node.id)).map Error.duplicateNodeId

def componentWarnings (graph : Graph) : List Warning :=
  if graph.countKind .action == 0 then [.noActions] else []

/-- The errors of an edge: an end that is no node, the source before the target. -/
def edgeErrors (graph : Graph) (edge : Graph.Edge) : List Error :=
  [(Endpoint.source, edge.source), (Endpoint.target, edge.target)].filterMap
    fun (endpoint, id) =>
      if (graph.position? id).isNone then some (.danglingEdge edge.id endpoint id) else none

def cycleErrors (index : Index) : List Error :=
  match index.cycle?.bind index.node? with
  | some node => [.circularDependency node.id]
  | none => []

def hasValue (index : Index) (position : Nat) : Bool :=
  (index.placed (index.dependencies position)).any fun placed => placed.node.kind.producesValue

/-- The warnings about indicators without edges, then about conditions without a value. -/
def flowWarnings (index : Index) : List Warning :=
  ((index.ofKind .indicator).filter fun placed => !index.isConnected placed.position).map
      (fun placed => Warning.unconnectedIndicator placed.node.id placed.node.label) ++
    ((index.ofKind .condition).filter fun placed => !hasValue index placed.position).map
      (fun placed => Warning.unconnectedCondition placed.node.id)

def validateIndex (catalogue : Catalogue) (index : Index) : Report where
  errors :=
    componentErrors index.graph ++ index.graph.nodes.flatMap (nodeErrors catalogue) ++
      index.graph.edges.flatMap (edgeErrors index.graph) ++ cycleErrors index
  warnings :=
    componentWarnings index.graph ++ index.graph.nodes.flatMap nodeWarnings ++
      flowWarnings index

def validate (catalogue : Catalogue) (graph : Graph) : Report :=
  validateIndex catalogue (.ofGraph graph)

end StrategyCompiler.Validation
