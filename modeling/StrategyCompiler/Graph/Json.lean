import StrategyCompiler.Graph.Basic
import StrategyCompiler.Json.Decode
/-!
The canonical JSON form of graphs.
-/

set_option autoImplicit false

namespace StrategyCompiler.Graph

open Json (Reader Fault)
open Json.Reader (required defaulted)

def Kind.reader : Reader Kind :=
  Reader.case (Kind.all.map fun kind => (kind.name, kind))

def Node.reader : Reader Node :=
  Reader.record "StrategyNode"
    [ required ["id"] Reader.string fun node id => { node with id },
      required ["kind"] Kind.reader fun node kind => { node with kind },
      required ["label"] Reader.string fun node label => { node with label },
      defaulted ["config"] Reader.object fun node config => { node with config } ]
    ⟨"", .dataSource, "", []⟩

def Edge.reader : Reader Edge :=
  Reader.record "StrategyEdge"
    [ required ["id"] Reader.string fun edge id => { edge with id },
      required ["source"] Reader.string fun edge source => { edge with source },
      required ["target"] Reader.string fun edge target => { edge with target } ]
    ⟨"", "", ""⟩

def reader : Reader Graph :=
  Reader.record "StrategyGraph"
    [ required ["nodes"] (Reader.list Node.reader) fun graph nodes => { graph with nodes },
      defaulted ["edges"] (Reader.list Edge.reader) fun graph edges => { graph with edges } ]
    {}

def Node.toJson (node : Node) : Json.Value :=
  .object [("id", .string node.id), ("kind", .string node.kind.name),
    ("label", .string node.label), ("config", .object node.config)]

def Edge.toJson (edge : Edge) : Json.Value :=
  .object [("id", .string edge.id), ("source", .string edge.source),
    ("target", .string edge.target)]

def toJson (graph : Graph) : Json.Value :=
  .object [("nodes", .array (graph.nodes.map Node.toJson)),
    ("edges", .array (graph.edges.map Edge.toJson))]

end StrategyCompiler.Graph
