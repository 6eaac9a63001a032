import StrategyCompiler.Graph.Basic
import StrategyCompiler.Json.Decode
/-!
The documents that visual graph editors export, and the graphs they stand for.
-/

set_option autoImplicit false

namespace StrategyCompiler.Graph

open Json (Reader Fault)
open Json.Reader (required defaulted)

structure Document.Data where
  label : String := ""
  config : Option Json.Value := none

structure Document.Node where
  id : String
  type : String
  data : Document.Data

structure Document.Edge where
  id : Option String
  source : String
  target : String

structure Document where
  nodes : List Document.Node := []
  edges : List Document.Edge := []

inductive Document.Problem
  | unreadable (fault : Fault)
  | unknownType (node type : String)
  | invalidConfig (node : String)

def Document.Problem.message : Problem → String
  | unreadable fault => "Failed to parse graph JSON: " ++ fault.message
  | unknownType node type => "Node '" ++ node ++ "' has unknown node type '" ++ type ++ "'"
  | invalidConfig node => "Node '" ++ node ++ "' config must be a JSON object"

namespace Document

def Data.reader : Reader Data :=
  Reader.record "DocumentNodeData"
    [ defaulted ["label"] Reader.string fun data label => { data with label },
      defaulted ["config", "parameters", "params"] (Reader.optional Reader.any)
        fun data config => { data with config } ]
    {}

def Node.reader : Reader Node :=
  Reader.record "DocumentNode"
    [ required ["id"] Reader.string fun node id => { node with id },
      required ["type", "kind", "nodeType"] Reader.string fun node type => { node with type },
      required ["data"] Data.reader fun node data => { node with data } ]
    ⟨"", "", {}⟩

def Edge.reader : Reader Edge :=
  Reader.record "DocumentEdge"
    [ defaulted ["id"] (Reader.optional Reader.string) fun edge id => { edge with id },
      required ["source"] Reader.string fun edge source => { edge with source },
      required ["target"] Reader.string fun edge target => { edge with target } ]
    ⟨none, "", ""⟩

def reader : Reader Document :=
  Reader.record "GraphDocument"
    [ required ["nodes"] (Reader.list Node.reader) fun document nodes => { document with nodes },
      defaulted ["edges"] (Reader.list Edge.reader) fun document edges => { document with edges } ]
    {}

def ofText (text : String) : Except Problem Document :=
  (Reader.ofText reader text).mapError Problem.unreadable

/-- The node of the graph that a node of the document stands for.  Without a configuration it has
none; any other than an object is refused. -/
def Node.toNode (node : Node) : Except Problem Graph.Node :=
  match Kind.ofEditorName? node.type with
  | none => .error (.unknownType node.id node.type)
  | some kind =>
    match node.data.config with
    | none | some .null => .ok ⟨node.id, kind, node.data.label, []⟩
    | some (.object config) => .ok ⟨node.id, kind, node.data.label, config⟩
    | some _ => .error (.invalidConfig node.id)

/-- The edge at a position, with an id generated for it when it has none. -/
def Edge.toEdge (position : Nat) (edge : Edge) : Graph.Edge :=
  ⟨edge.id.getD (edgeId position), edge.source, edge.target⟩

/-- The graph that a document stands for, or the problem of its first node that has one. -/
def toGraph (document : Document) : Except Problem Graph := do
  let nodes ← document.nodes.mapM Node.toNode
  return { nodes, edges := document.edges.mapIdx Edge.toEdge }

def graphOfText (text : String) : Except Problem Graph :=
  ofText text >>= toGraph

end Document

end StrategyCompiler.Graph
