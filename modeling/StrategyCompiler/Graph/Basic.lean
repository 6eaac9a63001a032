import StrategyCompiler.Json.Value
/-!
Strategy graphs: typed nodes with a configuration, and edges along which a target consumes what its
source produces.  Nothing is required of ids or edges here; the checks of a graph are elsewhere.
-/

set_option autoImplicit false

namespace StrategyCompiler

inductive Graph.Kind
  | dataSource
  | indicator
  | condition
  | action
  | risk
  | timing
  | math
  deriving DecidableEq

namespace Graph.Kind

def all : List Kind := [dataSource, indicator, condition, action, risk, timing, math]

def name : Kind → String
  | dataSource => "data_source"
  | indicator => "indicator"
  | condition => "condition"
  | action => "action"
  | risk => "risk"
  | timing => "timing"
  | math => "math"

/-- The type names of graph editors, reduced to lower-case letters and digits. -/
def editorNames : List (String × Kind) :=
  [ ("datasource", dataSource), ("data", dataSource), ("source", dataSource),
    ("indicator", indicator),
    ("condition", condition),
    ("action", action), ("order", action),
    ("risk", risk), ("riskmanagement", risk),
    ("timing", timing), ("time", timing), ("session", timing),
    ("math", math), ("operation", math) ]

/-- Read a type name as graph editors write it; only its ASCII letters and digits count, in any
case. -/
def ofEditorName? (text : String) : Option Kind :=
  let word := String.ofList ((text.toList.filter Char.isAlphanum).map Char.toLower)
  (editorNames.find? fun entry => entry.1 == word).map Prod.snd

/-- Whether other nodes can consume the output of such a node as a series. -/
def producesValue : Kind → Bool
  | dataSource | indicator | math => true
  | _ => false

end Graph.Kind

structure Graph.Node where
  id : String
  kind : Graph.Kind
  label : String
  config : Json.Object := []

/-- A dependency: the target consumes the output of the source. -/
structure Graph.Edge where
  id : String
  source : String
  target : String
  deriving DecidableEq

structure Graph where
  nodes : List Graph.Node := []
  edges : List Graph.Edge := []

namespace Graph

instance : Inhabited Graph := ⟨{}⟩

def Node.withEntry (node : Node) (key : String) (value : Json.Value) : Node :=
  { node with config := Json.Object.insert key value node.config }

def node? (graph : Graph) (id : String) : Option Node :=
  graph.nodes.find? fun node => node.id == id

def countKind (graph : Graph) (kind : Kind) : Nat :=
  graph.nodes.countP fun node => node.kind == kind

def edgeId (position : Nat) : String := "e" ++ toString (position + 1)

def addNode (graph : Graph) (node : Node) : Graph :=
  { graph with nodes := graph.nodes ++ [node] }

def addEdge (graph : Graph) (edge : Edge) : Graph :=
  { graph with edges := graph.edges ++ [edge] }

/-- The graph with one more edge, whose id is generated. -/
def connect (graph : Graph) (source target : String) : Graph :=
  graph.addEdge ⟨edgeId graph.edges.length, source, target⟩

end Graph

end StrategyCompiler
