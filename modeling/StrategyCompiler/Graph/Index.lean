import StrategyCompiler.Graph.Basic
/-!
The nodes of a graph by position, with the positions that each node depends on and those that
depend on it.  Two nodes with one id share the position of the first, and an edge with an end that
is no node is left out.
-/

set_option autoImplicit false

namespace StrategyCompiler.Graph

def position? (graph : Graph) (id : String) : Option Nat :=
  graph.nodes.findIdx? fun node => node.id == id

/-- A graph with the positions on the other ends of each node's edges, in the order of edges. -/
structure Index where
  graph : Graph
  sources : List (List Nat)
  targets : List (List Nat)

namespace Index

def link (index : Index) (edge : Edge) : Index :=
  match index.graph.position? edge.source, index.graph.position? edge.target with
  | some source, some target =>
    { index with
      sources := index.sources.modify target fun before => before ++ [source]
      targets := index.targets.modify source fun before => before ++ [target] }
  | _, _ => index

def ofGraph (graph : Graph) : Index :=
  let unlinked := List.replicate graph.nodes.length []
  graph.edges.foldl link ⟨graph, unlinked, unlinked⟩

def size (index : Index) : Nat := index.graph.nodes.length

def node? (index : Index) (position : Nat) : Option Node := index.graph.nodes[position]?

/-- The positions whose output the node at a position consumes, in the order of edges. -/
def dependencies (index : Index) (position : Nat) : List Nat :=
  index.sources[position]?.getD []

/-- The positions that consume the output of the node at a position, in the order of edges. -/
def dependents (index : Index) (position : Nat) : List Nat :=
  index.targets[position]?.getD []

/-- Whether an edge leads to or from the node at a position. -/
def isConnected (index : Index) (position : Nat) : Bool :=
  !(index.dependencies position).isEmpty || !(index.dependents position).isEmpty

end Index

structure Placed where
  position : Nat
  node : Node

namespace Index

def placed (index : Index) (positions : List Nat) : List Placed :=
  positions.filterMap fun position => (index.node? position).map fun node => ⟨position, node⟩

def all (index : Index) : List Placed :=
  index.placed (List.range index.size)

def ofKind (index : Index) (kind : Kind) : List Placed :=
  index.all.filter fun placed => placed.node.kind == kind

end Index

end StrategyCompiler.Graph
