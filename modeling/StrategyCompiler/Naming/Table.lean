import StrategyCompiler.Catalogue.Basic
import StrategyCompiler.Graph.Config
import StrategyCompiler.Graph.Walk
import StrategyCompiler.Naming.Fresh
/-!
The names of all values of a script.  Inputs are named first, then nodes, both in dependency order;
the words of the script language and the names of the two combined conditions are taken from the
start.
-/

set_option autoImplicit false

namespace StrategyCompiler.Naming

open Catalogue (Parameter Signature)
open StrategyCompiler.Graph (Index Node Placed)

/-- The names bound to a node: one, or one for each output of its function. -/
inductive Binding
  | single (name : String)
  | tuple (outputs : List (String × String))
  deriving DecidableEq

namespace Binding

/-- The name that stands for a node when no output is asked for: the one of its first output. -/
def primary : Binding → String
  | single name => name
  | tuple outputs => (outputs.head?.map Prod.snd).getD ""

def output? : Binding → String → Option String
  | single _, _ => none
  | tuple outputs, suffix => (outputs.find? fun entry => entry.1 == suffix).map Prod.snd

def identifiers : Binding → List String
  | single name => [name]
  | tuple outputs => outputs.map Prod.snd

end Binding

structure Input where
  parameter : String
  name : String
  deriving DecidableEq

structure Entry where
  node : String
  binding : Option Binding
  inputs : List Input
  deriving DecidableEq

/-- The names of a graph, an entry for each node in the order of the graph. -/
structure Table where
  entries : List Entry := []
  deriving DecidableEq

namespace Table

def entry? (table : Table) (id : String) : Option Entry :=
  table.entries.find? fun entry => entry.node == id

def binding? (table : Table) (id : String) : Option Binding :=
  (table.entry? id).bind Entry.binding

def inputs (table : Table) (id : String) : List Input :=
  ((table.entry? id).map Entry.inputs).getD []

def bindingAt? (table : Table) (position : Nat) : Option Binding :=
  table.entries[position]?.bind Entry.binding

/-- The input variable that the node at a position has for a parameter. -/
def inputAt? (table : Table) (position : Nat) (parameter : String) : Option String :=
  table.entries[position]?.bind fun entry =>
    (entry.inputs.find? fun input => input.parameter == parameter).map Input.name

def inputCount (table : Table) : Nat :=
  (table.entries.flatMap Entry.inputs).length

/-- All names, those of inputs before those of their node. -/
def identifiers (table : Table) : List String :=
  table.entries.flatMap fun entry =>
    entry.inputs.map Input.name ++ (entry.binding.map Binding.identifiers).getD []

end Table

def entryCondition : String := "entry_condition"

/-- The name of the combined condition for closing positions. -/
def exitCondition : String := "exit_condition"

def initiallyTaken : List String :=
  Script.reservedWords ++ [entryCondition, exitCondition]

def signatureOf? (catalogue : Catalogue) (node : Node) : Option Signature :=
  if node.kind == .indicator then node.indicatorId?.bind catalogue.lookup? else none

/-- What the name of a parameter's input variable starts with. -/
def inputBase (signature : Signature) (parameter : Parameter) : String :=
  sanitize (signature.name ++ "_" ++ parameter.inputSuffix)

/-- Name the inputs of parameters, and take their names. -/
def nameInputs (signature : Signature) : List String → List Parameter → List Input × List String
  | taken, [] => ([], taken)
  | taken, parameter :: rest =>
    if parameter.type.inputFunction?.isSome then
      let name := freshName taken (inputBase signature parameter)
      let (inputs, taken) := nameInputs signature (name :: taken) rest
      (⟨parameter.name, name⟩ :: inputs, taken)
    else nameInputs signature taken rest

def nameAllInputs (catalogue : Catalogue) :
    List String → List Placed → List (Nat × List Input) × List String
  | taken, [] => ([], taken)
  | taken, placed :: rest =>
    match signatureOf? catalogue placed.node with
    | none => nameAllInputs catalogue taken rest
    | some signature =>
      let (inputs, taken) := nameInputs signature taken signature.parameters
      let (others, taken) := nameAllInputs catalogue taken rest
      ((placed.position, inputs) :: others, taken)

/-- The outputs that a node has names for, if it is named at all.  A data source needs a name only
when it reads another timeframe. -/
def namedOutputs? (catalogue : Catalogue) (node : Node) : Option (List String) :=
  match node.kind with
  | .dataSource => if (node.text? "timeframe").isSome then some [] else none
  | .indicator =>
    some (((signatureOf? catalogue node).map fun signature => signature.outputs.names).getD [])
  | .condition | .timing | .math => some []
  | .action | .risk => none

/-- What the names of a node start with: its label, else its indicator, else its kind. -/
def nodeBase (node : Node) : String :=
  if sanitize node.label != "" then sanitize node.label
  else
    match (node.indicatorId?.map sanitize).filter fun name => name != "" with
    | some name => name
    | none => node.kind.name

def bindNode (taken : List String) (node : Node) (outputs : List String) : Binding :=
  let stem := freshStem taken (nodeBase node) (idFragment node.id) outputs
  if outputs.isEmpty then .single stem else .tuple (outputs.zip (expand outputs stem))

def nameNodes (catalogue : Catalogue) : List String → List Placed → List (Nat × Binding)
  | _, [] => []
  | taken, placed :: rest =>
    match namedOutputs? catalogue placed.node with
    | none => nameNodes catalogue taken rest
    | some outputs =>
      let binding := bindNode taken placed.node outputs
      (placed.position, binding) :: nameNodes catalogue (binding.identifiers ++ taken) rest

def given? {α : Type} (entries : List (Nat × α)) (position : Nat) : Option α :=
  (entries.find? fun entry => entry.1 == position).map Prod.snd

def bindAlong (catalogue : Catalogue) (index : Index) (order : List Placed) : Table :=
  let (inputs, taken) := nameAllInputs catalogue initiallyTaken order
  let bindings := nameNodes catalogue taken order
  ⟨index.graph.nodes.mapIdx fun position node =>
    ⟨node.id, given? bindings position, (given? inputs position).getD []⟩⟩

def bind (catalogue : Catalogue) (graph : Graph) : Table :=
  let index := Index.ofGraph graph
  bindAlong catalogue index (index.placed index.order)

end StrategyCompiler.Naming
