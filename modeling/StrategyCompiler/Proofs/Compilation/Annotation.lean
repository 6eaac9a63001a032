import Mathlib.Logic.Relation
import StrategyCompiler.Proofs.Compilation.Rewording
import StrategyCompiler.Proofs.Json.Object
/-!
Entries under keys that a node is not read by, such as the notes that an editor keeps on a node or
what is left of another function's parameters.  They can be added and taken away at any node: the
checks of the graph and its script do not tell such graphs apart.
-/

set_option autoImplicit false

namespace StrategyCompiler

open Catalogue (Parameter Signature)
open StrategyCompiler.Graph (Node)

def Catalogue.Parameter.keys (parameter : Parameter) : List String :=
  [parameter.name, parameter.inputSuffix]

/-- The keys that a node is read by: those of an indicator's id for every kind, those of its own
kind, and those of the parameters of the function that it selects. -/
def Graph.Node.recognised (catalogue : Catalogue) (node : Node) : List String :=
  ["indicatorId", "indicator_id"] ++ node.kind.entryKeys ++
    ((Naming.signatureOf? catalogue node).map fun signature =>
      signature.parameters.flatMap Parameter.keys).getD []

/-- A node with one entry more, in place of any other of its key, or one entry less, under a key
that is not recognised. -/
inductive Annotation (catalogue : Catalogue) (node : Node) : Node → Prop
  | added {key : String} (unread : key ∉ node.recognised catalogue) (value : Json.Value) :
      Annotation catalogue node (node.withEntry key value)
  | removed {key : String} (unread : key ∉ node.recognised catalogue) :
      Annotation catalogue node (node.withConfig (Json.Object.erase node.config key))

inductive Annotated (catalogue : Catalogue) (graph : Graph) : Graph → Prop
  | node {position : Nat} {node other : Node} (found : graph.nodes[position]? = some node)
      (change : Annotation catalogue node other) :
      Annotated catalogue graph { graph with nodes := graph.nodes.set position other }

section Agreement

variable {catalogue : Catalogue} {node : Node} {config : Json.Object}
  (agree : ∀ key ∈ node.recognised catalogue,
    Json.Object.get? config key = Json.Object.get? node.config key)
include agree

private theorem value?_of_agree {key : String} (read : key ∈ node.recognised catalogue) :
    (node.withConfig config).value? key = node.value? key := by
  have same : Json.Object.get? (node.withConfig config).config key =
      Json.Object.get? node.config key := agree key read
  rw [Node.value?, Node.value?, same]

private theorem indicatorId?_of_agree :
    (node.withConfig config).indicatorId? = node.indicatorId? := by
  have first : "indicatorId" ∈ node.recognised catalogue := by simp [Node.recognised]
  have second : "indicator_id" ∈ node.recognised catalogue := by simp [Node.recognised]
  rw [Node.indicatorId?, Node.indicatorId?, Node.text?, Node.text?, Node.text?, Node.text?,
    value?_of_agree agree first, value?_of_agree agree second]

/-- A node reads alike with another configuration that has the same entries under all keys that are
recognised. -/
private theorem alike_of_agree : Alike catalogue node (node.withConfig config) := by
  refine Alike.of_readings (indicatorId?_of_agree agree) ?_ ?_
  · intro key read
    refine value?_of_agree agree ?_
    exact List.mem_append_left _ (List.mem_append_right _ read)
  · intro signature signed parameter declared
    have known : ∀ key ∈ parameter.keys, key ∈ node.recognised catalogue := by
      intro key own
      rw [Node.recognised, signed]
      exact List.mem_append_right _ (List.mem_flatMap.2 ⟨parameter, declared, own⟩)
    rw [Parameter.configured?, Parameter.configured?,
      agree parameter.name (known _ List.mem_cons_self),
      agree parameter.inputSuffix (known _ (List.mem_cons_of_mem _ List.mem_cons_self))]

end Agreement

theorem Annotation.alike {catalogue : Catalogue} {node other : Node}
    (change : Annotation catalogue node other) : Alike catalogue node other := by
  cases change with
  | @added entered unread value =>
    have agree : ∀ key ∈ node.recognised catalogue,
        Json.Object.get? (Json.Object.insert entered value node.config) key =
          Json.Object.get? node.config key := by
      intro key read
      have apart : entered ≠ key := fun same => unread (same ▸ read)
      rw [Json.Object.get?_insert, if_neg apart]
    exact alike_of_agree agree
  | @removed erased unread =>
    have agree : ∀ key ∈ node.recognised catalogue,
        Json.Object.get? (Json.Object.erase node.config erased) key =
          Json.Object.get? node.config key := by
      intro key read
      have apart : key ≠ erased := fun same => unread (same ▸ read)
      rw [Json.Object.get?_erase, if_neg apart]
    exact alike_of_agree agree

/-- However many entries under keys that are not recognised are added to the nodes of a graph or
taken from them, its checks find the same and its compilation hands back the same. -/
theorem compile_annotated {catalogue : Catalogue} {graph other : Graph}
    (annotated : Relation.ReflTransGen (Annotated catalogue) graph other)
    (options : Compilation.Options) :
    Validation.validate catalogue other = Validation.validate catalogue graph ∧
      Compilation.compile catalogue options other =
        Compilation.compile catalogue options graph := by
  induction annotated with
  | refl => exact ⟨rfl, rfl⟩
  | tail _ last ih =>
    obtain ⟨found, change⟩ := last
    obtain ⟨report, result⟩ := compile_set found change.alike options
    exact ⟨report.trans ih.1, result.trans ih.2⟩

def averageNode (config : Json.Object) : Node where
  id := "average"
  kind := .indicator
  label := "Average"
  config

def averageOf (config : Json.Object) : Graph where
  nodes := [{ id := "price", kind := .dataSource, label := "" }, averageNode config]
  edges := [⟨"e1", "price", "average"⟩]

/-- An average that still has a parameter of the function that stood there before. -/
def leftOver : Json.Object :=
  [("indicatorId", .string "sma"), ("length", .integer 10), ("period", .integer 14)]

def colored : Json.Object :=
  [("color", .string "#2962ff"), ("indicatorId", .string "sma"), ("length", .integer 10)]

theorem compile_annotated_average :
    Relation.ReflTransGen (Annotated Catalogue.builtin) (averageOf leftOver) (averageOf colored) ∧
      Compilation.compile Catalogue.builtin {} (averageOf colored) =
        Compilation.compile Catalogue.builtin {} (averageOf leftOver) := by
  let tidy : Json.Object := Json.Object.erase leftOver "period"
  have period : "period" ∉ (averageNode leftOver).recognised Catalogue.builtin := by
    decide +kernel
  have color : "color" ∉ (averageNode tidy).recognised Catalogue.builtin := by
    decide +kernel
  have cleared : Annotated Catalogue.builtin (averageOf leftOver) (averageOf tidy) :=
    @Annotated.node _ (averageOf leftOver) 1 _ _ rfl (.removed period)
  have noted : Annotated Catalogue.builtin (averageOf tidy) (averageOf colored) :=
    @Annotated.node _ (averageOf tidy) 1 _ _ rfl (.added color (.string "#2962ff"))
  have run := (Relation.ReflTransGen.single cleared).tail noted
  exact ⟨run, (compile_annotated run {}).2⟩

end StrategyCompiler
