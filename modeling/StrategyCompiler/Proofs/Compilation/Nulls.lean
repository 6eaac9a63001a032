import StrategyCompiler.Proofs.Compilation.Rewording
import StrategyCompiler.Proofs.Compilation.Structure
import StrategyCompiler.Proofs.Json.Object
/-!
Entries that are null.  They count as not given wherever a node is read, except that a null under
the name of a parameter hides the value under its name in snake case.  Where none does, null entries
can be left out of a graph without any change to its checks and its script.
-/

set_option autoImplicit false

namespace StrategyCompiler

open Catalogue (Parameter Signature)
open StrategyCompiler.Graph (Node)

def Graph.Node.withoutNulls (node : Node) : Node :=
  node.withConfig (Json.Object.withoutNulls node.config)

def Graph.withoutNulls (graph : Graph) : Graph :=
  { graph with nodes := graph.nodes.map Node.withoutNulls }

/-! ### Readers -/

private theorem Graph.Node.value?_withoutNulls (node : Node) (key : String) :
    node.withoutNulls.value? key = node.value? key := by
  have entry : Json.Object.get? node.withoutNulls.config key =
      (Json.Object.get? node.config key).filter fun value => !value.isNull :=
    Json.Object.get?_withoutNulls node.config key
  rw [value?, value?, entry, Option.filter_filter]
  simp only [Bool.and_self]

private theorem Graph.Node.indicatorId?_withoutNulls (node : Node) :
    node.withoutNulls.indicatorId? = node.indicatorId? := by
  simp only [indicatorId?, text?, value?_withoutNulls]

/-- Whether a null under the name of a parameter stands before a value under its name in snake
case. -/
def Catalogue.Parameter.isHidden (parameter : Parameter) (config : Json.Object) : Bool :=
  (Json.Object.get? config parameter.name).any Json.Value.isNull &&
    (Json.Object.get? config parameter.inputSuffix).any fun value => !value.isNull

/-- Leaving out null entries changes what is configured for a parameter exactly when a null hides
it. -/
private theorem Catalogue.Parameter.configured?_withoutNulls_iff (parameter : Parameter)
    (config : Json.Object) :
    parameter.configured? (Json.Object.withoutNulls config) = parameter.configured? config ↔
      parameter.isHidden config = false := by
  rw [configured?, configured?, isHidden, Json.Object.get?_withoutNulls,
    Json.Object.get?_withoutNulls]
  cases Json.Object.get? config parameter.name with
  | none =>
    cases Json.Object.get? config parameter.inputSuffix with
    | none => simp
    | some value => cases null : value.isNull <;> simp [Option.filter_some, null]
  | some first =>
    cases null : first.isNull with
    | false => simp [Option.filter_some, null]
    | true =>
      cases Json.Object.get? config parameter.inputSuffix with
      | none => simp [Option.filter_some, null]
      | some value => cases other : value.isNull <;> simp [Option.filter_some, null, other]

/-- Whether a null hides a parameter of the function that a node selects. -/
def Graph.Node.hidesParameter (catalogue : Catalogue) (node : Node) : Bool :=
  (Naming.signatureOf? catalogue node).any fun signature =>
    signature.parameters.any fun parameter => parameter.isHidden node.config

private theorem alike_withoutNulls {catalogue : Catalogue} {node : Node}
    (shown : node.hidesParameter catalogue = false) : Alike catalogue node node.withoutNulls := by
  refine Alike.of_readings node.indicatorId?_withoutNulls
    (fun key _ => node.value?_withoutNulls key) fun signature signed parameter member => ?_
  rw [Node.hidesParameter, signed, Option.any_some, List.any_eq_false] at shown
  rw [parameter.configured?_withoutNulls_iff]
  exact Bool.eq_false_iff.2 (shown parameter member)

/-- Null entries can be left out of a graph, as long as none of them hides a parameter: its checks
find the same, and its compilation hands back the same. -/
theorem compile_withoutNulls (catalogue : Catalogue) (options : Compilation.Options) (graph : Graph)
    (shown : ∀ node ∈ graph.nodes, node.hidesParameter catalogue = false) :
    Validation.validate catalogue graph.withoutNulls = Validation.validate catalogue graph ∧
      Compilation.compile catalogue options graph.withoutNulls =
        Compilation.compile catalogue options graph := by
  rw [Graph.withoutNulls, Graph.map_eq_exchanged]
  refine compile_exchanged (fun position node found => ?_) options
  exact alike_withoutNulls (shown node (List.mem_of_getElem? found))

def trendWithNulls : Graph where
  nodes :=
    [ { id := "price", kind := .dataSource, label := "", config := [("timeframe", .null)] },
      { id := "trend", kind := .indicator, label := "Trend",
        config :=
          [ ("fastLength", .integer 12), ("indicatorId", .string "macd"), ("indicator_id", .null),
            ("signalLength", .integer 9), ("slowLength", .integer 26), ("source", .null) ] } ]
  edges := [⟨"e1", "price", "trend"⟩]

theorem compile_withoutNulls_trendWithNulls :
    (∀ node ∈ trendWithNulls.nodes, node.hidesParameter Catalogue.builtin = false) ∧
      Compilation.compile Catalogue.builtin {} trendWithNulls.withoutNulls =
        Compilation.compile Catalogue.builtin {} trendWithNulls := by
  have shown : ∀ node ∈ trendWithNulls.nodes, node.hidesParameter Catalogue.builtin = false := by
    decide +kernel
  exact ⟨shown, (compile_withoutNulls Catalogue.builtin {} trendWithNulls shown).2⟩

/-- A trend of the price whose fast length is null under its name and given in snake case. -/
def hiddenLength : Graph where
  nodes :=
    [ { id := "price", kind := .dataSource, label := "" },
      { id := "trend", kind := .indicator, label := "Trend",
        config :=
          [ ("fastLength", .null), ("fast_length", .integer 12), ("indicatorId", .string "macd"),
            ("signalLength", .integer 9), ("slowLength", .integer 26) ] } ]

/-- A null that hides a parameter makes a graph invalid that is valid without it. -/
theorem hiddenLength_rejected :
    (Validation.validate Catalogue.builtin hiddenLength).errors ≠ [] ∧
      (Validation.validate Catalogue.builtin hiddenLength.withoutNulls).errors = [] ∧
      (Compilation.compile Catalogue.builtin {} hiddenLength).success = false ∧
      (Compilation.compile Catalogue.builtin {} hiddenLength.withoutNulls).success = true := by
  have invalid : (Validation.validate Catalogue.builtin hiddenLength).errors ≠ [] := fun none =>
    absurd ((Validation.validate_errors_eq_nil_iff_of_unjoined rfl).1 none) (by decide +kernel)
  have valid : (Validation.validate Catalogue.builtin hiddenLength.withoutNulls).errors = [] :=
    (Validation.validate_errors_eq_nil_iff_of_unjoined rfl).2 (by decide +kernel)
  exact ⟨invalid, valid, (Compilation.compile_of_invalid {} invalid).1,
    (Compilation.compile_of_valid {} valid).1⟩

end StrategyCompiler
