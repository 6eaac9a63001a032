import Mathlib.Logic.Relation
import StrategyCompiler.Proofs.Compilation.Failure
import StrategyCompiler.Proofs.Compilation.Rewording
import StrategyCompiler.Proofs.Json.Object
import StrategyCompiler.Proofs.Text.Folding
/-!
Spellings of ids and parameters.  An indicator's id may be written as any text that the catalogue
finds the same function for, and the value of a parameter may stand under its name in snake case;
the checks of a graph and its script do not tell such graphs apart.
-/

set_option autoImplicit false

namespace StrategyCompiler

open Catalogue (Parameter Signature)
open StrategyCompiler.Graph (Node)

/-! ### Keys that are read -/

def Graph.Node.idKeys (node : Node) : List String :=
  if (node.text? "indicatorId").isSome then ["indicatorId"] else ["indicatorId", "indicator_id"]

def Catalogue.Parameter.keysIn (parameter : Parameter) (config : Json.Object) : List String :=
  if (Json.Object.get? config parameter.name).isSome then [parameter.name]
  else [parameter.name, parameter.inputSuffix]

/-- The keys that a node is read by for its id and for the parameters of a function. -/
def Graph.Node.keysRead (node : Node) (signature : Signature) : List String :=
  node.idKeys ++ signature.parameters.flatMap fun parameter => parameter.keysIn node.config

/-- The object with the value of a parameter under its name in snake case in place of its name. -/
def Catalogue.Parameter.respelled (parameter : Parameter) (value : Json.Value)
    (config : Json.Object) : Json.Object :=
  Json.Object.insert parameter.inputSuffix value (Json.Object.erase config parameter.name)

/-- A node that says the same in another spelling.  An entry that stood under the new key of a
parameter does not count, as nothing read it. -/
inductive Respelling (catalogue : Catalogue) (node : Node) : Node → Prop
  | id {old new : String} {signature : Signature} (kind : node.kind = .indicator)
      (labelled : node.label.toList.any Char.isAlphanum = true)
      (stands : Json.Object.get? node.config "indicatorId" = some (.string old))
      (filled : Text.trim old ≠ "") (refilled : Text.trim new ≠ "")
      (found : catalogue.lookup? old = some signature)
      (again : catalogue.lookup? new = some signature) (usable : signature.category ≠ .operator)
      (apart : ∀ parameter ∈ signature.parameters, parameter.name ≠ "indicatorId") :
      Respelling catalogue node (node.withEntry "indicatorId" (.string new))
  | parameter {signature : Signature} {parameter : Parameter} {value : Json.Value}
      (signed : Naming.signatureOf? catalogue node = some signature)
      (declared : parameter ∈ signature.parameters)
      (stands : Json.Object.get? node.config parameter.name = some value)
      (unread : parameter.inputSuffix ∉ node.keysRead signature) :
      Respelling catalogue node (node.withConfig (parameter.respelled value node.config))

inductive Respelled (catalogue : Catalogue) (graph : Graph) : Graph → Prop
  | node {position : Nat} {node other : Node} (found : graph.nodes[position]? = some node)
      (respelling : Respelling catalogue node other) :
      Respelled catalogue graph { graph with nodes := graph.nodes.set position other }

/-! ### Ids -/

private theorem inputSuffix_ne_indicatorId (parameter : Parameter) :
    parameter.inputSuffix ≠ "indicatorId" :=
  Text.snake_ne (by decide)

private theorem Catalogue.lookup?_folded (catalogue : Catalogue) (text : String) :
    catalogue.lookup? (Text.lower (Text.trim text)) = catalogue.lookup? text := by
  rw [lookup?, lookup?, Text.lower_trim_lower_trim]

private theorem signatureOf?_of_stands {catalogue : Catalogue} {node : Node} {text : String}
    (kind : node.kind = .indicator)
    (stands : Json.Object.get? node.config "indicatorId" = some (.string text))
    (filled : Text.trim text ≠ "") :
    Naming.signatureOf? catalogue node = catalogue.lookup? text := by
  have value : node.value? "indicatorId" = some (.string text) := by
    rw [Node.value?, stands]
    rfl
  have read : node.text? "indicatorId" = some (Text.trim text) := by
    rw [Node.text?, value, Option.bind_some, Node.usableText?, if_neg]
    rwa [beq_iff_eq]
  rw [Naming.signatureOf?, if_pos (beq_iff_eq.2 kind), Node.indicatorId?, read, Option.some_or,
    Option.map_some, Option.bind_some, catalogue.lookup?_folded]

private theorem configured?_withEntry {parameter : Parameter}
    (apart : parameter.name ≠ "indicatorId")
    (node : Node) (value : Json.Value) :
    parameter.configured? (node.withEntry "indicatorId" value).config =
      parameter.configured? node.config := by
  rw [Node.withEntry, Parameter.configured?, Parameter.configured?, Json.Object.get?_insert,
    Json.Object.get?_insert, if_neg apart.symm, if_neg (inputSuffix_ne_indicatorId parameter).symm]

/-! ### Parameters -/

private theorem get?_respelled (parameter : Parameter) (value : Json.Value) (config : Json.Object)
    (key : String) : Json.Object.get? (parameter.respelled value config) key =
      if parameter.inputSuffix = key then some value
      else if key = parameter.name then none else Json.Object.get? config key := by
  rw [Parameter.respelled, Json.Object.get?_insert, Json.Object.get?_erase]

private theorem get?_respelled_of_ne {parameter : Parameter} {key : String}
    (suffix : parameter.inputSuffix ≠ key) (name : key ≠ parameter.name) (value : Json.Value)
    (config : Json.Object) :
    Json.Object.get? (parameter.respelled value config) key = Json.Object.get? config key := by
  rw [get?_respelled, if_neg suffix, if_neg name]

private theorem snake_ne_name {parameter : Parameter}
    (moved : parameter.inputSuffix ≠ parameter.name)
    (other : String) : Text.snake other ≠ parameter.name := fun same =>
  moved (by rw [Parameter.inputSuffix, ← same, Text.snake_snake])

section Parameters

variable {catalogue : Catalogue} {node : Node} {signature : Signature} {parameter : Parameter}
  {value : Json.Value} (declared : parameter ∈ signature.parameters)
  (stands : Json.Object.get? node.config parameter.name = some value)
  (unread : parameter.inputSuffix ∉ node.keysRead signature)
include declared stands unread

private theorem inputSuffix_ne_name : parameter.inputSuffix ≠ parameter.name := by
  intro same
  refine unread (List.mem_append_right _ (List.mem_flatMap.2 ⟨parameter, declared, ?_⟩))
  rw [Parameter.keysIn, if_pos (by rw [stands]; rfl), same]
  exact List.mem_singleton_self _

private theorem configured?_respelled {other : Parameter} (member : other ∈ signature.parameters) :
    other.configured? (parameter.respelled value node.config) = other.configured? node.config := by
  have moved := inputSuffix_ne_name declared stands unread
  have apart : parameter.inputSuffix ∉ other.keysIn node.config := fun read =>
    unread (List.mem_append_right _ (List.mem_flatMap.2 ⟨other, member, read⟩))
  rw [Parameter.configured?, Parameter.configured?]
  by_cases own : other.name = parameter.name
  · have suffix : other.inputSuffix = parameter.inputSuffix := congrArg Text.snake own
    rw [own, suffix, get?_respelled, get?_respelled, if_neg moved, if_pos rfl, if_pos rfl, stands]
    rfl
  · rw [Parameter.keysIn] at apart
    split at apart
    · rename_i present
      obtain ⟨found, holds⟩ := Option.isSome_iff_exists.1 present
      rw [List.mem_singleton] at apart
      rw [get?_respelled_of_ne apart own, holds, Option.some_or, Option.some_or]
    · simp only [List.mem_cons, List.not_mem_nil, or_false, not_or] at apart
      rw [get?_respelled_of_ne apart.1 own,
        get?_respelled_of_ne apart.2 (snake_ne_name moved other.name)]

private theorem indicatorId?_respelled :
    (node.withConfig (parameter.respelled value node.config)).indicatorId? =
      node.indicatorId? := by
  have moved := inputSuffix_ne_name declared stands unread
  have apart : parameter.inputSuffix ∉ node.idKeys := fun read =>
    unread (List.mem_append_left _ read)
  have text (config : Json.Object) (key : String) : (node.withConfig config).text? key =
      ((Json.Object.get? config key).filter fun value => !value.isNull).bind Node.usableText? := rfl
  have snaked : Text.snake "indicatorId" = "indicator_id" := by decide
  have first := inputSuffix_ne_indicatorId parameter
  rw [Node.indicatorId?, Node.indicatorId?, text, text]
  rw [Node.idKeys] at apart
  by_cases own : parameter.name = "indicatorId"
  · -- a parameter of the id's name takes the id along, to the key where it is looked for next
    have suffix : parameter.inputSuffix = "indicator_id" := by
      rw [Parameter.inputSuffix, own, snaked]
    have usable : (node.text? "indicatorId").isSome = true := by
      by_contra absent
      rw [if_neg absent, suffix] at apart
      exact apart (by decide)
    obtain ⟨id, read⟩ := Option.isSome_iff_exists.1 usable
    have value? : ((some value).filter fun value => !value.isNull).bind Node.usableText? =
        some id := by
      rw [← stands, own]
      exact read
    rw [get?_respelled, get?_respelled, if_neg first, if_pos own.symm, if_pos suffix, value?, read]
    rfl
  · have kept : ((Json.Object.get? node.config "indicatorId").filter fun value =>
        !value.isNull).bind Node.usableText? = node.text? "indicatorId" := rfl
    rw [get?_respelled_of_ne first (Ne.symm own), kept]
    cases read : node.text? "indicatorId" with
    | some id => rfl
    | none =>
      rw [read] at apart
      have second : parameter.inputSuffix ≠ "indicator_id" := fun same =>
        apart (same ▸ List.mem_cons_of_mem _ (List.mem_singleton_self _))
      have name : "indicator_id" ≠ parameter.name := snaked ▸ snake_ne_name moved "indicatorId"
      rw [get?_respelled_of_ne second name]
      rfl

end Parameters

/-! ### Graphs -/

theorem Respelling.alike {catalogue : Catalogue} {node other : Node}
    (respelling : Respelling catalogue node other) : Alike catalogue node other := by
  cases respelling with
  | @id old new signature kind labelled stands filled refilled found again usable apart =>
    have entered : Json.Object.get? (node.withEntry "indicatorId" (.string new)).config
        "indicatorId" = some (.string new) := by
      rw [Node.withEntry, Json.Object.get?_insert, if_pos rfl]
    have selected : Naming.signatureOf? catalogue (node.withEntry "indicatorId" (.string new)) =
        catalogue.lookup? new := signatureOf?_of_stands kind entered refilled
    exact Alike.of_selection kind (Naming.sanitize_ne labelled) usable
      ((signatureOf?_of_stands kind stands filled).trans found) (selected.trans again)
      fun parameter member => configured?_withEntry (apart parameter member) node (.string new)
  | @parameter signature parameter value signed declared stands unread =>
    refine Alike.of_readings (indicatorId?_respelled declared stands unread)
      (fun key read => ?_) fun other same parameter member => ?_
    · rw [Compilation.kind_of_signatureOf? signed] at read
      exact absurd read List.not_mem_nil
    · cases Option.some.inj (signed.symm.trans same)
      exact configured?_respelled declared stands unread member

theorem Respelled.compile {catalogue : Catalogue} {graph other : Graph}
    (respelled : Respelled catalogue graph other) (options : Compilation.Options) :
    Validation.validate catalogue other = Validation.validate catalogue graph ∧
      Compilation.compile catalogue options other =
        Compilation.compile catalogue options graph := by
  obtain ⟨found, respelling⟩ := respelled
  exact compile_set found respelling.alike options

/-- However many ids and parameters of a graph are put in another spelling, its checks find the same
and its compilation hands back the same. -/
theorem compile_respelled {catalogue : Catalogue} {graph other : Graph}
    (respelled : Relation.ReflTransGen (Respelled catalogue) graph other)
    (options : Compilation.Options) :
    Validation.validate catalogue other = Validation.validate catalogue graph ∧
      Compilation.compile catalogue options other =
        Compilation.compile catalogue options graph := by
  induction respelled with
  | refl => exact ⟨rfl, rfl⟩
  | tail _ last ih =>
    obtain ⟨report, result⟩ := last.compile options
    exact ⟨report.trans ih.1, result.trans ih.2⟩

def trendNode : Node where
  id := "trend"
  kind := .indicator
  label := "Trend"
  config :=
    [ ("fastLength", .integer 12), ("indicatorId", .string "macd"), ("signalLength", .integer 9),
      ("slowLength", .integer 26) ]

def shoutedNode : Node := trendNode.withEntry "indicatorId" (.string " MACD ")

def respelledNode : Node :=
  shoutedNode.withConfig
    (Json.Object.insert "fast_length" (.integer 12)
      (Json.Object.erase shoutedNode.config "fastLength"))

def beside (node : Node) : Graph where
  nodes := [{ id := "price", kind := .dataSource, label := "" }, node]
  edges := [⟨"e1", "price", node.id⟩]

theorem compile_respelled_trend :
    Relation.ReflTransGen (Respelled Catalogue.builtin) (beside trendNode) (beside respelledNode) ∧
      Compilation.compile Catalogue.builtin {} (beside respelledNode) =
        Compilation.compile Catalogue.builtin {} (beside trendNode) := by
  have checked : ((Catalogue.builtin.lookup? "macd").any fun signature =>
      signature.category != .operator &&
        signature.parameters.all (fun parameter => parameter.name != "indicatorId") &&
        (signature.parameter? "fastLength").isSome &&
        !(shoutedNode.keysRead signature).contains "fast_length") = true := by
    decide +kernel
  obtain ⟨signature, found, suits⟩ := (Option.any_eq_true _ _).1 checked
  simp only [Bool.and_eq_true, bne_iff_ne, List.all_eq_true, Bool.not_eq_true',
    List.contains_eq_mem, decide_eq_false_iff_not] at suits
  obtain ⟨⟨⟨usable, apart⟩, present⟩, unread⟩ := suits
  have again : Catalogue.builtin.lookup? " MACD " = some signature := by
    have folded : Text.lower (Text.trim " MACD ") = "macd" := by decide +kernel
    rw [← Catalogue.lookup?_folded, folded, found]
  obtain ⟨parameter, chosen⟩ := Option.isSome_iff_exists.1 present
  rw [Signature.parameter?] at chosen
  have named : parameter.name = "fastLength" := by simpa using List.find?_some chosen
  have snaked : parameter.inputSuffix = "fast_length" := by
    rw [Catalogue.Parameter.inputSuffix, named]
    decide +kernel
  have shouted : Respelling Catalogue.builtin trendNode shoutedNode :=
    .id rfl (by decide) rfl (by decide) (by decide) found again usable apart
  have respelled : Respelling Catalogue.builtin shoutedNode respelledNode := by
    have entered : Json.Object.get? shoutedNode.config "indicatorId" = some (.string " MACD ") := by
      rw [shoutedNode, Node.withEntry, Json.Object.get?_insert, if_pos rfl]
    have signed := (signatureOf?_of_stands rfl entered (by decide)).trans again
    have result : respelledNode =
        shoutedNode.withConfig (parameter.respelled (.integer 12) shoutedNode.config) := by
      rw [respelledNode, Parameter.respelled, named, snaked]
    rw [result]
    refine .parameter signed (List.mem_of_find?_eq_some chosen) ?_ (snaked ▸ unread)
    rw [named, shoutedNode, Node.withEntry, Json.Object.get?_insert]
    rfl
  have first : Respelled Catalogue.builtin (beside trendNode) (beside shoutedNode) :=
    @Respelled.node _ _ 1 _ _ rfl shouted
  have second : Respelled Catalogue.builtin (beside shoutedNode) (beside respelledNode) :=
    @Respelled.node _ _ 1 _ _ rfl respelled
  have run := (Relation.ReflTransGen.single first).tail second
  exact ⟨run, (compile_respelled run {}).2⟩

/-! ### Ids that are told apart -/

/-- A function with a parameter that is read under the key of the id. -/
def echo : Signature :=
  { Signature.ofCall "echo" .oscillator "own.echo" with
    parameters :=
      [{ Parameter.ofDefault "indicatorId" (.string "echo") with options := ["echo"] }] }

def echoing : Catalogue := (Catalogue.builtin.register echo).withAlias "" "sma"

def tenBars (id : String) : Graph where
  nodes :=
    [ { id := "price", kind := .dataSource, label := "" },
      { id := "line", kind := .indicator, label := "Line",
        config := [("indicatorId", .string id), ("length", .integer 10)] } ]

private theorem compile_ne {catalogue : Catalogue} {graph other : Graph}
    (valid : (Validation.validate catalogue graph).errors = [])
    (invalid : (Validation.validate catalogue other).errors ≠ []) (options : Compilation.Options) :
    Compilation.compile catalogue options other ≠ Compilation.compile catalogue options graph := by
  intro same
  rw [← Compilation.errors_compile catalogue options other, same,
    Compilation.errors_compile] at invalid
  exact invalid valid

/-- Another spelling of the id changes the result when a parameter reads it too, and so does a blank
spelling. -/
theorem tenBars_told_apart :
    (echoing.lookup? "ECHO" = echoing.lookup? "echo" ∧
      (echoing.lookup? "echo").map Signature.category = some .oscillator ∧
      Compilation.compile echoing {} (tenBars "ECHO") ≠
        Compilation.compile echoing {} (tenBars "echo")) ∧
    (echoing.lookup? "" = echoing.lookup? "sma" ∧
      (echoing.lookup? "sma").map Signature.category = some .movingAverage ∧
      Compilation.compile echoing {} (tenBars "") ≠
        Compilation.compile echoing {} (tenBars "sma")) := by
  have differs {old new : String}
      (valid : (Validation.validate echoing (tenBars old)).errors = [])
      (invalid : ((tenBars new).nodes.all fun node =>
        (Validation.nodeErrors echoing node).isEmpty) = false) :
      Compilation.compile echoing {} (tenBars new) ≠
        Compilation.compile echoing {} (tenBars old) := by
    refine compile_ne valid (fun none => ?_) {}
    have all := ((Validation.validate_errors_eq_nil_iff_of_unjoined rfl).1 none).2.2
    exact Bool.false_ne_true (invalid.symm.trans all)
  refine ⟨⟨?_, by decide +kernel, differs ?_ (by decide +kernel)⟩,
    ⟨?_, by decide +kernel, differs ?_ (by decide +kernel)⟩⟩
  · have folded : Text.lower (Text.trim "ECHO") = Text.lower (Text.trim "echo") := by
      decide +kernel
    rw [Catalogue.lookup?, Catalogue.lookup?, folded]
  · exact (Validation.validate_errors_eq_nil_iff_of_unjoined rfl).2 (by decide +kernel)
  · have resolved : echoing.resolveAlias (Text.lower (Text.trim "")) =
        echoing.resolveAlias (Text.lower (Text.trim "sma")) := by
      decide +kernel
    rw [Catalogue.lookup?, Catalogue.lookup?, resolved]
  · exact (Validation.validate_errors_eq_nil_iff_of_unjoined rfl).2 (by decide +kernel)

end StrategyCompiler
