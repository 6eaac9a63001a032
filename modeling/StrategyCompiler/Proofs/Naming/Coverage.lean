import Mathlib.Data.List.Forall2
import StrategyCompiler.Catalogue.Builtin
import StrategyCompiler.Proofs.Naming.Hygiene
import StrategyCompiler.Proofs.Text.Folding
/-!
What the table of names holds for each node.  Whether a node is bound, to how many names, and for
which parameters it has inputs is decided by its kind and its signature alone; the order in which
nodes are named decides the names only.
-/

set_option autoImplicit false

namespace StrategyCompiler.Naming

open Catalogue (Parameter Signature)
open StrategyCompiler.Graph (Edge Node Placed)

def StatesTimeframe (node : Node) : Prop :=
  ∃ text, node.value? "timeframe" = some (.string text) ∧ Text.isBlank text = false

def tunables (signature : Signature) : List Parameter :=
  signature.parameters.filter fun parameter => parameter.type != .source

structure Describes (catalogue : Catalogue) (node : Node) (entry : Entry) : Prop where
  owner : entry.node = node.id
  unbound : entry.binding = none ↔
    node.kind = .action ∨ node.kind = .risk ∨ node.kind = .dataSource ∧ ¬ StatesTimeframe node
  tuple : ∀ signature, signatureOf? catalogue node = some signature →
    signature.outputs.names ≠ [] →
      ∃ outputs, entry.binding = some (.tuple outputs) ∧
        outputs.map Prod.fst = signature.outputs.names
  single : ∀ binding, entry.binding = some binding →
    (∀ signature, signatureOf? catalogue node = some signature → signature.outputs.names = []) →
      ∃ name, binding = .single name
  inputs : ∀ signature, signatureOf? catalogue node = some signature →
    entry.inputs.map Input.parameter = (tunables signature).map Parameter.name
  inputless : signatureOf? catalogue node = none → entry.inputs = []

/-! ### What a node has names for -/

theorem isSome_timeframe_iff {node : Node} :
    (node.text? "timeframe").isSome = true ↔ StatesTimeframe node := by
  rw [Option.isSome_iff_exists]
  constructor
  · rintro ⟨trimmed, found⟩
    obtain ⟨value, given, usable⟩ := Option.bind_eq_some_iff.1 found
    cases value with
    | string text =>
      refine ⟨text, given, ?_⟩
      rw [← Bool.not_eq_true, ← Text.trim_eq_empty_iff]
      intro blank
      simp [Node.usableText?, blank] at usable
    | _ => simp [Node.usableText?] at usable
  · rintro ⟨text, given, written⟩
    rw [← Bool.not_eq_true, ← Text.trim_eq_empty_iff] at written
    exact ⟨Text.trim text, by simp [Node.text?, given, Node.usableText?, written]⟩

theorem namedOutputs?_eq_none_iff {catalogue : Catalogue} {node : Node} :
    namedOutputs? catalogue node = none ↔
      node.kind = .action ∨ node.kind = .risk ∨
        node.kind = .dataSource ∧ ¬ StatesTimeframe node := by
  rw [← isSome_timeframe_iff]
  unfold namedOutputs?
  cases node.kind <;> simp

private theorem eq_of_namedOutputs? {catalogue : Catalogue} {node : Node} {outputs : List String}
    (named : namedOutputs? catalogue node = some outputs) :
    outputs =
      ((signatureOf? catalogue node).map fun signature => signature.outputs.names).getD [] := by
  cases kind : node.kind with
  | indicator => simpa [namedOutputs?, kind, eq_comm] using named
  | dataSource | condition | action | risk | timing | math =>
    have unselected : signatureOf? catalogue node = none := by simp [signatureOf?, kind]
    simp_all [namedOutputs?]

theorem bindNode_tuple (taken : List String) (node : Node) {outputs : List String}
    (nonempty : outputs ≠ []) :
    ∃ pairs, bindNode taken node outputs = .tuple pairs ∧ pairs.map Prod.fst = outputs := by
  have some : outputs.isEmpty = false := by simpa using nonempty
  refine ⟨_, by rw [bindNode, some, if_neg Bool.false_ne_true], List.map_fst_zip ?_⟩
  simp [expand, some]

private theorem map_nameInputs (signature : Signature) (taken : List String)
    (parameters : List Parameter) :
    (nameInputs signature taken parameters).1.map Input.parameter =
      (parameters.filter fun parameter => parameter.type != .source).map Parameter.name := by
  induction parameters generalizing taken with
  | nil => rfl
  | cons parameter rest ih =>
    have same : parameter.type.inputFunction?.isSome = (parameter.type != .source) := by
      cases parameter.type <;> rfl
    rw [nameInputs, List.filter_cons, same]
    split
    · rw [List.map_cons, List.map_cons, ih]
    · exact ih taken

/-! ### Entries -/

section Entries

variable {catalogue : Catalogue} {graph : Graph} {position : Nat} {node : Node}

private theorem describes_bind (found : graph.nodes[position]? = some node) :
    Describes catalogue node ⟨node.id, given? (givenBindings catalogue graph) position,
      (given? (givenInputs catalogue graph).1 position).getD []⟩ where
  owner := rfl
  unbound := by
    rw [← namedOutputs?_eq_none_iff, ← Option.not_isSome_iff_eq_none, isSome_given?_bindings found,
      Option.not_isSome_iff_eq_none]
  tuple := by
    intro signature selected nonempty
    have indicator : node.kind = .indicator := by
      by_contra other
      simp [signatureOf?, other] at selected
    have named : namedOutputs? catalogue node = some signature.outputs.names := by
      simp [namedOutputs?, indicator, selected]
    obtain ⟨earlier, given⟩ := given?_bindings_of_named found named
    obtain ⟨pairs, bound, same⟩ := bindNode_tuple earlier node nonempty
    exact ⟨pairs, given.trans (congrArg some bound), same⟩
  single := by
    intro binding given outputless
    obtain ⟨_, there, outputs, named, earlier, rfl⟩ := given?_givenBindings given
    obtain rfl := Option.some.inj (found.symm.trans there)
    have empty : outputs = [] := by
      rw [eq_of_namedOutputs? named]
      cases selected : signatureOf? catalogue node with
      | none => rfl
      | some signature => exact outputless signature selected
    subst empty
    exact ⟨_, bindNode_nil earlier node⟩
  inputs := by
    intro signature selected
    obtain ⟨earlier, given⟩ := given?_inputs_of_selected found selected
    simp only [given, Option.getD_some]
    exact map_nameInputs signature earlier signature.parameters
  inputless := by
    intro unselected
    have none : given? (givenInputs catalogue graph).1 position = none := by
      rw [← Option.not_isSome_iff_eq_none, isSome_given?_inputs found, unselected]
      exact Bool.false_ne_true
    simp only [none, Option.getD_none]

end Entries

/-- The table has one entry for each node, in the order of the graph.  A node is bound unless it is
an action, a risk or a data source without a timeframe; to one name for each output of its
signature, if there are any, and to a single name otherwise; and it has an input for each parameter
of its signature that is no series. -/
theorem bind_describes_nodes (catalogue : Catalogue) (graph : Graph) :
    List.Forall₂ (Describes catalogue) graph.nodes (bind catalogue graph).entries := by
  rw [bind_entries, List.forall₂_iff_get]
  refine ⟨List.length_mapIdx.symm, fun position inside _ => ?_⟩
  rw [List.get_eq_getElem, List.get_eq_getElem, List.getElem_mapIdx]
  exact describes_bind (List.getElem?_eq_getElem inside)

/-! ### The names of one tuple -/

private theorem nodup_expand_iff (outputs : List String) (stem : String) :
    (expand outputs stem).Nodup ↔ (outputs.map sanitize).Nodup := by
  refine ⟨fun distinct => ?_, fun distinct => nodup_expand distinct stem⟩
  cases outputs with
  | nil => exact List.nodup_nil
  | cons output rest =>
    have names : expand (output :: rest) stem =
        ((output :: rest).map sanitize).map fun ending => stem ++ "_" ++ ending := by
      simp [expand]
    exact (names ▸ distinct).of_map _

private theorem fst_of_bindNode_eq_tuple {taken outputs : List String} {node : Node}
    {pairs : List (String × String)} (bound : bindNode taken node outputs = .tuple pairs) :
    pairs.map Prod.fst = outputs := by
  cases outputs with
  | nil => exact absurd ((bindNode_nil taken node).symm.trans bound) (by simp)
  | cons output rest =>
    obtain ⟨others, found, same⟩ := bindNode_tuple taken node (List.cons_ne_nil output rest)
    obtain rfl := Binding.tuple.inj (found.symm.trans bound)
    exact same

/-- The names of one tuple are distinct exactly when the identifiers made from the names of the
outputs are.  The search for a stem looks at the names that are taken before, not at the names of
the tuple itself. -/
theorem nodup_outputs_iff {catalogue : Catalogue} {graph : Graph} {entry : Entry}
    {outputs : List (String × String)} (member : entry ∈ (bind catalogue graph).entries)
    (bound : entry.binding = some (.tuple outputs)) :
    (outputs.map Prod.snd).Nodup ↔ (outputs.map fun output => sanitize output.1).Nodup := by
  obtain ⟨position, stands⟩ := List.getElem?_of_mem member
  obtain ⟨node, -, rfl⟩ := entry_bind stands
  obtain ⟨other, -, suffixes, -, earlier, same⟩ := given?_givenBindings bound
  have names : outputs.map Prod.snd =
      expand suffixes (freshStem earlier (nodeBase other) (idFragment other.id) suffixes) := by
    rw [← identifiers_bindNode, ← same, Binding.identifiers]
  have own : outputs.map (fun output => sanitize output.1) = suffixes.map sanitize := by
    rw [← fst_of_bindNode_eq_tuple same.symm, List.map_map]
    rfl
  rw [names, own, nodup_expand_iff]

def directional (rising falling : String) : Signature :=
  { Signature.ofCall "directional" .trend "own.directional" with
    outputs := .tuple [rising, falling] }

def priceTrend : Graph where
  nodes :=
    [ { id := "price", kind := .dataSource, label := "Price" },
      { id := "trend", kind := .indicator, label := "Trend",
        config := [("indicatorId", .string "directional")] } ]
  edges := [⟨"e1", "price", "trend"⟩]

/-- What is bound to the indicator on a price with these names of outputs. -/
def trendEntry (rising falling : String) (first second : String) : Entry :=
  ⟨"trend", some (.tuple [(rising, first), (falling, second)]), []⟩

theorem nodup_outputs_iff_directional :
    trendEntry "plus" "minus" "trend_plus" "trend_minus" ∈
        (bind (Catalogue.builtin.register (directional "plus" "minus")) priceTrend).entries ∧
      (["trend_plus", "trend_minus"].Nodup ↔ ["plus", "minus"].Nodup) := by
  have member : trendEntry "plus" "minus" "trend_plus" "trend_minus" ∈
      (bind (Catalogue.builtin.register (directional "plus" "minus")) priceTrend).entries := by
    decide +kernel
  have kept : sanitize "plus" = "plus" ∧ sanitize "minus" = "minus" := by decide +kernel
  have distinct := nodup_outputs_iff member rfl
  simp only [List.map_cons, List.map_nil, kept] at distinct
  exact ⟨member, distinct⟩

/-- Two outputs whose names differ in signs only share a name, so the tuple has it twice. -/
theorem directional_collides :
    ["+di", "-di"].Nodup ∧
      trendEntry "+di" "-di" "trend_di" "trend_di" ∈
        (bind (Catalogue.builtin.register (directional "+di" "-di")) priceTrend).entries ∧
      ¬ ["trend_di", "trend_di"].Nodup := by
  refine ⟨by decide, ?_, by decide⟩
  decide +kernel

end StrategyCompiler.Naming
