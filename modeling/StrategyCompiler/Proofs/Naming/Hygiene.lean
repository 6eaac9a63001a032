import StrategyCompiler.Proofs.Naming.Table
/-!
The names of a graph are hygienic: no two of them clash, none is taken by the script language, and
they have the form of identifiers.  This holds for all graphs, those with cycles, edges without
ends or nodes that share an id among them.
-/

set_option autoImplicit false

namespace StrategyCompiler.Naming

open StrategyCompiler.Graph (Node)

def hasWord (text : String) : Bool := text.toList.any Char.isAlphanum

/-- An input is one of a parameter of its node's signature, and its name is an identifier when the
name of the signature or of the parameter has a word. -/
def InputFits (catalogue : Catalogue) (node : Node) (input : Input) : Prop :=
  ∃ signature, signatureOf? catalogue node = some signature ∧
    ∃ parameter ∈ signature.parameters, input.parameter = parameter.name ∧
      (hasWord signature.name = true ∨ hasWord parameter.name = true →
        isIdentifier input.name = true)

structure Hygienic (catalogue : Catalogue) (graph : Graph) (table : Table) : Prop where
  aligned : table.entries.map Entry.node = graph.nodes.map Node.id
  inputsDistinct : ((table.entries.flatMap Entry.inputs).map Input.name).Nodup
  inputsApart : ∀ input ∈ table.entries.flatMap Entry.inputs, ∀ entry ∈ table.entries,
    input.name ∉ entry.bound
  nodesApart : table.entries.Pairwise fun entry other => entry.bound.Disjoint other.bound
  unreserved : ∀ name ∈ table.identifiers,
    name ∉ Script.reservedWords ∧ name ≠ entryCondition ∧ name ≠ exitCondition
  identifiers : ∀ entry ∈ table.entries, ∀ name ∈ entry.bound, isIdentifier name = true
  fits : ∀ (position : Nat) (node : Node) (entry : Entry), graph.nodes[position]? = some node →
    table.entries[position]? = some entry → ∀ input ∈ entry.inputs, InputFits catalogue node input

private theorem pairwise_of_getElem? {α : Type} {related : α → α → Prop} {list : List α}
    (each : ∀ (i j : Nat) (a b : α), i ≠ j → list[i]? = some a → list[j]? = some b → related a b) :
    list.Pairwise related := by
  refine List.pairwise_iff_getElem.2 fun i j left right lower => ?_
  exact each i j _ _ (Nat.ne_of_lt lower) (List.getElem?_eq_getElem left)
    (List.getElem?_eq_getElem right)

private theorem disjoint_given? {α : Type} {entries : List (Nat × α)} {names : α → List String}
    (among : entries.Pairwise fun entry other => (names entry.2).Disjoint (names other.2))
    {i j : Nat} (differ : i ≠ j) :
    (((given? entries i).map names).getD []).Disjoint
      (((given? entries j).map names).getD []) := by
  have symmetric : Std.Symm fun entry other : Nat × α =>
      (names entry.2).Disjoint (names other.2) := ⟨fun _ _ apart _ own other => apart other own⟩
  cases first : given? entries i with
  | none => exact List.disjoint_nil_left _
  | some value =>
    cases second : given? entries j with
    | none => exact List.disjoint_nil_right _
    | some other =>
      exact among.forall (mem_of_given? first) (mem_of_given? second)
        fun equal => differ (Prod.mk.inj equal).1

section Bound

variable {catalogue : Catalogue} {graph : Graph}

theorem aligned_bind : (bind catalogue graph).entries.map Entry.node = graph.nodes.map Node.id := by
  rw [bind_entries]
  refine List.ext_getElem? fun position => ?_
  simp [Function.comp_def]

private theorem mem_inputs_bind {input : Input}
    (member : input ∈ (bind catalogue graph).entries.flatMap Entry.inputs) :
    input.name ∈ inputNames (givenInputs catalogue graph).1 := by
  obtain ⟨entry, inside, own⟩ := List.mem_flatMap.1 member
  obtain ⟨position, stands⟩ := List.getElem?_of_mem inside
  obtain ⟨node, -, rfl⟩ := entry_bind stands
  cases given : given? (givenInputs catalogue graph).1 position with
  | none => simp [given] at own
  | some inputs =>
    simp only [given, Option.getD_some] at own
    exact mem_inputNames_of_given? given own

theorem nodup_inputs_bind :
    (((bind catalogue graph).entries.flatMap Entry.inputs).map Input.name).Nodup := by
  have nodup := (nameAllInputs_fresh catalogue initiallyTaken (namingOrder graph)).1
  obtain ⟨each, among⟩ := List.nodup_flatMap.1 nodup
  rw [List.map_flatMap]
  refine List.nodup_flatMap.2 ⟨?_, pairwise_of_getElem? ?_⟩
  · intro entry member
    obtain ⟨position, stands⟩ := List.getElem?_of_mem member
    obtain ⟨node, -, rfl⟩ := entry_bind stands
    cases given : given? (givenInputs catalogue graph).1 position with
    | none => exact List.nodup_nil
    | some inputs => exact each _ (mem_of_given? given)
  · intro i j entry other differ left right
    obtain ⟨node, -, rfl⟩ := entry_bind left
    obtain ⟨node', -, rfl⟩ := entry_bind right
    change (List.map Input.name ((given? (givenInputs catalogue graph).1 i).getD [])).Disjoint
      (List.map Input.name ((given? (givenInputs catalogue graph).1 j).getD []))
    rw [← Option.getD_map (List.map Input.name), ← Option.getD_map (List.map Input.name)]
    exact disjoint_given? among differ

theorem disjoint_bound_bind :
    (bind catalogue graph).entries.Pairwise fun entry other =>
      entry.bound.Disjoint other.bound := by
  have among := nameNodes_disjoint catalogue (givenInputs catalogue graph).2 (namingOrder graph)
  refine pairwise_of_getElem? ?_
  intro i j entry other differ left right
  obtain ⟨node, -, rfl⟩ := entry_bind left
  obtain ⟨node', -, rfl⟩ := entry_bind right
  exact disjoint_given? among differ

theorem not_mem_initiallyTaken {name : String}
    (member : name ∈ (bind catalogue graph).identifiers) : name ∉ initiallyTaken := by
  obtain ⟨entry, inside, own⟩ := List.mem_flatMap.1 member
  rcases List.mem_append.1 own with input | bound
  · obtain ⟨input, given, rfl⟩ := List.mem_map.1 input
    exact (nameAllInputs_fresh catalogue initiallyTaken (namingOrder graph)).2 _
      (mem_inputs_bind (List.mem_flatMap.2 ⟨entry, inside, given⟩))
  · intro taken
    exact not_mem_bound inside name bound
      ((nameAllInputs_taken catalogue initiallyTaken (namingOrder graph) name).2 (.inr taken))

theorem input_not_mem_bound {input : Input} {entry : Entry}
    (member : input ∈ (bind catalogue graph).entries.flatMap Entry.inputs)
    (inside : entry ∈ (bind catalogue graph).entries) : input.name ∉ entry.bound := by
  intro bound
  refine not_mem_bound inside _ bound ?_
  exact (nameAllInputs_taken catalogue initiallyTaken (namingOrder graph) _).2
    (.inl (mem_inputs_bind member))

private theorem isIdentifier_of_mem_bound {entry : Entry} {name : String}
    (member : entry ∈ (bind catalogue graph).entries) (own : name ∈ entry.bound) :
    isIdentifier name = true := by
  obtain ⟨position, stands⟩ := List.getElem?_of_mem member
  obtain ⟨node, -, rfl⟩ := entry_bind stands
  cases given : given? (givenBindings catalogue graph) position with
  | none => simp [Entry.bound, given] at own
  | some binding =>
    obtain ⟨_, -, outputs, -, earlier, rfl⟩ := given?_givenBindings given
    simp only [Entry.bound, given, Option.map_some, Option.getD_some] at own
    exact isIdentifier_of_mem_bindNode own

theorem all_isNameChar_of_mem_identifiers {name : String}
    (member : name ∈ (bind catalogue graph).identifiers) :
    name.toList.all isNameChar = true := by
  obtain ⟨entry, inside, own⟩ := List.mem_flatMap.1 member
  rcases List.mem_append.1 own with input | bound
  · obtain ⟨input, given, rfl⟩ := List.mem_map.1 input
    obtain ⟨position, stands⟩ := List.getElem?_of_mem inside
    obtain ⟨_, -, signature, -, parameter, -, -, -, earlier, named⟩ := mem_inputs_entry stands given
    rw [named]
    exact all_isNameChar_freshName _ _ _
  · exact all_isNameChar_of_isIdentifier (isIdentifier_of_mem_bound inside bound)

private theorem inputFits_bind {position : Nat} {node : Node} {entry : Entry} {input : Input}
    (found : graph.nodes[position]? = some node)
    (stands : (bind catalogue graph).entries[position]? = some entry)
    (member : input ∈ entry.inputs) : InputFits catalogue node input := by
  obtain ⟨_, here, signature, selected, parameter, inside, same, -, earlier, named⟩ :=
    mem_inputs_entry stands member
  obtain rfl := Option.some.inj (found.symm.trans here)
  refine ⟨signature, selected, parameter, inside, same, fun word => ?_⟩
  rw [named, freshName]
  exact isIdentifier_numberedStem (isIdentifier_inputBase word) _

theorem isIdentifier_of_mem_identifiers {name : String}
    (words : ∀ node signature, signatureOf? catalogue node = some signature →
      hasWord signature.name = true)
    (member : name ∈ (bind catalogue graph).identifiers) : isIdentifier name = true := by
  obtain ⟨entry, inside, own⟩ := List.mem_flatMap.1 member
  rcases List.mem_append.1 own with input | bound
  · obtain ⟨input, given, rfl⟩ := List.mem_map.1 input
    obtain ⟨position, stands⟩ := List.getElem?_of_mem inside
    obtain ⟨node, found, -⟩ := mem_inputs_entry stands given
    obtain ⟨signature, selected, parameter, -, -, fits⟩ := inputFits_bind found stands given
    exact fits (.inl (words node signature selected))
  · exact isIdentifier_of_mem_bound inside bound

end Bound

/-! ### Names are given once -/

theorem nodup_expand {outputs : List String} (distinct : (outputs.map sanitize).Nodup)
    (stem : String) : (expand outputs stem).Nodup := by
  unfold expand
  split
  · exact List.nodup_singleton stem
  · have behind : Function.Injective fun ending : String => stem ++ "_" ++ ending := by
      intro ending other same
      simpa [← String.toList_inj] using same
    have names := distinct.map behind
    rwa [List.map_map] at names

private theorem distinct_of_namedOutputs? {catalogue : Catalogue} {node : Node}
    {outputs : List String}
    (distinct : ∀ signature, signatureOf? catalogue node = some signature →
      (signature.outputs.names.map sanitize).Nodup)
    (named : namedOutputs? catalogue node = some outputs) : (outputs.map sanitize).Nodup := by
  unfold namedOutputs? at named
  split at named
  · split at named
    · obtain rfl := Option.some.inj named
      exact List.nodup_nil
    · exact absurd named (by simp)
  · obtain rfl := Option.some.inj named
    cases selected : signatureOf? catalogue node with
    | none => exact List.nodup_nil
    | some signature => exact distinct signature selected
  · obtain rfl := Option.some.inj named
    exact List.nodup_nil
  · obtain rfl := Option.some.inj named
    exact List.nodup_nil
  · obtain rfl := Option.some.inj named
    exact List.nodup_nil
  · exact absurd named (by simp)
  · exact absurd named (by simp)

private theorem nodup_bound {catalogue : Catalogue} {graph : Graph}
    (distinct : ∀ node signature, signatureOf? catalogue node = some signature →
      (signature.outputs.names.map sanitize).Nodup)
    {entry : Entry} (member : entry ∈ (bind catalogue graph).entries) : entry.bound.Nodup := by
  obtain ⟨position, stands⟩ := List.getElem?_of_mem member
  obtain ⟨node, -, rfl⟩ := entry_bind stands
  unfold Entry.bound
  cases given : given? (givenBindings catalogue graph) position with
  | none => exact List.nodup_nil
  | some binding =>
    obtain ⟨other, -, outputs, named, earlier, rfl⟩ := given?_givenBindings given
    rw [Option.map_some, Option.getD_some, identifiers_bindNode]
    exact nodup_expand (distinct_of_namedOutputs? (distinct other) named) _

theorem nodup_identifiers {catalogue : Catalogue} {graph : Graph}
    (distinct : ∀ node signature, signatureOf? catalogue node = some signature →
      (signature.outputs.names.map sanitize).Nodup) :
    (bind catalogue graph).identifiers.Nodup := by
  have inputs : (((bind catalogue graph).entries.flatMap Entry.inputs).map Input.name).Nodup :=
    nodup_inputs_bind
  rw [List.map_flatMap, List.nodup_flatMap] at inputs
  obtain ⟨each, among⟩ := inputs
  have apart : ∀ entry ∈ (bind catalogue graph).entries,
      ∀ other ∈ (bind catalogue graph).entries,
        (entry.inputs.map Input.name).Disjoint other.bound := by
    intro entry member other inside name own
    obtain ⟨input, given, rfl⟩ := List.mem_map.1 own
    exact input_not_mem_bound (List.mem_flatMap.2 ⟨entry, member, given⟩) inside
  refine List.nodup_flatMap.2 ⟨fun entry member => ?_, ?_⟩
  · exact List.nodup_append'.2 ⟨each entry member, nodup_bound distinct member,
      apart entry member entry member⟩
  · have both := among.and disjoint_bound_bind
    refine both.imp_of_mem fun {entry other} member inside related => ?_
    refine List.disjoint_append_left.2 ⟨List.disjoint_append_right.2 ⟨related.1, ?_⟩,
      List.disjoint_append_right.2 ⟨?_, related.2⟩⟩
    · exact apart entry member other inside
    · exact fun name own input => apart other inside entry member input own

/-- The names of every graph are hygienic with every catalogue. -/
theorem hygienic_bind (catalogue : Catalogue) (graph : Graph) :
    Hygienic catalogue graph (bind catalogue graph) where
  aligned := aligned_bind
  inputsDistinct := nodup_inputs_bind
  inputsApart := by
    intro input member entry inside own
    refine not_mem_bound inside _ own ?_
    exact (nameAllInputs_taken catalogue initiallyTaken (namingOrder graph) _).2
      (.inl (mem_inputs_bind member))
  nodesApart := disjoint_bound_bind
  unreserved := by
    intro name member
    have fresh := not_mem_initiallyTaken member
    simpa [initiallyTaken] using fresh
  identifiers := fun entry member name own => isIdentifier_of_mem_bound member own
  fits := fun position node entry found stands input member => inputFits_bind found stands member

end StrategyCompiler.Naming
