import Mathlib.Data.List.Nodup
import Mathlib.Data.List.Pairwise
import StrategyCompiler.Naming.Table
import StrategyCompiler.Proofs.Graph.Adjacency
import StrategyCompiler.Proofs.Naming.Fresh
import StrategyCompiler.Proofs.Naming.Identifier
/-!
The names of a graph are hygienic.  Inputs, then nodes, take names that are free, and each name is
taken from then on; so no two of them clash, whatever the labels, the ids and the catalogue are.
-/

set_option autoImplicit false

namespace StrategyCompiler.Naming

open Catalogue (Parameter Signature)
open StrategyCompiler.Graph (Index Node Placed)

/-! ### Inputs -/

def inputNames (given : List (Nat × List Input)) : List String :=
  given.flatMap fun entry => entry.2.map Input.name

theorem nameInputs_taken (signature : Signature) (taken : List String)
    (parameters : List Parameter) :
    ∀ name, name ∈ (nameInputs signature taken parameters).2 ↔
      name ∈ (nameInputs signature taken parameters).1.map Input.name ∨ name ∈ taken := by
  induction parameters generalizing taken with
  | nil => simp [nameInputs]
  | cons parameter rest ih =>
    intro name
    rw [nameInputs]
    split
    · simp only [ih, List.mem_cons, List.map_cons]
      tauto
    · exact ih taken name

private theorem nameInputs_fresh (signature : Signature) (taken : List String)
    (parameters : List Parameter) :
    ((nameInputs signature taken parameters).1.map Input.name).Nodup ∧
      ∀ name ∈ (nameInputs signature taken parameters).1.map Input.name, name ∉ taken := by
  induction parameters generalizing taken with
  | nil => simp [nameInputs]
  | cons parameter rest ih =>
    rw [nameInputs]
    split
    · obtain ⟨nodup, fresh⟩ := ih (freshName taken (inputBase signature parameter) :: taken)
      refine ⟨?_, ?_⟩
      · refine List.nodup_cons.2 ⟨fun member => ?_, nodup⟩
        exact fresh _ member List.mem_cons_self
      · intro name member
        rcases List.mem_cons.1 member with rfl | later
        · exact freshName_not_mem _ _
        · exact fun old => fresh name later (List.mem_cons_of_mem _ old)
    · exact ih taken

private theorem mem_nameInputs {signature : Signature} {taken : List String}
    {parameters : List Parameter} {input : Input}
    (member : input ∈ (nameInputs signature taken parameters).1) :
    ∃ parameter ∈ parameters, input.parameter = parameter.name ∧
      parameter.type.inputFunction?.isSome = true ∧
      ∃ earlier, input.name = freshName earlier (inputBase signature parameter) := by
  induction parameters generalizing taken with
  | nil => simp [nameInputs] at member
  | cons parameter rest ih =>
    rw [nameInputs] at member
    split at member
    · rename_i tunable
      rcases List.mem_cons.1 member with rfl | later
      · exact ⟨parameter, List.mem_cons_self, rfl, tunable, taken, rfl⟩
      · obtain ⟨found, inside, facts⟩ := ih later
        exact ⟨found, List.mem_cons_of_mem _ inside, facts⟩
    · obtain ⟨found, inside, facts⟩ := ih member
      exact ⟨found, List.mem_cons_of_mem _ inside, facts⟩

section AllInputs

variable (catalogue : Catalogue)

theorem nameAllInputs_taken (taken : List String) (order : List Placed) :
    ∀ name, name ∈ (nameAllInputs catalogue taken order).2 ↔
      name ∈ inputNames (nameAllInputs catalogue taken order).1 ∨ name ∈ taken := by
  induction order generalizing taken with
  | nil => simp [nameAllInputs, inputNames]
  | cons placed rest ih =>
    intro name
    rw [nameAllInputs]
    split
    · exact ih taken name
    · simp only [ih, nameInputs_taken, inputNames, List.flatMap_cons, List.mem_append]
      tauto

theorem nameAllInputs_fresh (taken : List String) (order : List Placed) :
    (inputNames (nameAllInputs catalogue taken order).1).Nodup ∧
      ∀ name ∈ inputNames (nameAllInputs catalogue taken order).1, name ∉ taken := by
  induction order generalizing taken with
  | nil => simp [nameAllInputs, inputNames]
  | cons placed rest ih =>
    rw [nameAllInputs]
    split
    · exact ih taken
    · rename_i signature _
      obtain ⟨nodup, fresh⟩ := nameInputs_fresh signature taken signature.parameters
      obtain ⟨laterNodup, laterFresh⟩ := ih (nameInputs signature taken signature.parameters).2
      simp only [nameInputs_taken, not_or] at laterFresh
      refine ⟨?_, ?_⟩
      · refine List.nodup_append'.2 ⟨nodup, laterNodup, ?_⟩
        exact fun name own later => (laterFresh name later).1 own
      · intro name member
        rcases List.mem_append.1 member with own | later
        · exact fresh name own
        · exact (laterFresh name later).2

private theorem nameAllInputs_positions (taken : List String) (order : List Placed) :
    (nameAllInputs catalogue taken order).1.map Prod.fst =
      (order.filter fun placed => (signatureOf? catalogue placed.node).isSome).map
        Placed.position := by
  induction order generalizing taken with
  | nil => rfl
  | cons placed rest ih =>
    rw [nameAllInputs]
    split
    · rename_i none
      simp [ih, none]
    · rename_i some
      simp [ih, some]

variable {catalogue}

theorem mem_nameAllInputs {taken : List String} {order : List Placed} {position : Nat}
    {inputs : List Input} (member : (position, inputs) ∈ (nameAllInputs catalogue taken order).1) :
    ∃ placed ∈ order, placed.position = position ∧
      ∃ signature, signatureOf? catalogue placed.node = some signature ∧
        ∃ earlier, inputs = (nameInputs signature earlier signature.parameters).1 := by
  induction order generalizing taken with
  | nil => simp [nameAllInputs] at member
  | cons placed rest ih =>
    rw [nameAllInputs] at member
    split at member
    · obtain ⟨found, inside, facts⟩ := ih member
      exact ⟨found, List.mem_cons_of_mem _ inside, facts⟩
    · rename_i signature selected
      rcases List.mem_cons.1 member with here | later
      · obtain ⟨rfl, rfl⟩ := Prod.mk.inj here
        exact ⟨placed, List.mem_cons_self, rfl, signature, selected, taken, rfl⟩
      · obtain ⟨found, inside, facts⟩ := ih later
        exact ⟨found, List.mem_cons_of_mem _ inside, facts⟩

end AllInputs

/-! ### Nodes -/

theorem identifiers_bindNode (taken : List String) (node : Node) (outputs : List String) :
    (bindNode taken node outputs).identifiers =
      expand outputs (freshStem taken (nodeBase node) (idFragment node.id) outputs) := by
  unfold bindNode
  split
  · rename_i empty
    simp [Binding.identifiers, expand, empty]
  · rename_i nonempty
    simp only [Binding.identifiers]
    refine List.map_snd_zip ?_
    simp [expand, nonempty]

private theorem bindNode_fresh (taken : List String) (node : Node) (outputs : List String) :
    ∀ name ∈ (bindNode taken node outputs).identifiers, name ∉ taken := by
  rw [identifiers_bindNode]
  exact freshStem_not_mem _ _ _ _

section Nodes

variable (catalogue : Catalogue)

private theorem nameNodes_fresh (taken : List String) (order : List Placed) :
    ∀ entry ∈ nameNodes catalogue taken order, ∀ name ∈ entry.2.identifiers, name ∉ taken := by
  induction order generalizing taken with
  | nil => simp [nameNodes]
  | cons placed rest ih =>
    intro entry member
    rw [nameNodes] at member
    split at member
    · exact ih taken entry member
    · rcases List.mem_cons.1 member with rfl | later
      · exact bindNode_fresh _ _ _
      · intro name own old
        exact ih _ entry later name own (List.mem_append_right _ old)

theorem nameNodes_disjoint (taken : List String) (order : List Placed) :
    (nameNodes catalogue taken order).Pairwise fun entry other =>
      entry.2.identifiers.Disjoint other.2.identifiers := by
  induction order generalizing taken with
  | nil => exact List.Pairwise.nil
  | cons placed rest ih =>
    rw [nameNodes]
    split
    · exact ih taken
    · refine List.Pairwise.cons ?_ (ih _)
      intro other later name own also
      exact nameNodes_fresh catalogue _ rest other later name also (List.mem_append_left _ own)

private theorem nameNodes_positions (taken : List String) (order : List Placed) :
    (nameNodes catalogue taken order).map Prod.fst =
      (order.filter fun placed => (namedOutputs? catalogue placed.node).isSome).map
        Placed.position := by
  induction order generalizing taken with
  | nil => rfl
  | cons placed rest ih =>
    rw [nameNodes]
    split
    · rename_i none
      simp [ih, none]
    · rename_i some
      simp [ih, some]

variable {catalogue}

theorem mem_nameNodes {taken : List String} {order : List Placed} {position : Nat}
    {binding : Binding} (member : (position, binding) ∈ nameNodes catalogue taken order) :
    ∃ placed ∈ order, placed.position = position ∧
      ∃ outputs, namedOutputs? catalogue placed.node = some outputs ∧
        ∃ earlier, binding = bindNode earlier placed.node outputs := by
  induction order generalizing taken with
  | nil => simp [nameNodes] at member
  | cons placed rest ih =>
    rw [nameNodes] at member
    split at member
    · obtain ⟨found, inside, facts⟩ := ih member
      exact ⟨found, List.mem_cons_of_mem _ inside, facts⟩
    · rename_i outputs named
      rcases List.mem_cons.1 member with here | later
      · obtain ⟨rfl, rfl⟩ := Prod.mk.inj here
        exact ⟨placed, List.mem_cons_self, rfl, outputs, named, taken, rfl⟩
      · obtain ⟨found, inside, facts⟩ := ih later
        exact ⟨found, List.mem_cons_of_mem _ inside, facts⟩

end Nodes

/-! ### The form of names -/

private theorem all_isNameChar_toString (number : Nat) :
    (toString number).toList.all isNameChar = true := by
  rw [Nat.toString_eq_ofList_toDigits, String.toList_ofList, List.all_eq_true]
  intro c member
  simp [isNameChar, isDigit_of_mem_toDigits member]

theorem isIdentifier_numberedStem {base : String} (identifier : isIdentifier base = true)
    (index : Nat) : isIdentifier (numberedStem base index) = true := by
  unfold numberedStem
  split
  · exact identifier
  · exact isIdentifier_append (isIdentifier_append identifier (by decide))
      (all_isNameChar_toString _)

private theorem isIdentifier_nodeStem {base fragment : String}
    (identifier : isIdentifier base = true)
    (names : fragment.toList.all isNameChar = true) (index : Nat) :
    isIdentifier (nodeStem base fragment index) = true := by
  unfold nodeStem
  split
  · exact isIdentifier_numberedStem identifier index
  · split
    · exact identifier
    · refine isIdentifier_numberedStem (isIdentifier_append ?_ names) _
      exact isIdentifier_append identifier (by decide)

private theorem isIdentifier_nodeBase (node : Node) : isIdentifier (nodeBase node) = true := by
  unfold nodeBase
  split
  · rename_i labelled
    exact isIdentifier_sanitize_of_ne (by simpa using labelled)
  · split
    · rename_i name found
      obtain ⟨selected, nonempty⟩ := Option.filter_eq_some_iff.1 found
      obtain ⟨id, -, rfl⟩ := Option.map_eq_some_iff.1 selected
      exact isIdentifier_sanitize_of_ne (by simpa using nonempty)
    · cases node.kind <;> decide

private theorem isIdentifier_of_mem_expand {outputs : List String} {stem name : String}
    (identifier : isIdentifier stem = true) (member : name ∈ expand outputs stem) :
    isIdentifier name = true := by
  unfold expand at member
  split at member
  · rwa [List.mem_singleton.1 member]
  · obtain ⟨output, -, rfl⟩ := List.mem_map.1 member
    refine isIdentifier_append (isIdentifier_append identifier (by decide)) ?_
    exact all_isNameChar_sanitize output

private theorem isIdentifier_freshStem (taken : List String) (node : Node) (outputs : List String) :
    isIdentifier (freshStem taken (nodeBase node) (idFragment node.id) outputs) = true := by
  unfold freshStem
  exact isIdentifier_nodeStem (isIdentifier_nodeBase node) (all_isNameChar_idFragment node.id) _

theorem isIdentifier_of_mem_bindNode {taken outputs : List String} {node : Node} {name : String}
    (member : name ∈ (bindNode taken node outputs).identifiers) : isIdentifier name = true := by
  rw [identifiers_bindNode] at member
  exact isIdentifier_of_mem_expand (isIdentifier_freshStem taken node outputs) member

private theorem any_isAlphanum_snake {name : String}
    (word : name.toList.any Char.isAlphanum = true) :
    (Text.snake name).toList.any Char.isAlphanum = true := by
  rw [Text.snake, String.toList_ofList]
  cases chars : name.toList with
  | nil => simp [chars] at word
  | cons first rest =>
    rw [chars, List.any_cons, Bool.or_eq_true] at word
    rw [Text.snakeChars, List.any_cons, Bool.or_eq_true]
    rcases word with here | later
    · exact .inl (isAlphanum_toLower here)
    · refine .inr ?_
      obtain ⟨c, member, alphanum⟩ := List.any_eq_true.1 later
      refine List.any_eq_true.2 ⟨if c.isUpper then c.toLower else c, ?_, ?_⟩
      · refine List.mem_flatMap.2 ⟨c, member, ?_⟩
        unfold Text.snakeChar
        split <;> simp
      · split
        · exact isAlphanum_toLower alphanum
        · exact alphanum

theorem isIdentifier_inputBase {signature : Signature} {parameter : Parameter}
    (word : signature.name.toList.any Char.isAlphanum = true ∨
      parameter.name.toList.any Char.isAlphanum = true) :
    isIdentifier (inputBase signature parameter) = true := by
  refine isIdentifier_sanitize ?_
  rw [String.toList_append, String.toList_append, List.any_append, List.any_append]
  rcases word with own | given
  · simp [own]
  · simp [Parameter.inputSuffix, any_isAlphanum_snake given]

/-! ### The table -/

def Entry.bound (entry : Entry) : List String :=
  (entry.binding.map Binding.identifiers).getD []

theorem mem_of_given? {α : Type} {entries : List (Nat × α)} {position : Nat} {value : α}
    (given : given? entries position = some value) : (position, value) ∈ entries := by
  obtain ⟨⟨first, found⟩, stands, rfl⟩ := Option.map_eq_some_iff.1 given
  have same := List.find?_some stands
  obtain rfl : first = position := by simpa using same
  exact List.mem_of_find?_eq_some stands

private theorem isSome_given?_iff {α : Type} {entries : List (Nat × α)} {position : Nat} :
    (given? entries position).isSome = true ↔ position ∈ entries.map Prod.fst := by
  simp [given?]

section Bound

variable (catalogue : Catalogue) (graph : Graph)

def namingOrder : List Placed :=
  (Index.ofGraph graph).placed (Index.ofGraph graph).order

/-- The inputs that each position is given, and the names taken after them. -/
def givenInputs : List (Nat × List Input) × List String :=
  nameAllInputs catalogue initiallyTaken (namingOrder graph)

def givenBindings : List (Nat × Binding) :=
  nameNodes catalogue (givenInputs catalogue graph).2 (namingOrder graph)

theorem bind_entries :
    (bind catalogue graph).entries = graph.nodes.mapIdx fun position node =>
      ⟨node.id, given? (givenBindings catalogue graph) position,
        (given? (givenInputs catalogue graph).1 position).getD []⟩ := by
  rw [bind, bindAlong, Index.ofGraph_graph]
  rfl

variable {catalogue graph}

theorem mem_namingOrder {placed : Placed} :
    placed ∈ namingOrder graph ↔ graph.nodes[placed.position]? = some placed.node := by
  rw [namingOrder, Index.mem_placed_order, Index.node?_ofGraph]

theorem entry_bind {position : Nat} {entry : Entry}
    (stands : (bind catalogue graph).entries[position]? = some entry) :
    ∃ node, graph.nodes[position]? = some node ∧
      entry = ⟨node.id, given? (givenBindings catalogue graph) position,
        (given? (givenInputs catalogue graph).1 position).getD []⟩ := by
  rw [bind_entries, List.getElem?_mapIdx] at stands
  obtain ⟨node, found, rfl⟩ := Option.map_eq_some_iff.1 stands
  exact ⟨node, found, rfl⟩

/-- What is bound at a position is a binding of its node, for the outputs that it has names for. -/
theorem given?_givenBindings {position : Nat} {binding : Binding}
    (given : given? (givenBindings catalogue graph) position = some binding) :
    ∃ node, graph.nodes[position]? = some node ∧
      ∃ outputs, namedOutputs? catalogue node = some outputs ∧
        ∃ earlier, binding = bindNode earlier node outputs := by
  obtain ⟨placed, member, rfl, facts⟩ := mem_nameNodes (mem_of_given? given)
  exact ⟨placed.node, mem_namingOrder.1 member, facts⟩

private theorem given?_givenInputs {position : Nat} {inputs : List Input}
    (given : given? (givenInputs catalogue graph).1 position = some inputs) :
    ∃ node, graph.nodes[position]? = some node ∧
      ∃ signature, signatureOf? catalogue node = some signature ∧
        ∃ earlier, inputs = (nameInputs signature earlier signature.parameters).1 := by
  obtain ⟨placed, member, rfl, facts⟩ := mem_nameAllInputs (mem_of_given? given)
  exact ⟨placed.node, mem_namingOrder.1 member, facts⟩

private theorem mem_map_position_iff (own : Node → Bool) {position : Nat} {node : Node}
    (found : graph.nodes[position]? = some node) :
    position ∈ ((namingOrder graph).filter fun placed => own placed.node).map Placed.position ↔
      own node = true := by
  rw [List.mem_map]
  constructor
  · rintro ⟨placed, member, rfl⟩
    obtain ⟨inside, holds⟩ := List.mem_filter.1 member
    obtain rfl := Option.some.inj (found.symm.trans (mem_namingOrder.1 inside))
    exact holds
  · intro holds
    exact ⟨⟨position, node⟩, List.mem_filter.2 ⟨mem_namingOrder.2 found, holds⟩, rfl⟩

theorem isSome_given?_bindings {position : Nat} {node : Node}
    (found : graph.nodes[position]? = some node) :
    (given? (givenBindings catalogue graph) position).isSome =
      (namedOutputs? catalogue node).isSome := by
  rw [Bool.eq_iff_iff, isSome_given?_iff, givenBindings, nameNodes_positions]
  exact mem_map_position_iff (fun node => (namedOutputs? catalogue node).isSome) found

theorem isSome_given?_inputs {position : Nat} {node : Node}
    (found : graph.nodes[position]? = some node) :
    (given? (givenInputs catalogue graph).1 position).isSome =
      (signatureOf? catalogue node).isSome := by
  rw [Bool.eq_iff_iff, isSome_given?_iff, givenInputs, nameAllInputs_positions]
  exact mem_map_position_iff (fun node => (signatureOf? catalogue node).isSome) found

theorem given?_bindings_of_named {position : Nat} {node : Node} {outputs : List String}
    (found : graph.nodes[position]? = some node)
    (named : namedOutputs? catalogue node = some outputs) :
    ∃ earlier, given? (givenBindings catalogue graph) position =
      some (bindNode earlier node outputs) := by
  have some : (given? (givenBindings catalogue graph) position).isSome = true := by
    rw [isSome_given?_bindings found, named, Option.isSome_some]
  obtain ⟨binding, given⟩ := Option.isSome_iff_exists.1 some
  obtain ⟨_, there, others, same, earlier, rfl⟩ := given?_givenBindings given
  obtain rfl := Option.some.inj (found.symm.trans there)
  obtain rfl := Option.some.inj (named.symm.trans same)
  exact ⟨earlier, given⟩

theorem given?_inputs_of_selected {position : Nat} {node : Node} {signature : Signature}
    (found : graph.nodes[position]? = some node)
    (selected : signatureOf? catalogue node = some signature) :
    ∃ earlier, given? (givenInputs catalogue graph).1 position =
      some (nameInputs signature earlier signature.parameters).1 := by
  have some : (given? (givenInputs catalogue graph).1 position).isSome = true := by
    rw [isSome_given?_inputs found, selected, Option.isSome_some]
  obtain ⟨inputs, given⟩ := Option.isSome_iff_exists.1 some
  obtain ⟨_, there, other, same, earlier, rfl⟩ := given?_givenInputs given
  obtain rfl := Option.some.inj (found.symm.trans there)
  obtain rfl := Option.some.inj (selected.symm.trans same)
  exact ⟨earlier, given⟩

theorem mem_inputNames_of_given? {position : Nat} {inputs : List Input} {input : Input}
    (given : given? (givenInputs catalogue graph).1 position = some inputs)
    (member : input ∈ inputs) : input.name ∈ inputNames (givenInputs catalogue graph).1 :=
  List.mem_flatMap.2 ⟨(position, inputs), mem_of_given? given, List.mem_map_of_mem member⟩

theorem not_mem_bound {entry : Entry} (member : entry ∈ (bind catalogue graph).entries) :
    ∀ name ∈ entry.bound, name ∉ (givenInputs catalogue graph).2 := by
  obtain ⟨position, stands⟩ := List.getElem?_of_mem member
  obtain ⟨node, -, rfl⟩ := entry_bind stands
  intro name own
  cases given : given? (givenBindings catalogue graph) position with
  | none => simp [Entry.bound, given] at own
  | some binding =>
    simp only [Entry.bound, given, Option.map_some, Option.getD_some] at own
    exact nameNodes_fresh catalogue _ _ _ (mem_of_given? given) name own

/-! ### Lookups -/

theorem bindingAt?_eq {position : Nat} :
    (bind catalogue graph).bindingAt? position =
      given? (givenBindings catalogue graph) position := by
  rw [Table.bindingAt?, bind_entries, List.getElem?_mapIdx]
  cases found : graph.nodes[position]? with
  | some node => rfl
  | none =>
    cases given : given? (givenBindings catalogue graph) position with
    | none => rfl
    | some binding =>
      obtain ⟨node, stands, -⟩ := given?_givenBindings given
      rw [found] at stands
      exact absurd stands (by simp)

theorem bindingAt?_bind {position : Nat} {binding : Binding}
    (bound : (bind catalogue graph).bindingAt? position = some binding) :
    ∃ node, graph.nodes[position]? = some node ∧
      ∃ outputs, namedOutputs? catalogue node = some outputs ∧
        ∃ earlier, binding = bindNode earlier node outputs := by
  rw [bindingAt?_eq] at bound
  exact given?_givenBindings bound

theorem mem_inputs_entry {position : Nat} {entry : Entry} {input : Input}
    (stands : (bind catalogue graph).entries[position]? = some entry)
    (member : input ∈ entry.inputs) :
    ∃ node, graph.nodes[position]? = some node ∧
      ∃ signature, signatureOf? catalogue node = some signature ∧
        ∃ parameter ∈ signature.parameters, input.parameter = parameter.name ∧
          parameter.type.inputFunction?.isSome = true ∧
          ∃ earlier, input.name = freshName earlier (inputBase signature parameter) := by
  obtain ⟨node, here, rfl⟩ := entry_bind stands
  cases given : given? (givenInputs catalogue graph).1 position with
  | none => simp [given] at member
  | some inputs =>
    obtain ⟨_, there, signature, signed, earlier, rfl⟩ := given?_givenInputs given
    obtain rfl := Option.some.inj (here.symm.trans there)
    simp only [given, Option.getD_some] at member
    exact ⟨node, here, signature, signed, mem_nameInputs member⟩

theorem inputAt?_bind {position : Nat} {key name : String}
    (found : (bind catalogue graph).inputAt? position key = some name) :
    ∃ node, graph.nodes[position]? = some node ∧
      ∃ signature, signatureOf? catalogue node = some signature ∧
        ∃ parameter ∈ signature.parameters, parameter.name = key ∧
          parameter.type.inputFunction?.isSome = true ∧
          ∃ earlier, name = freshName earlier (inputBase signature parameter) := by
  obtain ⟨entry, stands, looked⟩ := Option.bind_eq_some_iff.1 found
  obtain ⟨input, selected, rfl⟩ := Option.map_eq_some_iff.1 looked
  have same : input.parameter = key := by simpa using List.find?_some selected
  obtain ⟨node, here, signature, signed, parameter, inside, own, facts⟩ :=
    mem_inputs_entry stands (List.mem_of_find?_eq_some selected)
  exact ⟨node, here, signature, signed, parameter, inside, own.symm.trans same, facts⟩

private theorem exists_mem_nameInputs {signature : Signature} {taken : List String}
    {parameters : List Parameter} {parameter : Parameter} (member : parameter ∈ parameters)
    (tunable : parameter.type.inputFunction?.isSome = true) :
    ∃ input ∈ (nameInputs signature taken parameters).1, input.parameter = parameter.name := by
  induction parameters generalizing taken with
  | nil => exact absurd member List.not_mem_nil
  | cons first rest ih =>
    rw [nameInputs]
    rcases List.mem_cons.1 member with rfl | later
    · rw [if_pos tunable]
      exact ⟨_, List.mem_cons_self, rfl⟩
    · split
      · obtain ⟨input, inside, same⟩ := ih later
        exact ⟨input, List.mem_cons_of_mem _ inside, same⟩
      · exact ih later

theorem isSome_inputAt?_bind {position : Nat} {node : Node} {signature : Signature}
    {parameter : Parameter} (found : graph.nodes[position]? = some node)
    (selected : signatureOf? catalogue node = some signature)
    (member : parameter ∈ signature.parameters)
    (tunable : parameter.type.inputFunction?.isSome = true) :
    ((bind catalogue graph).inputAt? position parameter.name).isSome = true := by
  obtain ⟨earlier, given⟩ := given?_inputs_of_selected found selected
  obtain ⟨input, inside, same⟩ := exists_mem_nameInputs member tunable
  rw [Table.inputAt?, bind_entries, List.getElem?_mapIdx, found]
  simp only [Option.map_some, Option.bind_some, given, Option.getD_some, Option.isSome_map,
    List.find?_isSome]
  exact ⟨input, inside, by simpa using same⟩

private theorem all_isNameChar_numberedStem {base : String}
    (names : base.toList.all isNameChar = true)
    (index : Nat) : (numberedStem base index).toList.all isNameChar = true := by
  unfold numberedStem
  split
  · exact names
  · have underscore : "_".toList.all isNameChar = true := by decide
    simp only [numbered, String.toList_append, List.all_append, names, underscore,
      all_isNameChar_toString, Bool.and_self]

theorem all_isNameChar_freshName (taken : List String) (signature : Signature)
    (parameter : Parameter) :
    (freshName taken (inputBase signature parameter)).toList.all isNameChar = true :=
  all_isNameChar_numberedStem (all_isNameChar_sanitize _) _

theorem all_isNameChar_of_inputAt? {position : Nat} {key name : String}
    (found : (bind catalogue graph).inputAt? position key = some name) :
    name.toList.all isNameChar = true := by
  obtain ⟨_, -, signature, -, parameter, -, -, -, earlier, rfl⟩ := inputAt?_bind found
  exact all_isNameChar_freshName _ _ _

theorem isIdentifier_of_bindingAt? {position : Nat} {binding : Binding} {name : String}
    (bound : (bind catalogue graph).bindingAt? position = some binding)
    (member : name ∈ binding.identifiers) : isIdentifier name = true := by
  obtain ⟨_, -, outputs, -, earlier, rfl⟩ := bindingAt?_bind bound
  exact isIdentifier_of_mem_bindNode member

end Bound

/-! ### Bindings -/

@[simp]
private theorem Binding.primary_single (name : String) : (Binding.single name).primary = name := rfl

@[simp]
private theorem Binding.identifiers_single (name : String) : (Binding.single name).identifiers =
    [name] :=
  rfl

theorem bindNode_nil (taken : List String) (node : Node) :
    bindNode taken node [] = .single (freshStem taken (nodeBase node) (idFragment node.id) []) := by
  simp only [bindNode, List.isEmpty_nil, if_true]

theorem primary_mem_identifiers (taken : List String) (node : Node) (outputs : List String) :
    (bindNode taken node outputs).primary ∈ (bindNode taken node outputs).identifiers := by
  cases outputs with
  | nil =>
    rw [bindNode_nil, Binding.primary_single, Binding.identifiers_single]
    exact List.mem_singleton_self _
  | cons output rest => exact List.mem_cons_self

theorem mem_identifiers_of_output? {binding : Binding} {suffix name : String}
    (found : binding.output? suffix = some name) : name ∈ binding.identifiers := by
  cases binding with
  | single own => simp [Binding.output?] at found
  | tuple outputs =>
    obtain ⟨entry, selected, rfl⟩ := Option.map_eq_some_iff.1 found
    exact List.mem_map_of_mem (List.mem_of_find?_eq_some selected)

end StrategyCompiler.Naming
