import Mathlib.Data.List.Find
import StrategyCompiler.Proofs.Compilation.Definitions
import StrategyCompiler.Proofs.Compilation.Wiring
import StrategyCompiler.Proofs.Graph.Stated
import StrategyCompiler.Proofs.Naming.Coverage
/-!
The two sides of a comparison.  A condition examines the first indicator or math node in front of
it, else the first data source, and compares it with its threshold, else with another value in front
of it.  No value is compared with itself.
-/

set_option autoImplicit false

namespace StrategyCompiler.Compilation

open StrategyCompiler.Graph (Node Placed StatesNumber StatesText nodesInFront)
open Naming (Binding)
open Number (Double)
open Script (Expr)

def IsFirst {α : Type} (P : α → Prop) (xs : List α) (x : α) : Prop :=
  ∃ before after, xs = before ++ x :: after ∧ P x ∧ ∀ earlier ∈ before, ¬ P earlier

def Computes (node : Node) : Prop := node.kind = .indicator ∨ node.kind = .math

/-- The node that a condition examines: the first in front of it that computes a value, else the
first data source. -/
def Examines (graph : Graph) (id : String) (source : Node) : Prop :=
  IsFirst Computes (graph.nodesInFront id) source ∨
    (∀ other ∈ graph.nodesInFront id, ¬ Computes other) ∧
      IsFirst (fun other => other.kind = .dataSource) (graph.nodesInFront id) source

/-- The first value in front of a condition other than that of the examined node. -/
def ComparesWith (graph : Graph) (id : String) (other : Node) : Prop :=
  IsFirst (fun other => other.kind.producesValue = true ∧
    ∀ source, Examines graph id source → other.id ≠ source.id) (graph.nodesInFront id) other

/-- How a condition reads the node that it examines: by the variable of the stated output, or by
that of the node's value where the node has no such output. -/
inductive OutputText (catalogue : Catalogue) (graph : Graph) (condition source : Node) :
    Option String → String → Prop
  | stated {output name : String} {outputs : List (String × String)} :
      StatesText condition "output" output →
      (Naming.bind catalogue graph).binding? source.id = some (.tuple outputs) →
      IsFirst (fun entry => entry.1 = output) outputs (output, name) →
      OutputText catalogue graph condition source (some output) name
  | value :
      (∀ output outputs, StatesText condition "output" output →
        (Naming.bind catalogue graph).binding? source.id = some (.tuple outputs) →
        ∀ entry ∈ outputs, entry.1 ≠ output) →
      OutputText catalogue graph condition source none (valueText catalogue graph source)

/-- The left operand of a condition, with the node and the output that it reads. -/
inductive LeftOperand (catalogue : Catalogue) (graph : Graph) (condition : Node) :
    Option (Node × Option String) → Expr → Prop
  | examined {source : Node} {output : Option String} {text : String} :
      Examines graph condition.id source →
      OutputText catalogue graph condition source output text →
      LeftOperand catalogue graph condition (some (source, output)) (.name text)
  | price :
      (∀ source ∈ graph.nodesInFront condition.id, source.kind.producesValue = false) →
      LeftOperand catalogue graph condition none (.name "close")

inductive RightOperand (catalogue : Catalogue) (graph : Graph) (condition : Node) : Expr → Prop
  | threshold {threshold : Double} :
      StatesNumber condition "threshold" threshold →
      RightOperand catalogue graph condition (.number threshold)
  | value {other : Node} :
      (∀ threshold, ¬ StatesNumber condition "threshold" threshold) →
      ComparesWith graph condition.id other →
      RightOperand catalogue graph condition (.name (valueText catalogue graph other))
  | zero :
      (∀ threshold, ¬ StatesNumber condition "threshold" threshold) →
      (∀ other, ¬ ComparesWith graph condition.id other) →
      RightOperand catalogue graph condition (.number (Double.ofInt 0))

variable {catalogue : Catalogue} {graph : Graph}

/-! ### First ones -/

private theorem find?_eq_some_iff_isFirst {α : Type} {p : α → Bool} {P : α → Prop}
    (tests : ∀ x, p x = true ↔ P x) {xs : List α} {x : α} :
    xs.find? p = some x ↔ IsFirst P xs x := by
  rw [List.find?_eq_some_iff_append, tests, IsFirst]
  simp only [Bool.not_eq_true', ← Bool.not_eq_true, tests]
  constructor
  · rintro ⟨holds, before, after, split, earlier⟩
    exact ⟨before, after, split, holds, earlier⟩
  · rintro ⟨before, after, split, holds, earlier⟩
    exact ⟨holds, before, after, split, earlier⟩

theorem IsFirst.mem {α : Type} {P : α → Prop} {xs : List α} {x : α} (first : IsFirst P xs x) :
    x ∈ xs := by
  obtain ⟨before, after, rfl, -, -⟩ := first
  exact List.mem_append_right _ List.mem_cons_self

theorem IsFirst.holds {α : Type} {P : α → Prop} {xs : List α} {x : α} (first : IsFirst P xs x) :
    P x := by
  obtain ⟨-, -, -, holds, -⟩ := first
  exact holds

theorem isFirst_iff_head? {α : Type} {P : α → Prop} [DecidablePred P] {xs : List α} {x : α} :
    IsFirst P xs x ↔ (xs.filter fun y => P y).head? = some x := by
  rw [List.head?_filter, find?_eq_some_iff_isFirst (P := P) fun y => decide_eq_true_iff]

theorem IsFirst.unique {α : Type} {P : α → Prop} {xs : List α} {x y : α}
    (first : IsFirst P xs x) (also : IsFirst P xs y) : y = x := by
  classical
  exact Option.some.inj ((isFirst_iff_head?.1 also).symm.trans (isFirst_iff_head?.1 first))

private theorem forall_not_isFirst_iff {α : Type} {P : α → Prop} {xs : List α} :
    (∀ x, ¬ IsFirst P xs x) ↔ ∀ x ∈ xs, ¬ P x := by
  classical
  simp only [isFirst_iff_head?, ← Option.eq_none_iff_forall_ne_some, List.head?_eq_none_iff,
    List.filter_eq_nil_iff, decide_eq_true_iff]

/-! ### The examined node -/

private theorem produces_of_computes {node : Node} (computes : Computes node) :
    node.kind.producesValue = true := by
  rcases computes with kind | kind <;> rw [kind] <;> rfl

private theorem produces_eq_false_of_unexamined {id : String}
    (unexamined : ∀ source, ¬ Examines graph id source) :
    ∀ source ∈ graph.nodesInFront id, source.kind.producesValue = false := by
  have plain := forall_not_isFirst_iff.1 fun source first => unexamined source (.inl first)
  have without := forall_not_isFirst_iff.1 fun source first =>
    unexamined source (.inr ⟨plain, first⟩)
  intro source member
  have notSeries := without source member
  have notComputed := plain source member
  cases kind : source.kind with
  | dataSource => exact absurd kind notSeries
  | indicator => exact absurd (.inl kind) notComputed
  | math => exact absurd (.inr kind) notComputed
  | condition | timing | action | risk => rfl

theorem Examines.mem {id : String} {source : Node} (examines : Examines graph id source) :
    source ∈ graph.nodesInFront id := by
  rcases examines with first | ⟨-, first⟩ <;> exact first.mem

theorem Examines.produces {id : String} {source : Node} (examines : Examines graph id source) :
    source.kind.producesValue = true := by
  rcases examines with first | ⟨-, first⟩
  · exact produces_of_computes first.holds
  · rw [first.holds]
    rfl

theorem Examines.unique {id : String} {source other : Node} (examines : Examines graph id source)
    (also : Examines graph id other) : other = source := by
  rcases examines with first | ⟨plain, first⟩
  · rcases also with second | ⟨without, -⟩
    · exact first.unique second
    · exact absurd first.holds (without source first.mem)
  · rcases also with second | ⟨-, second⟩
    · exact absurd second.holds (plain other second.mem)
    · exact first.unique second

private theorem mem_of_examined? {sources : List Placed} {source : Placed}
    (examined : Plan.examined? sources = some source) : source ∈ sources := by
  rcases Option.or_eq_some_iff.1 examined with first | ⟨-, second⟩
  · exact List.mem_of_find?_eq_some first
  · exact List.mem_of_find?_eq_some second

section Suppliers

variable {placed : Placed} (distinct : (graph.nodes.map Node.id).Nodup)
  (found : graph.nodes[placed.position]? = some placed.node)
include distinct found

private theorem map_node_suppliers (catalogue : Catalogue) :
    ((planWith catalogue graph).suppliers placed).map Placed.node =
      (graph.nodesInFront placed.node.id).filter fun source => source.kind.producesValue := by
  rw [← Graph.nodes_dependencies distinct found, List.filter_map]
  rfl

private theorem find?_suppliers_iff (catalogue : Catalogue) (p : Node → Bool) {P : Node → Prop}
    (tests : ∀ source, p source = true ↔ P source)
    (produces : ∀ source, P source → source.kind.producesValue = true) (source : Node) :
    (((planWith catalogue graph).suppliers placed).find? fun other => p other.node).map
        Placed.node = some source ↔
      IsFirst P (graph.nodesInFront placed.node.id) source := by
  have whole : ((planWith catalogue graph).suppliers placed).find? (p ∘ Placed.node) =
      ((planWith catalogue graph).suppliers placed).find? fun other => p other.node := rfl
  rw [← whole, ← List.find?_map, map_node_suppliers distinct found, List.find?_filter]
  refine find?_eq_some_iff_isFirst fun other => ?_
  rw [decide_eq_true_iff, tests]
  exact and_iff_right_of_imp (produces other)

private theorem examined?_eq_some_iff (catalogue : Catalogue) (source : Node) :
    (Plan.examined? ((planWith catalogue graph).suppliers placed)).map Placed.node = some source ↔
      Examines graph placed.node.id source := by
  have computes (node : Node) :
      (node.kind == .indicator || node.kind == .math) = true ↔ Computes node := by
    simp only [Bool.or_eq_true, beq_iff_eq, Computes]
  have series (node : Node) : (node.kind == .dataSource) = true ↔ node.kind = .dataSource :=
    beq_iff_eq
  have first := find?_suppliers_iff distinct found catalogue _ computes
    fun _ => produces_of_computes
  have second := find?_suppliers_iff distinct found catalogue _ series
    (fun other kind => by rw [kind]; rfl) source
  rw [Plan.examined?, Option.map_or, Option.or_eq_some_iff, first, second, Examines,
    Option.eq_none_iff_forall_ne_some]
  simp only [ne_eq, first]
  rw [forall_not_isFirst_iff]

private theorem comparesWith_iff (catalogue : Catalogue) (other : Node) :
    (((planWith catalogue graph).suppliers placed).find? fun source =>
        some source.position !=
          (Plan.examined? ((planWith catalogue graph).suppliers placed)).map Placed.position).map
      Placed.node = some other ↔ ComparesWith graph placed.node.id other := by
  -- In a graph with distinct ids, nodes are told apart by their ids as well as by their positions.
  have ids : ∀ source ∈ (planWith catalogue graph).suppliers placed,
      (some source.position !=
        (Plan.examined? ((planWith catalogue graph).suppliers placed)).map Placed.position) =
      (source.node.kind.producesValue && some source.node.id !=
        ((Plan.examined? ((planWith catalogue graph).suppliers placed)).map Placed.node).map
          Node.id) := by
    intro source member
    obtain ⟨there, produces⟩ := mem_suppliers_planWith member
    rw [produces, Bool.true_and]
    cases examined : Plan.examined? ((planWith catalogue graph).suppliers placed) with
    | none => rfl
    | some own =>
      obtain ⟨stands, -⟩ := mem_suppliers_planWith (mem_of_examined? examined)
      have same : source.position = own.position ↔ source.node.id = own.node.id := by
        constructor
        · intro position
          rw [eq_of_position_eq there stands position]
        · exact Graph.eq_of_id_eq distinct there stands
      rw [Bool.eq_iff_iff, Option.map_some, Option.map_some, Option.map_some, bne_iff_ne,
        bne_iff_ne, ne_eq, ne_eq, Option.some_inj, Option.some_inj, same]
  rw [List.find?_congr ids]
  refine find?_suppliers_iff distinct found catalogue
    (fun node => node.kind.producesValue && some node.id !=
      ((Plan.examined? ((planWith catalogue graph).suppliers placed)).map Placed.node).map Node.id)
    (fun source => ?_) (fun _ => And.left) other
  rw [Bool.and_eq_true, bne_iff_ne]
  refine and_congr_right fun _ => ?_
  simp only [← examined?_eq_some_iff distinct found catalogue]
  cases (Plan.examined? ((planWith catalogue graph).suppliers placed)).map Placed.node with
  | none => simp
  | some own => simp

end Suppliers

/-! ### The text of an operand -/

private theorem output?_eq_some_iff {binding : Binding} {output name : String} :
    binding.output? output = some name ↔
      ∃ outputs, binding = .tuple outputs ∧
        IsFirst (fun entry => entry.1 = output) outputs (output, name) := by
  cases binding with
  | single own => exact ⟨nofun, fun ⟨_, same, _⟩ => nomatch same⟩
  | tuple outputs =>
    simp only [Binding.output?, Option.map_eq_some_iff, Binding.tuple.injEq,
      find?_eq_some_iff_isFirst (P := fun entry : String × String => entry.1 = output)
        (fun _ => beq_iff_eq), exists_eq_left']
    constructor
    · rintro ⟨⟨own, _⟩, first, rfl⟩
      obtain rfl : own = output := first.holds
      exact first
    · exact fun first => ⟨_, first, rfl⟩

theorem exists_placed_of_mem_nodesInFront {id : String} {source : Node}
    (member : source ∈ graph.nodesInFront id) :
    ∃ placed : Placed, placed.node = source ∧ graph.nodes[placed.position]? = some placed.node := by
  obtain ⟨edge, -, found⟩ := List.mem_filterMap.1 member
  obtain ⟨position, stands⟩ := List.getElem?_of_mem (List.mem_of_find?_eq_some found)
  exact ⟨⟨position, source⟩, rfl, stands⟩

def outputVariable? (catalogue : Catalogue) (graph : Graph) (source : Node) (output : String) :
    Option String :=
  ((Naming.bind catalogue graph).binding? source.id).bind fun binding => binding.output? output

private theorem output?_of_dataSource {source : Placed} {binding : Binding}
    (there : graph.nodes[source.position]? = some source.node)
    (kind : source.node.kind = .dataSource)
    (bound : (Naming.bind catalogue graph).bindingAt? source.position = some binding)
    (output : String) : binding.output? output = none := by
  obtain ⟨node, same, outputs, named, earlier, rfl⟩ := Naming.bindingAt?_bind bound
  obtain rfl := Option.some.inj (there.symm.trans same)
  rw [Naming.namedOutputs?, kind] at named
  obtain rfl : [] = outputs := Option.some.inj (Option.ite_none_right_eq_some.1 named).2
  rw [Naming.bindNode_nil]
  rfl

section Distinct

variable (distinct : (graph.nodes.map Node.id).Nodup)
include distinct

/-- An output of a node is read by its variable, or where there is none as the value of the
node. -/
private theorem read?_eq_outputVariable (catalogue : Catalogue) {source : Placed}
    (there : graph.nodes[source.position]? = some source.node)
    (produces : source.node.kind.producesValue = true) (output : Option String) :
    (planWith catalogue graph).read? source output =
      some (.name ((output.bind (outputVariable? catalogue graph source.node)).getD
        (valueText catalogue graph source.node))) := by
  have value := (read?_eq_valueText distinct catalogue there produces).1
  cases output with
  | none => exact value
  | some output =>
    unfold Plan.read? at value ⊢
    rw [Option.bind_some, outputVariable?, binding?_bind distinct there, ← names_planWith]
    cases bound : (planWith catalogue graph).names.bindingAt? source.position with
    | none =>
      rw [bound] at value
      cases kind : source.node.kind with
      | dataSource =>
        rw [kind] at value
        exact value
      | indicator | math | condition | timing | action | risk =>
        rw [kind] at value
        exact nomatch value
    | some binding =>
      rw [bound] at value
      cases kind : source.node.kind with
      | dataSource =>
        rw [kind] at value
        rw [Option.bind_some, output?_of_dataSource there kind bound]
        exact value
      | indicator | math =>
        simp only [kind, Option.bind_none, Option.getD_none, Option.some.injEq,
          Expr.name.injEq] at value
        rw [← value]
        rfl
      | condition | timing | action | risk =>
        rw [kind] at value
        exact nomatch value

private theorem exists_outputText (catalogue : Catalogue) (condition : Node) {source : Placed}
    (there : graph.nodes[source.position]? = some source.node)
    (produces : source.node.kind.producesValue = true) :
    ∃ output text,
      (planWith catalogue graph).read? source (condition.text? "output") = some (.name text) ∧
        OutputText catalogue graph condition source.node output text := by
  rw [read?_eq_outputVariable distinct catalogue there produces]
  cases named : (condition.text? "output").bind (outputVariable? catalogue graph source.node) with
  | some name =>
    obtain ⟨output, asked, reads⟩ := Option.bind_eq_some_iff.1 named
    obtain ⟨binding, bound, own⟩ := Option.bind_eq_some_iff.1 reads
    obtain ⟨outputs, rfl, first⟩ := output?_eq_some_iff.1 own
    exact ⟨some output, name, rfl, .stated (Graph.text?_eq_some_iff.1 asked) bound first⟩
  | none =>
    refine ⟨none, _, rfl, .value fun output outputs stated bound => ?_⟩
    rw [Graph.text?_eq_some_iff.2 stated, Option.bind_some, outputVariable?, bound,
      Option.bind_some] at named
    have absent := Option.map_eq_none_iff.1 named
    intro entry member same
    exact List.find?_eq_none.1 absent entry member (beq_iff_eq.2 same)

end Distinct

/-! ### Operands -/

section Found

variable {placed : Placed} (distinct : (graph.nodes.map Node.id).Nodup)
  (found : graph.nodes[placed.position]? = some placed.node)
include distinct found

theorem exists_leftOperand (catalogue : Catalogue) :
    ∃ origin, LeftOperand catalogue graph placed.node origin
      ((planWith catalogue graph).leftOperand placed) := by
  unfold Plan.leftOperand
  cases examined : Plan.examined? ((planWith catalogue graph).suppliers placed) with
  | some source =>
    obtain ⟨there, produces⟩ := mem_suppliers_planWith (mem_of_examined? examined)
    obtain ⟨output, text, read, reads⟩ :=
      exists_outputText distinct catalogue placed.node there produces
    have first := (examined?_eq_some_iff distinct found catalogue source.node).1
      (by rw [examined]; rfl)
    rw [Option.bind_some, read]
    exact ⟨_, .examined first reads⟩
  | none =>
    refine ⟨none, .price (produces_eq_false_of_unexamined fun source first => ?_)⟩
    have absent := (examined?_eq_some_iff distinct found catalogue source).2 first
    rw [examined] at absent
    exact nomatch absent

theorem rightOperand_spec (catalogue : Catalogue) :
    RightOperand catalogue graph placed.node
      ((planWith catalogue graph).rightOperand placed) := by
  unfold Plan.rightOperand
  cases stated : placed.node.number? "threshold" with
  | some threshold => exact .threshold (Graph.number?_eq_some_iff.1 stated)
  | none =>
    have unstated := (Graph.eq_none_iff fun _ => Graph.number?_eq_some_iff).1 stated
    have first := comparesWith_iff distinct found catalogue
    cases compared : ((planWith catalogue graph).suppliers placed).find? fun source =>
        some source.position !=
          (Plan.examined? ((planWith catalogue graph).suppliers placed)).map Placed.position with
    | some source =>
      obtain ⟨there, produces⟩ := mem_suppliers_planWith (List.mem_of_find?_eq_some compared)
      have read := (read?_eq_valueText distinct catalogue there produces).1
      simp only [compared, Option.bind_some, read]
      exact .value unstated ((first source.node).1 (by rw [compared]; rfl))
    | none =>
      simp only [compared]
      refine .zero unstated fun other compares => ?_
      have absent := (first other).2 compares
      rw [compared] at absent
      exact nomatch absent

end Found

/-! ### Different operands -/

private theorem position_eq_of_bound {position other : Nat} {binding twin : Binding} {name : String}
    (bound : (Naming.bind catalogue graph).bindingAt? position = some binding)
    (also : (Naming.bind catalogue graph).bindingAt? other = some twin)
    (own : name ∈ binding.identifiers) (shared : name ∈ twin.identifiers) : position = other := by
  obtain ⟨entry, stands, binds⟩ := Option.bind_eq_some_iff.1 bound
  obtain ⟨further, there, names⟩ := Option.bind_eq_some_iff.1 also
  obtain ⟨left, rfl⟩ := List.getElem?_eq_some_iff.1 stands
  obtain ⟨right, rfl⟩ := List.getElem?_eq_some_iff.1 there
  have mine : name ∈ (Naming.bind catalogue graph).entries[position].bound := by
    rw [Naming.Entry.bound, binds]
    exact own
  have theirs : name ∈ (Naming.bind catalogue graph).entries[other].bound := by
    rw [Naming.Entry.bound, names]
    exact shared
  have disjoint : (Naming.bind catalogue graph).entries.Pairwise _ := Naming.disjoint_bound_bind
  have ordered := List.pairwise_iff_getElem.1 disjoint
  rcases Nat.lt_trichotomy position other with lower | same | higher
  · exact (ordered position other left right lower mine theirs).elim
  · exact same
  · exact (ordered other position right left higher theirs mine).elim

def BoundTo (catalogue : Catalogue) (graph : Graph) (source : Node) (name : String) : Prop :=
  ∃ binding, (Naming.bind catalogue graph).binding? source.id = some binding ∧
    name ∈ binding.identifiers

section Distinct

variable (distinct : (graph.nodes.map Node.id).Nodup)
include distinct

private theorem boundTo_valueText {source : Placed}
    (there : graph.nodes[source.position]? = some source.node)
    (member : valueText catalogue graph source.node ∈ (Naming.bind catalogue graph).identifiers) :
    BoundTo catalogue graph source.node (valueText catalogue graph source.node) := by
  unfold valueText BoundTo at *
  cases bound : (Naming.bind catalogue graph).binding? source.node.id with
  | some binding =>
    rw [binding?_bind distinct there] at bound
    exact ⟨binding, rfl, primary_mem_of_bind bound⟩
  | none =>
    rw [bound] at member
    exact absurd (seriesOf_mem source.node) (not_mem_priceSeries member)

private theorem OutputText.boundTo {condition : Node} {source : Placed} {output : Option String}
    {text : String} (reads : OutputText catalogue graph condition source.node output text)
    (there : graph.nodes[source.position]? = some source.node)
    (member : text ∈ (Naming.bind catalogue graph).identifiers) :
    BoundTo catalogue graph source.node text := by
  cases reads with
  | stated _ bound first => exact ⟨_, bound, List.mem_map_of_mem first.mem⟩
  | value => exact boundTo_valueText distinct there member

private theorem id_eq_of_boundTo {source other : Placed} {name : String}
    (there : graph.nodes[source.position]? = some source.node)
    (stands : graph.nodes[other.position]? = some other.node)
    (own : BoundTo catalogue graph source.node name)
    (shared : BoundTo catalogue graph other.node name) : other.node.id = source.node.id := by
  obtain ⟨binding, bound, member⟩ := own
  obtain ⟨twin, also, inside⟩ := shared
  rw [binding?_bind distinct there] at bound
  rw [binding?_bind distinct stands] at also
  rw [eq_of_position_eq there stands (position_eq_of_bound bound also member inside)]

theorem operands_apart {condition : Node} {origin : Option (Node × Option String)}
    {left right : Expr} (first : LeftOperand catalogue graph condition origin left)
    (second : RightOperand catalogue graph condition right) {name : String}
    (member : name ∈ (Naming.bind catalogue graph).identifiers) :
    ¬ (left = .name name ∧ right = .name name) := by
  rintro ⟨isLeft, isRight⟩
  cases second with
  | threshold | zero => exact nomatch isRight
  | @value other _ compares =>
    obtain rfl := Expr.name.inj isRight
    cases first with
    | price =>
      refine not_mem_priceSeries member ?_
      rw [← Expr.name.inj isLeft]
      decide
    | @examined source output text examines reads =>
      obtain rfl := Expr.name.inj isLeft
      obtain ⟨placed, rfl, there⟩ := exists_placed_of_mem_nodesInFront examines.mem
      obtain ⟨twin, rfl, stands⟩ := exists_placed_of_mem_nodesInFront compares.mem
      exact compares.holds.2 _ examines (id_eq_of_boundTo distinct there stands
        (reads.boundTo distinct there member) (boundTo_valueText distinct stands member))

end Distinct

end StrategyCompiler.Compilation
