import StrategyCompiler.Graph.Config
import StrategyCompiler.Proofs.Text.Folding
/-!
What nodes state in their configuration, said of the entries themselves.  The readers of texts,
numbers, order types and order sizes find what is stated, and nothing else.
-/

set_option autoImplicit false

namespace StrategyCompiler.Graph

open Number (Double)

/-- A node states a text under a key: a string that is not blank, without the white space around
it. -/
def StatesText (node : Node) (key text : String) : Prop :=
  ∃ raw, Json.Object.get? node.config key = some (.string raw) ∧ Text.isBlank raw = false ∧
    text = Text.trim raw

def StatesNumber (node : Node) (key : String) (number : Double) : Prop :=
  ∃ raw, Json.Object.get? node.config key = some raw ∧ raw.numeric? = some number

def StatesOrderType (node : Node) (orderType : OrderType) : Prop :=
  ∃ raw, Json.Object.get? node.config "orderType" = some (.string raw) ∧
    orderType.name = Text.lower (Text.trim raw)

def StatesQuantity (node : Node) (quantity : Double) : Prop :=
  StatesNumber node "quantity" quantity ∧ (Double.ofInt 0).lt quantity = true

variable {node : Node} {key text : String} {number : Double}

private theorem bind_value? {α : Type} {read : Json.Value → Option α} (null : read .null = none) :
    (node.value? key).bind read = (Json.Object.get? node.config key).bind read := by
  unfold Node.value?
  cases Json.Object.get? node.config key with
  | none => rfl
  | some value =>
    cases value with
    | null => exact null.symm
    | _ => rfl

private theorem usableText?_eq_some_iff {value : Json.Value} :
    Node.usableText? value = some text ↔
      ∃ raw, value = .string raw ∧ Text.isBlank raw = false ∧ text = Text.trim raw := by
  cases value with
  | string raw =>
    have blank : Text.trim raw = "" ↔ Text.isBlank raw = true := Text.trim_eq_empty_iff
    rw [Node.usableText?, Option.ite_none_left_eq_some, beq_iff_eq, blank, Bool.not_eq_true]
    constructor
    · rintro ⟨visible, same⟩
      exact ⟨raw, rfl, visible, (Option.some.inj same).symm⟩
    · rintro ⟨_, same, visible, rfl⟩
      obtain rfl := Json.Value.string.inj same
      exact ⟨visible, rfl⟩
  | _ => simp [Node.usableText?]

theorem text?_eq_some_iff : node.text? key = some text ↔ StatesText node key text := by
  rw [Node.text?, bind_value? rfl, Option.bind_eq_some_iff]
  constructor
  · rintro ⟨value, given, read⟩
    obtain ⟨raw, rfl, visible, same⟩ := usableText?_eq_some_iff.1 read
    exact ⟨raw, given, visible, same⟩
  · rintro ⟨raw, given, visible, same⟩
    exact ⟨_, given, usableText?_eq_some_iff.2 ⟨raw, rfl, visible, same⟩⟩

theorem number?_eq_some_iff : node.number? key = some number ↔ StatesNumber node key number := by
  rw [Node.number?, bind_value? rfl, Option.bind_eq_some_iff]
  rfl

theorem orderQuantity?_eq_some_iff :
    orderQuantity? node = some number ↔ StatesQuantity node number := by
  rw [orderQuantity?, Option.filter_eq_some_iff, number?_eq_some_iff, StatesQuantity]

/-- Among all values of a kind the one with a name is found by its name, when no two share one. -/
private theorem find?_name_eq_some_iff {α : Type} {all : List α} {name : α → String}
    (complete : ∀ x, x ∈ all) (apart : Function.Injective name) {text : String} {x : α} :
    (all.find? fun own => name own == text) = some x ↔ name x = text := by
  constructor
  · intro found
    have named : (name x == text) = true := List.find?_some (p := fun own => name own == text) found
    exact beq_iff_eq.1 named
  · rintro rfl
    have some : (all.find? fun own => name own == name x).isSome = true :=
      List.find?_isSome.2 ⟨x, complete x, beq_self_eq_true (name x)⟩
    obtain ⟨own, found⟩ := Option.isSome_iff_exists.1 some
    have named : (name own == name x) = true :=
      List.find?_some (p := fun own => name own == name x) found
    rwa [apart (beq_iff_eq.1 named)] at found

theorem comparison_ofName?_eq_some_iff {comparison : Comparison} :
    Comparison.ofName? text = some comparison ↔ comparison.name = text :=
  find?_name_eq_some_iff (fun own => by cases own <;> decide) (fun own other => by
    cases own <;> cases other <;> decide)

theorem orderType_ofName?_eq_some_iff {orderType : OrderType} :
    OrderType.ofName? text = some orderType ↔ orderType.name = Text.lower (Text.trim text) :=
  find?_name_eq_some_iff (fun own => by cases own <;> decide) (fun own other => by
    cases own <;> cases other <;> decide)

theorem operation_ofName?_eq_some_iff {operation : Operation} :
    Operation.ofName? text = some operation ↔ operation.name = Text.lower (Text.trim text) :=
  find?_name_eq_some_iff (fun own => by cases own <;> decide) (fun own other => by
    cases own <;> cases other <;> decide)

theorem isBlank_of_orderType {orderType : OrderType} {raw : String}
    (named : orderType.name = Text.lower (Text.trim raw)) : Text.isBlank raw = false := by
  rw [Bool.eq_false_iff]
  intro blank
  rw [Text.trim_eq_empty_iff.2 blank] at named
  cases orderType <;> exact absurd named (by decide)

theorem orderType?_eq_some_iff {orderType : OrderType} :
    (node.text? "orderType").bind OrderType.ofName? = some orderType ↔
      StatesOrderType node orderType := by
  rw [Option.bind_eq_some_iff]
  constructor
  · rintro ⟨text, read, named⟩
    obtain ⟨raw, given, -, rfl⟩ := text?_eq_some_iff.1 read
    refine ⟨raw, given, ?_⟩
    rw [orderType_ofName?_eq_some_iff.1 named, Text.trim_trim]
  · rintro ⟨raw, given, named⟩
    have visible := isBlank_of_orderType named
    refine ⟨Text.trim raw, text?_eq_some_iff.2 ⟨raw, given, visible, rfl⟩, ?_⟩
    rw [orderType_ofName?_eq_some_iff, Text.trim_trim]
    exact named

theorem eq_none_iff {α : Type} {found : Option α} {states : α → Prop}
    (reads : ∀ x, found = some x ↔ states x) : found = none ↔ ∀ x, ¬ states x := by
  rw [Option.eq_none_iff_forall_ne_some]
  exact forall_congr' fun x => not_congr (reads x)

end StrategyCompiler.Graph
