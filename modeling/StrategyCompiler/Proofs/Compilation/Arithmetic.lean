import StrategyCompiler.Proofs.Compilation.Combined
import StrategyCompiler.Proofs.Compilation.Operands
import StrategyCompiler.Proofs.Script.Meaning
/-!
The values that math nodes compute.  A math node applies its operation to the first value in front
of it, else to the closing price, and to the second one, else to a stated number.  Where there is
no second operand a constant stands in, which leaves sums, products, differences and quotients as
they are, but cuts the least and the greatest of two values off at zero.
-/

set_option autoImplicit false

namespace StrategyCompiler.Compilation

open Catalogue (builtin)
open StrategyCompiler.Graph (Node Operation Placed StatesNumber StatesText)
open Number (Double)
open Script (Expr Statement Tree isDotted parse?)
open Validation (validate validate_errors_eq_nil_iff)

/-! ### Operations -/

/-- What an operation makes of two values; nothing is divided by zero. -/
def applied? (operation : Operation) (x y : Rat) : Option Rat :=
  match operation with
  | .add => some (x + y)
  | .subtract => some (x - y)
  | .multiply => some (x * y)
  | .divide => if y = 0 then none else some (x / y)
  | .min => some (min x y)
  | .max => some (max x y)
  | .abs => some |x|

/-- What an operation makes of one value when it has no second operand. -/
def single (operation : Operation) (x : Rat) : Rat :=
  match operation with
  | .add | .subtract | .multiply | .divide => x
  | .min => min x 0
  | .max => max x 0
  | .abs => |x|

/-- What a math node makes of its first operand and of its second one, if it has any. -/
def outcome? (operation : Operation) (x : Rat) : Option Rat → Option Rat
  | some y => applied? operation x y
  | none => some (single operation x)

private theorem exists_value?_identity (operation : Operation) (x : Rat) :
    ∃ y, (identity operation).value? = some y ∧
      applied? operation x y = some (single operation x) := by
  have unit : (Double.ofInt 1).value? = some 1 := by decide +kernel
  have zero : (Double.ofInt 0).value? = some 0 := by decide +kernel
  cases operation with
  | multiply | divide => exact ⟨1, unit, by simp [applied?, single]⟩
  | add | subtract => exact ⟨0, zero, by simp [applied?, single]⟩
  | min | max | abs => exact ⟨0, zero, rfl⟩

/-- An operation without a second operand leaves a value as it is, unless it is the least of it and
zero, the greatest of it and zero, or its absolute value. -/
private theorem single_eq_iff {operation : Operation} {x : Rat} :
    single operation x = x ↔
      (operation = .min → x ≤ 0) ∧ (operation = .max → 0 ≤ x) ∧ (operation = .abs → 0 ≤ x) := by
  cases operation <;> simp [single]

section Applied

variable {left right : Expr}

private theorem wellFormed_applyOperation (operation : Operation) (first : left.WellFormed)
    (second : right.WellFormed) : (applyOperation operation left right).WellFormed := by
  cases operation with
  | add | subtract | multiply | divide =>
    rw [applyOperation, Expr.WellFormed]
    exact ⟨first, second⟩
  | min | max =>
    simp only [applyOperation, Expr.WellFormed, Expr.AllWellFormed]
    exact ⟨by decide, first, second, trivial⟩
  | abs =>
    simp only [applyOperation, Expr.WellFormed, Expr.AllWellFormed]
    exact ⟨by decide, first, trivial⟩

private theorem value?_applyOperation {values : String → Rat} {x y : Rat} (operation : Operation)
    (first : left.tree.value? values = some x) (second : right.tree.value? values = some y) :
    (applyOperation operation left right).tree.value? values = applied? operation x y := by
  cases operation with
  | add | subtract | multiply | divide => exact Expr.value?_arith first second _
  | min | max => exact Expr.value?_call_two first second _
  | abs => exact Expr.value?_call_one first _

end Applied

/-! ### Operands -/

def firstText (graph : Graph) (node : Node) : String :=
  ((textsInFront builtin graph node)[0]?).getD "close"

/-- The second operand of a math node, as what it is worth when names have values: the second value
in front of the node, else the number that the node states, if any. -/
inductive SecondValue (graph : Graph) (node : Node) : Option ((String → Rat) → Rat) → Prop
  | front {text : String} : (textsInFront builtin graph node)[1]? = some text →
      SecondValue graph node (some fun values => values text)
  | stated {number : Double} {value : Rat} : (textsInFront builtin graph node)[1]? = none →
      StatesNumber node "value" number → number.value? = some value →
      SecondValue graph node (some fun _ => value)
  | none : (textsInFront builtin graph node)[1]? = none →
      (∀ number, ¬ StatesNumber node "value" number) → SecondValue graph node none

def StatesOperation (node : Node) (operation : Operation) : Prop :=
  ∃ text, StatesText node "operation" text ∧ operation.name = Text.lower text

def firstExpr (plan : Plan) (placed : Placed) : Expr :=
  ((plan.suppliers placed)[0]?.bind fun source => plan.read? source none).getD (.name "close")

def secondExpr (plan : Plan) (placed : Placed) (operation : Operation) : Expr :=
  (((plan.suppliers placed)[1]?.bind fun source => plan.read? source none).or
    ((placed.node.number? "value").map Expr.number)).getD (.number (identity operation))

theorem mathExpr?_eq (plan : Plan) (placed : Placed) :
    plan.mathExpr? placed = ((placed.node.text? "operation").bind Operation.ofName?).map
      fun operation => applyOperation operation (firstExpr plan placed)
        (secondExpr plan placed operation) := rfl

variable {graph : Graph}

private theorem exists_value?_of_isFinite {number : Double} (real : number.isFinite = true) :
    ∃ value, number.value? = some value := by
  cases number with
  | finite negative units fits => exact ⟨_, rfl⟩
  | nan => exact absurd real Bool.false_ne_true
  | infinite negative => exact absurd real Bool.false_ne_true

section Distinct

variable (distinct : (graph.nodes.map Node.id).Nodup)
include distinct

private theorem isDotted_of_mem_textsInFront {node : Node} {text : String}
    (member : text ∈ textsInFront builtin graph node) : isDotted text = true := by
  obtain ⟨source, inside, rfl⟩ := List.mem_map.1 member
  obtain ⟨placed, rfl, found⟩ := exists_placed_of_mem_nodesInFront (List.mem_filter.1 inside).1
  unfold valueText
  cases bound : (Naming.bind builtin graph).binding? placed.node.id with
  | some binding =>
    rw [binding?_bind distinct found] at bound
    have listed := mem_identifiers_of_bindingAt? bound (primary_mem_of_bind bound)
    exact Script.isDotted_of_isIdent (isName_of_mem_identifiers listed).1
  | none =>
    have series : ∀ text ∈ Script.priceSeries, isDotted text = true := by decide
    exact series _ (seriesOf_mem placed.node)

section Found

variable {placed : Placed} (found : graph.nodes[placed.position]? = some placed.node)
include found

private theorem read?_suppliers (catalogue : Catalogue) (index : Nat) :
    (((planWith catalogue graph).suppliers placed)[index]?.bind
        fun source => (planWith catalogue graph).read? source none) =
      (textsInFront catalogue graph placed.node)[index]?.map Expr.name := by
  rw [← map_valueText_suppliers distinct found, List.getElem?_map]
  cases stands : ((planWith catalogue graph).suppliers placed)[index]? with
  | none => rfl
  | some source =>
    obtain ⟨there, produces⟩ := mem_suppliers_planWith (List.mem_of_getElem? stands)
    exact (read?_eq_valueText distinct catalogue there produces).1

private theorem firstExpr_eq :
    firstExpr (planWith builtin graph) placed = .name (firstText graph placed.node) := by
  rw [firstExpr, read?_suppliers distinct found, firstText]
  cases (textsInFront builtin graph placed.node)[0]? <;> rfl

omit found in
private theorem isDotted_firstText : isDotted (firstText graph placed.node) = true := by
  unfold firstText
  cases front : (textsInFront builtin graph placed.node)[0]? with
  | some text => exact isDotted_of_mem_textsInFront distinct (List.mem_of_getElem? front)
  | none => exact (by decide : isDotted "close" = true)

private theorem exists_secondValue (operation : Operation) :
    (secondExpr (planWith builtin graph) placed operation).WellFormed ∧
      ∃ second, SecondValue graph placed.node second ∧ ∀ values x, ∃ y,
        (secondExpr (planWith builtin graph) placed operation).tree.value? values = some y ∧
          applied? operation x y = outcome? operation x (second.map fun own => own values) := by
  rw [secondExpr, read?_suppliers distinct found]
  cases front : (textsInFront builtin graph placed.node)[1]? with
  | some text =>
    have dotted := isDotted_of_mem_textsInFront distinct (List.mem_of_getElem? front)
    refine ⟨?_, _, .front front, fun values x => ⟨values text, Expr.value?_name text, rfl⟩⟩
    simpa [Expr.WellFormed] using dotted
  | none =>
    cases stated : placed.node.number? "value" with
    | some number =>
      have real := isFinite_of_number? stated
      obtain ⟨value, own⟩ := exists_value?_of_isFinite real
      refine ⟨?_, _, .stated front (Graph.number?_eq_some_iff.1 stated) own,
        fun values x => ⟨value, (Expr.value?_number number).trans own, rfl⟩⟩
      simpa [Expr.WellFormed] using real
    | none =>
      have unstated := (Graph.eq_none_iff fun _ => Graph.number?_eq_some_iff).1 stated
      refine ⟨?_, none, .none front unstated, fun values x => ?_⟩
      · have real : (identity operation).isFinite = true := by
          cases operation <;> decide +kernel
        simpa [Expr.WellFormed] using real
      · obtain ⟨y, own, same⟩ := exists_value?_identity operation x
        exact ⟨y, (Expr.value?_number _).trans own, same⟩

end Found

end Distinct

/-! ### Lines -/

private theorem render_mem_lines {catalogue : Catalogue} (flat : FlatTexts catalogue)
    (options : Options)
    {statement : Statement} (member : statement ∈ (planWith catalogue graph).calculations) :
    statement.render ∈ Text.lines (Program.ofPlan options (planWith catalogue graph)).render := by
  have body : Line.statement statement ∈ Line.orComment "Price series are used directly"
      ((planWith catalogue graph).calculations.map .statement) := by
    rw [Line.orComment, if_neg]
    · exact List.mem_map_of_mem member
    · rw [List.isEmpty_iff, List.map_eq_nil_iff]
      exact List.ne_nil_of_mem member
  have part : (("Calculations", Line.orComment "Price series are used directly"
      ((planWith catalogue graph).calculations.map .statement)) : String × List Line) ∈
      (Program.ofPlan options (planWith catalogue graph)).sections :=
    List.mem_cons_of_mem _ List.mem_cons_self
  rw [lines_render_of_flat graph flat, Program.lines_eq]
  refine List.mem_map.2 ⟨.statement statement, ?_, rfl⟩
  apply List.mem_cons_of_mem
  apply List.mem_cons_of_mem
  exact List.mem_flatMap.2 ⟨_, part, List.mem_append_right _ body⟩

/-- What a math node computes: its line assigns an expression that reads as a tree, and whatever the
names in front of the node stand for, the tree is worth what the stated operation makes of the
operands.  Without a second operand that is the first one itself, but for the least, the greatest
and the absolute value on one side of zero. -/
structure Computed (graph : Graph) (code : String) (node : Node) (operation : Operation)
    (second : Option ((String → Rat) → Rat)) (tree : Tree) : Prop where
  states : StatesOperation node operation
  takes : SecondValue graph node second
  line : ∃ name side, (Naming.bind builtin graph).binding? node.id = some (.single name) ∧
    name ++ " = " ++ side ∈ Text.lines code ∧ parse? side = some tree
  value : ∀ values, tree.value? values =
    outcome? operation (values (firstText graph node)) (second.map fun own => own values)
  neutral_iff : second = none → ∀ values,
    tree.value? values = some (values (firstText graph node)) ↔
      (operation = .min → values (firstText graph node) ≤ 0) ∧
        (operation = .max → 0 ≤ values (firstText graph node)) ∧
        (operation = .abs → 0 ≤ values (firstText graph node))

section Found

variable {placed : Placed} (found : graph.nodes[placed.position]? = some placed.node)
include found

theorem accepted_operation (valid : (validate builtin graph).errors = [])
    (kind : placed.node.kind = .math) :
    ∃ operation, StatesOperation placed.node operation ∧
      (placed.node.text? "operation").bind Operation.ofName? = some operation := by
  have accepted := (validate_errors_eq_nil_iff.1 valid).nodes placed.node
    (List.mem_of_getElem? found)
  rw [Validation.NodeAccepted, kind] at accepted
  obtain ⟨text, read, operation, called⟩ := accepted
  have own : Operation.ofName? text = some operation :=
    Graph.operation_ofName?_eq_some_iff.2 called
  -- The text was trimmed when it was read, so that trimming it again changes nothing.
  obtain ⟨raw, given, visible, trimmed⟩ := Graph.text?_eq_some_iff.1 read
  rw [trimmed, Text.trim_trim, ← trimmed] at called
  refine ⟨operation, ⟨text, ⟨raw, given, visible, trimmed⟩, called⟩, ?_⟩
  rw [read, Option.bind_some, own]

private theorem mathExpr?_eq_some (distinct : (graph.nodes.map Node.id).Nodup)
    {operation : Operation}
    (read : (placed.node.text? "operation").bind Operation.ofName? = some operation) :
    (planWith builtin graph).mathExpr? placed =
      some (applyOperation operation (.name (firstText graph placed.node))
        (secondExpr (planWith builtin graph) placed operation)) := by
  rw [mathExpr?_eq, read, firstExpr_eq distinct found]
  rfl

omit found in
theorem define_mem_calculationsOf {plan : Plan} (kind : placed.node.kind = .math) {name : String}
    {expr : Expr} (bound : plan.names.bindingAt? placed.position = some (.single name))
    (composed : plan.mathExpr? placed = some expr) :
    .define name expr ∈ plan.calculationsOf placed := by
  simp only [Plan.calculationsOf, kind, Plan.mathLine?, bound, composed]
  exact List.mem_singleton_self _

private theorem exists_line_of_math (options : Options) (distinct : (graph.nodes.map Node.id).Nodup)
    (kind : placed.node.kind = .math) {expr : Expr}
    (composed : (planWith builtin graph).mathExpr? placed = some expr) :
    ∃ name, (Naming.bind builtin graph).binding? placed.node.id = some (.single name) ∧
      name ++ " = " ++ expr.render ∈
        Text.lines (Program.ofPlan options (planWith builtin graph)).render := by
  have named : Naming.namedOutputs? builtin placed.node = some [] := by
    rw [Naming.namedOutputs?, kind]
  obtain ⟨name, bound⟩ := exists_single found named
  have line : .define name expr ∈ (planWith builtin graph).calculations :=
    List.mem_flatMap.2 ⟨placed, Naming.mem_namingOrder.2 found,
      define_mem_calculationsOf kind bound composed⟩
  refine ⟨name, (binding?_bind distinct found).trans bound, ?_⟩
  exact render_mem_lines (flatTexts_of_regular regular_builtin) options line

end Found

/-- In a graph without errors every math node has a line of the value that its operation makes of
its operands. -/
theorem values_of_math (options : Options) (graph : Graph)
    (valid : (validate builtin graph).errors = []) :
    (compile builtin options graph).success = true ∧
      ∀ node ∈ graph.nodes, node.kind = .math → ∃ operation second tree,
        Computed graph (compile builtin options graph).code node operation second tree := by
  obtain ⟨success, -, code⟩ := compile_of_valid options valid
  refine ⟨success, fun node member kind => ?_⟩
  have distinct := (validate_errors_eq_nil_iff.1 valid).distinct
  obtain ⟨position, stands⟩ := List.getElem?_of_mem member
  obtain ⟨placed, rfl, found⟩ : ∃ placed : Placed, placed.node = node ∧
      graph.nodes[placed.position]? = some placed.node := ⟨⟨position, node⟩, rfl, stands⟩
  obtain ⟨operation, states, read⟩ := accepted_operation found valid kind
  have composed := mathExpr?_eq_some found distinct read
  obtain ⟨name, bound, line⟩ := exists_line_of_math found options distinct kind composed
  obtain ⟨wellFormed, second, takes, worth⟩ := exists_secondValue distinct found operation
  have first : (Expr.name (firstText graph placed.node)).WellFormed := by
    rw [Expr.WellFormed]
    exact isDotted_firstText distinct
  have value (values : String → Rat) :
      (applyOperation operation (.name (firstText graph placed.node))
        (secondExpr (planWith builtin graph) placed operation)).tree.value? values =
          outcome? operation (values (firstText graph placed.node))
            (second.map fun own => own values) := by
    obtain ⟨y, own, same⟩ := worth values (values (firstText graph placed.node))
    exact (value?_applyOperation operation (Expr.value?_name _) own).trans same
  have read := Expr.parse?_render (wellFormed_applyOperation operation first wellFormed)
  refine ⟨operation, second, _, states, takes, ⟨name, _, bound, code ▸ line, read⟩, value, ?_⟩
  rintro rfl values
  rw [value, Option.map_none, outcome?, Option.some_inj, single_eq_iff]

/-! ### A least value without a second operand -/

def leastPrice : Graph where
  nodes :=
    [ { id := "price", kind := .dataSource, label := "" },
      { id := "floor", kind := .math, label := "Floor",
        config := [("operation", .string "min")] } ]
  edges := [⟨"e1", "price", "floor"⟩]

private theorem valid_leastPrice : (validate builtin leastPrice).errors = [] := by
  refine validate_errors_eq_nil_iff.2 ⟨?_, by decide, ?_, by decide, ?_⟩
  · exact ⟨_, List.mem_cons_self, rfl⟩
  · exact Validation.forall_nodeAccepted_iff.2 (by decide +kernel)
  · exact Validation.not_consumes_self_of_rank
      (fun id => if id = "price" then 0 else 1) (by decide)

theorem values_of_math_leastPrice :
    (validate builtin leastPrice).errors = [] ∧ ∃ operation second tree,
      Computed leastPrice (compile builtin {} leastPrice).code leastPrice.nodes[1] operation second
        tree :=
  ⟨valid_leastPrice, (values_of_math {} leastPrice valid_leastPrice).2 _
    (List.mem_cons_of_mem _ List.mem_cons_self) rfl⟩

/-- A positive price is lost where the least of it and nothing else is asked for. -/
theorem leastPrice_changes :
    (validate builtin leastPrice).errors = [] ∧
      textsInFront builtin leastPrice leastPrice.nodes[1] = ["close"] ∧
      (∀ number, ¬ StatesNumber leastPrice.nodes[1] "value" number) ∧
      "floor = math.min(close, 0)" ∈ Text.lines (compile builtin {} leastPrice).code ∧
      ∃ tree, parse? "math.min(close, 0)" = some tree ∧
        tree.value? (fun _ => 1) = some 0 := by
  have own : (Expr.call "math.min" [.name "close", .number (.ofInt 0)]).WellFormed := by
    simp only [Expr.WellFormed, Expr.AllWellFormed]
    decide +kernel
  have text : (Expr.call "math.min" [.name "close", .number (.ofInt 0)]).render =
      "math.min(close, 0)" := by decide +kernel
  have zero : (Expr.number (.ofInt 0)).tree.value? (fun _ => 1) = some 0 := by
    rw [Expr.value?_number]
    decide +kernel
  have least := Expr.value?_call_two (Expr.value?_name "close") zero "math.min"
  refine ⟨valid_leastPrice, by decide +kernel, ?_, ?_, _, text ▸ Expr.parse?_render own, ?_⟩
  · rintro number ⟨_, given, -⟩
    exact nomatch given
  · have lines : (planWith builtin leastPrice).calculations.map Statement.render =
        ["floor = math.min(close, 0)"] := by decide +kernel
    obtain ⟨statement, member, same⟩ := List.mem_map.1
      (lines ▸ List.mem_cons_self : "floor = math.min(close, 0)" ∈
        (planWith builtin leastPrice).calculations.map Statement.render)
    obtain ⟨-, -, code⟩ := compile_of_valid {} valid_leastPrice
    rw [code, ← same]
    exact render_mem_lines (flatTexts_of_regular regular_builtin) {} member
  · rw [least]
    decide +kernel

end StrategyCompiler.Compilation
