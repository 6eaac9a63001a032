import StrategyCompiler.Proofs.Compilation.Accounting
import StrategyCompiler.Proofs.Compilation.Arithmetic
import StrategyCompiler.Proofs.Compilation.Definitions
import StrategyCompiler.Proofs.Graph.Stated
/-!
What a script uses where a node states nothing.  The checks and the writer read the same entries, so
that a script falls back exactly where the report warns of it: for the type and the size of an entry
order, a session, the right side of a comparison and a price series.  Comparisons, operations and
the lines of indicators have no fallback.
-/

set_option autoImplicit false

namespace StrategyCompiler.Compilation

open Catalogue (builtin)
open Diagnostic (Warning)
open Number (Double)
open StrategyCompiler.Graph (Comparison Node Operation Placed StatesNumber StatesOrderType
  StatesQuantity StatesText)
open Script (Argument Call Expr Operand Statement)
open Validation (nodeWarnings validate validate_errors_eq_nil_iff)

variable {graph : Graph} {node : Node} {placed : Placed}

/-- What is used is what is stated, and a fallback where nothing is stated; the fallback is warned
of, and nothing else is. -/
structure Announced {α : Type} (warned : Prop) (states : α → Prop) (used fallback : α) : Prop where
  warned_iff : warned ↔ ∀ x, ¬ states x
  stated : ∀ x, states x → used = x
  fallback : warned → used = fallback

private theorem Announced.of_reading {α : Type} {warned : Prop} {states : α → Prop}
    {found : Option α}
    (fallback : α) (reads : ∀ x, found = some x ↔ states x) (warns : warned ↔ found = none) :
    Announced warned states (found.getD fallback) fallback where
  warned_iff := warns.trans (Graph.eq_none_iff reads)
  stated x own := by rw [(reads x).2 own, Option.getD_some]
  fallback warned := by rw [warns.1 warned, Option.getD_none]

/-! ### Warnings of a node -/

def subject? : Warning → Option String
  | .missingThreshold node | .missingQuantity node | .missingOrderType node
  | .riskWithoutLevels node | .missingSession node | .unknownSeries node _ => some node
  | _ => none

private theorem subject_of_mem_nodeWarnings {warning : Warning}
    (member : warning ∈ nodeWarnings node) :
    subject? warning = some node.id := by
  unfold nodeWarnings at member
  cases kind : node.kind with
  | dataSource =>
    simp only [kind, Validation.dataSourceWarnings] at member
    split at member
    · rw [List.mem_ite_nil_left, List.mem_singleton] at member
      rw [member.2]
      rfl
    · exact absurd member List.not_mem_nil
  | action =>
    simp only [kind, Validation.actionWarnings] at member
    rcases List.mem_append.1 member with orderType | quantity
    · split at orderType
      · rw [List.mem_singleton.1 orderType]
        rfl
      · exact absurd orderType List.not_mem_nil
      · exact absurd orderType List.not_mem_nil
    · rw [List.mem_ite_nil_right, List.mem_singleton] at quantity
      rw [quantity.2]
      rfl
  | condition | risk | timing =>
    simp only [kind, List.mem_ite_nil_right, List.mem_singleton] at member
    rw [member.2]
    rfl
  | indicator | math =>
    simp only [kind] at member
    exact absurd member List.not_mem_nil

private theorem mem_warnings_iff {catalogue : Catalogue}
    (distinct : (graph.nodes.map Node.id).Nodup)
    (member : node ∈ graph.nodes) {warning : Warning} (about : subject? warning = some node.id) :
    warning ∈ (validate catalogue graph).warnings ↔ warning ∈ nodeWarnings node := by
  have apart {other : Warning} (none : subject? other = none) : warning ≠ other := by
    rintro rfl
    rw [none] at about
    exact nomatch about
  simp only [validate, Validation.validateIndex, Graph.Index.ofGraph_graph, List.mem_append,
    List.mem_flatMap]
  constructor
  · rintro ((component | ⟨other, inside, found⟩) | flow)
    · unfold Validation.componentWarnings at component
      split at component
      · exact absurd (List.mem_singleton.1 component) (apart rfl)
      · exact absurd component List.not_mem_nil
    · -- Ids are distinct, so that the node which the warning names is this one.
      have same := subject_of_mem_nodeWarnings found
      rw [about] at same
      rwa [List.inj_on_of_nodup_map distinct member inside (Option.some.inj same)]
    · rcases List.mem_append.1 flow with indicator | condition
      · obtain ⟨_, -, same⟩ := List.mem_map.1 indicator
        exact absurd same.symm (apart rfl)
      · obtain ⟨_, -, same⟩ := List.mem_map.1 condition
        exact absurd same.symm (apart rfl)
  · exact fun found => .inl (.inr ⟨node, member, found⟩)

section Warned

variable (valid : (validate builtin graph).errors = [])
include valid

private theorem warned_iff (found : graph.nodes[placed.position]? = some placed.node)
    {warning : Warning}
    (about : subject? warning = some placed.node.id) :
    warning ∈ (validate builtin graph).warnings ↔ warning ∈ nodeWarnings placed.node :=
  mem_warnings_iff (validate_errors_eq_nil_iff.1 valid).distinct (List.mem_of_getElem? found) about

private theorem accepted_of_valid (found : graph.nodes[placed.position]? = some placed.node) :
    Validation.NodeAccepted builtin placed.node :=
  (validate_errors_eq_nil_iff.1 valid).nodes placed.node (List.mem_of_getElem? found)

end Warned

/-! ### Orders -/

def argument? (call : Call) (name : String) : Option Operand :=
  (call.arguments.find? fun argument => argument.name == some name).map Argument.value

/-- The type of the order that a call places, read off the price that the order waits for. -/
def orderTypeIn (call : Call) : Graph.OrderType :=
  if (argument? call "limit").isSome then .limit
  else if (argument? call "stop").isSome then .stop
  else .market

def quantityIn? (call : Call) : Option Double :=
  match argument? call "qty" with
  | some (.expr (.number quantity)) => some quantity
  | _ => none

private theorem orderTypeIn_entryOrder (node : Node) :
    orderTypeIn (entryOrder node) = orderTypeOf node := by
  unfold orderTypeIn argument? entryOrder
  cases orderTypeOf node <;> rfl

private theorem quantityIn?_entryOrder (node : Node) :
    quantityIn? (entryOrder node) = some (quantityOf node) := rfl

private theorem argument?_exitOrder (node : Node) {name : String} (other : name ≠ "comment") :
    argument? (exitOrder node) name = none := by
  have apart : (some "comment" == some name) = false :=
    beq_eq_false_iff_ne.2 fun same => other (Option.some.inj same).symm
  simp [argument?, exitOrder, Argument.named, apart]

private theorem value?_of_given {key : String} {raw : Json.Value}
    (given : Json.Object.get? node.config key = some raw) (usable : raw.isNull = false) :
    node.value? key = some raw := by
  rw [Node.value?, given, Option.filter_some, usable]
  rfl

private theorem orderTypeEntry_of_accepted (accepted : Validation.ActionAccepted node) :
    Validation.orderTypeEntry node =
      ((node.text? "orderType").bind Graph.OrderType.ofName?).elim .absent .valid := by
  have unread (open_ : node.value? "orderType" = none) :
      Validation.orderTypeEntry node =
        ((node.text? "orderType").bind Graph.OrderType.ofName?).elim .absent .valid := by
    rw [Node.text?, open_]
    unfold Validation.orderTypeEntry
    rw [open_]
    rfl
  rcases accepted with missing | null | ⟨text, given, stated⟩
  · exact unread (by rw [Node.value?, missing]; rfl)
  · exact unread (by rw [Node.value?, null]; rfl)
  · have read := value?_of_given given rfl
    unfold Validation.orderTypeEntry
    rw [Node.text?, read, Option.bind_some]
    rcases stated with blank | ⟨orderType, named⟩
    · have empty : Node.usableText? (.string text) = none := by
        rw [Node.usableText?, Text.trim_eq_empty_iff.2 blank]
        rfl
      rw [empty]
      exact if_pos blank
    · have whole := Graph.orderType?_eq_some_iff.2 ⟨text, given, named⟩
      rw [Node.text?, read, Option.bind_some] at whole
      have parsed := Graph.orderType_ofName?_eq_some_iff.2 named
      simp [whole, parsed, Graph.isBlank_of_orderType named]

private theorem missingOrderType_mem_iff (kind : node.kind = .action)
    (accepted : Validation.ActionAccepted node) :
    .missingOrderType node.id ∈ nodeWarnings node ↔
      (node.text? "orderType").bind Graph.OrderType.ofName? = none := by
  simp only [nodeWarnings, kind, Validation.actionWarnings, orderTypeEntry_of_accepted accepted]
  cases (node.text? "orderType").bind Graph.OrderType.ofName? <;> simp

private theorem missingQuantity_mem_iff (kind : node.kind = .action) :
    .missingQuantity node.id ∈ nodeWarnings node ↔ Graph.orderQuantity? node = none := by
  simp only [nodeWarnings, kind, Validation.actionWarnings]
  cases Validation.orderTypeEntry node <;> simp

/-! ### What is told of a node -/

/-- What is told of an action: the type and the size of its entry order. -/
structure ActionTold (graph : Graph) (node : Node) : Prop where
  orderType : Announced (.missingOrderType node.id ∈ (validate builtin graph).warnings)
    (StatesOrderType node) (orderTypeIn (entryOrder node)) .market
  quantity : ∃ quantity, quantityIn? (entryOrder node) = some quantity ∧
    Announced (.missingQuantity node.id ∈ (validate builtin graph).warnings)
      (StatesQuantity node) quantity (Double.ofInt 1)

/-- The script reads a data source by a series wherever it does so: through a variable for the
series in the stated timeframe, or without one by the series itself. -/
def ReadBy (graph : Graph) (placed : Placed) (series : String) : Prop :=
  (∃ timeframe name, StatesText placed.node "timeframe" timeframe ∧
      .assign (.single name) (.call
        { function := "request.security"
          arguments :=
            [ Argument.expr (.name "syminfo.tickerid"), Argument.expr (.string timeframe),
              Argument.expr (.name series) ] }) ∈ (planOf graph).calculations ∧
      ∀ output, (planOf graph).read? placed output = some (.name name)) ∨
    (∀ timeframe, ¬ StatesText placed.node "timeframe" timeframe) ∧
      ∀ output, (planOf graph).read? placed output = some (.name series)

structure SeriesTold (graph : Graph) (node : Node) (series : String) : Prop where
  warned_iff : ∀ text, .unknownSeries node.id text ∈ (validate builtin graph).warnings ↔
    StatesText node "source" text ∧ series ≠ Text.lower text
  stated : ∀ text, StatesText node "source" text → Text.lower text ∈ Script.priceSeries →
    series = Text.lower text
  unknown : ∀ text, StatesText node "source" text → Text.lower text ∉ Script.priceSeries →
    series = "close"
  unstated : (∀ text, ¬ StatesText node "source" text) → series = "close"

private theorem seriesOf_of_text? {text : String} (read : node.text? "source" = some text) :
    Plan.seriesOf node =
      if Text.lower text ∈ Script.priceSeries then Text.lower text else "close" := by
  simp only [Plan.seriesOf, read, List.contains_iff_mem]

private theorem unknownSeries_mem_iff (kind : node.kind = .dataSource) {text : String} :
    .unknownSeries node.id text ∈ nodeWarnings node ↔
      node.text? "source" = some text ∧ Plan.seriesOf node ≠ Text.lower text := by
  simp only [nodeWarnings, kind, Validation.dataSourceWarnings, List.contains_iff_mem]
  cases read : node.text? "source" with
  | none => simp
  | some own =>
    have close : "close" ∈ Script.priceSeries := by decide
    rw [seriesOf_of_text? read]
    by_cases known : Text.lower own ∈ Script.priceSeries
    · simp only [if_pos known, List.not_mem_nil, false_iff, not_and, ne_eq, not_not]
      rintro same
      rw [Option.some.inj same]
    · have other : "close" ≠ Text.lower own := fun same => known (same ▸ close)
      simp only [if_neg known, List.mem_singleton, Warning.unknownSeries.injEq, true_and,
        Option.some.injEq]
      constructor
      · rintro rfl
        exact ⟨rfl, other⟩
      · exact fun same => same.1.symm

/-- The right operand of a condition without a threshold: a value other than the examined one, else
zero. -/
def otherOperand (plan : Plan) (placed : Placed) : Expr :=
  let examined := (Plan.examined? (plan.suppliers placed)).map Placed.position
  (((plan.suppliers placed).find? fun source => some source.position != examined).bind
    fun source => plan.read? source none).getD (.number (Double.ofInt 0))

/-- What is told of a condition: its definition compares by the stated operator, and the threshold
is the right operand. -/
def ConditionTold (graph : Graph) (placed : Placed) : Prop :=
  ∃ name comparison right, StatesText placed.node "operator" (Comparison.name comparison) ∧
    (planOf graph).names.bindingAt? placed.position = some (.single name) ∧
    .define name (compareExpr ((planOf graph).operatorFunction "crossover")
      ((planOf graph).operatorFunction "crossunder") ((planOf graph).leftOperand placed) right
      comparison) ∈ (planOf graph).definitions ∧
    Announced (.missingThreshold placed.node.id ∈ (validate builtin graph).warnings)
      (fun operand => ∃ threshold, StatesNumber placed.node "threshold" threshold ∧
        operand = .number threshold)
      right (otherOperand (planOf graph) placed)

def TimingTold (graph : Graph) (placed : Placed) : Prop :=
  ∃ name session, (planOf graph).names.bindingAt? placed.position = some (.single name) ∧
    .define name (.not (.call "na"
      [.call "time" [.name "timeframe.period", .string session]])) ∈ (planOf graph).definitions ∧
    Announced (.missingSession placed.node.id ∈ (validate builtin graph).warnings)
      (StatesText placed.node "session") session "0930-1600"

def MathTold (graph : Graph) (placed : Placed) : Prop :=
  ∃ name text left right, ∃ operation : Operation, StatesText placed.node "operation" text ∧
    operation.name = Text.lower text ∧
    (planOf graph).names.bindingAt? placed.position = some (.single name) ∧
    .define name (applyOperation operation left right) ∈ (planOf graph).calculations

/-- An indicator has names, and each of them is assigned by one of its lines. -/
def IndicatorTold (graph : Graph) (placed : Placed) : Prop :=
  ∃ binding, (planOf graph).names.bindingAt? placed.position = some binding ∧
    binding.primary ∈ binding.identifiers ∧
    ((planOf graph).calculationsOf placed).flatMap Statement.assigned = binding.identifiers ∧
    ∀ statement ∈ (planOf graph).calculationsOf placed, statement ∈ (planOf graph).calculations

def Told (graph : Graph) (placed : Placed) : Prop :=
  match placed.node.kind with
  | .dataSource => ∃ series, ReadBy graph placed series ∧ SeriesTold graph placed.node series
  | .indicator => IndicatorTold graph placed
  | .math => MathTold graph placed
  | .condition => ConditionTold graph placed
  | .action => ActionTold graph placed.node
  | .timing => TimingTold graph placed
  | .risk => True

section Valid

variable (valid : (validate builtin graph).errors = [])
  (found : graph.nodes[placed.position]? = some placed.node)

include found in
private theorem mem_calculations {statement : Statement}
    (member : statement ∈ (planOf graph).calculationsOf placed) :
    statement ∈ (planOf graph).calculations :=
  List.mem_flatMap.2 ⟨placed, mem_order_planOf.2 found, member⟩

include found in
private theorem exists_name (single : placed.node.kind ∈ [Graph.Kind.condition, .timing, .math]) :
    ∃ name, (planOf graph).names.bindingAt? placed.position = some (.single name) := by
  have named : Naming.namedOutputs? builtin placed.node = some [] := by
    unfold Naming.namedOutputs?
    cases kind : placed.node.kind with
    | condition | timing | math => rfl
    | dataSource | indicator | action | risk =>
      rw [kind] at single
      exact absurd single (by decide)
  exact exists_single found named

include found in
private theorem exists_definition {expr : Expr}
    (stands : (planOf graph).logicExpr? placed = some expr)
    (logic : placed.node.kind ∈ [Graph.Kind.condition, .timing, .math]) :
    ∃ name, (planOf graph).names.bindingAt? placed.position = some (.single name) ∧
      .define name expr ∈ (planOf graph).definitions := by
  obtain ⟨name, bound⟩ := exists_name found logic
  exact ⟨name, bound, mem_definitions.2
    ⟨placed, mem_order_planOf.2 found, _, expr, bound, stands, rfl⟩⟩

include valid found

private theorem told_action (kind : placed.node.kind = .action) : ActionTold graph placed.node := by
  have accepted := accepted_of_valid valid found
  rw [Validation.NodeAccepted, kind] at accepted
  constructor
  · rw [orderTypeIn_entryOrder, warned_iff valid found rfl]
    exact .of_reading _ (fun _ => Graph.orderType?_eq_some_iff)
      (missingOrderType_mem_iff kind accepted)
  · refine ⟨_, quantityIn?_entryOrder placed.node, ?_⟩
    rw [warned_iff valid found rfl]
    exact .of_reading _ (fun _ => Graph.orderQuantity?_eq_some_iff) (missingQuantity_mem_iff kind)

private theorem told_timing (kind : placed.node.kind = .timing) : TimingTold graph placed := by
  have stands : (planOf graph).logicExpr? placed = some (sessionExpr placed.node) := by
    rw [Plan.logicExpr?, kind]
  obtain ⟨name, bound, defined⟩ := exists_definition found stands (by rw [kind]; decide)
  refine ⟨name, _, bound, defined, ?_⟩
  have warns : .missingSession placed.node.id ∈ nodeWarnings placed.node ↔
      placed.node.text? "session" = none := by
    simp only [nodeWarnings, kind]
    cases placed.node.text? "session" <;> simp
  rw [warned_iff valid found rfl]
  exact .of_reading _ (fun _ => Graph.text?_eq_some_iff) warns

private theorem told_condition (kind : placed.node.kind = .condition) :
    ConditionTold graph placed := by
  have accepted := accepted_of_valid valid found
  rw [Validation.NodeAccepted, kind] at accepted
  obtain ⟨comparison, operator⟩ := accepted
  have stands : (planOf graph).logicExpr? placed = some ((planOf graph).conditionExpr placed) := by
    rw [Plan.logicExpr?, kind]
  obtain ⟨name, bound, defined⟩ := exists_definition found stands (by rw [kind]; decide)
  have compared : ((placed.node.text? "operator").bind Comparison.ofName?).getD .greaterThan =
      comparison := by
    rw [operator, Option.bind_some, Graph.comparison_ofName?_eq_some_iff.2 rfl, Option.getD_some]
  rw [Plan.conditionExpr, compared] at defined
  refine ⟨name, comparison, _, Graph.text?_eq_some_iff.1 operator, bound, defined, ?_⟩
  have right : (planOf graph).rightOperand placed =
      ((placed.node.number? "threshold").map Expr.number).getD
        (otherOperand (planOf graph) placed) := by
    unfold Plan.rightOperand
    cases placed.node.number? "threshold" <;> rfl
  have warns : .missingThreshold placed.node.id ∈ nodeWarnings placed.node ↔
      (placed.node.number? "threshold").map Expr.number = none := by
    simp only [nodeWarnings, kind]
    cases placed.node.number? "threshold" <;> simp
  rw [warned_iff valid found rfl, right]
  refine .of_reading _ (fun operand => ?_) warns
  rw [Option.map_eq_some_iff]
  exact exists_congr fun threshold => and_congr Graph.number?_eq_some_iff eq_comm

private theorem told_math (kind : placed.node.kind = .math) : MathTold graph placed := by
  obtain ⟨operation, ⟨text, stated, called⟩, read⟩ := accepted_operation found valid kind
  obtain ⟨name, bound⟩ := exists_name found (by rw [kind]; decide)
  have composed : (planOf graph).mathExpr? placed =
      some (applyOperation operation (firstExpr (planOf graph) placed)
        (secondExpr (planOf graph) placed operation)) := by
    rw [mathExpr?_eq, read, Option.map_some]
  have line := define_mem_calculationsOf kind bound composed
  exact ⟨name, text, _, _, operation, stated, called, bound, mem_calculations found line⟩

private theorem told_indicator (kind : placed.node.kind = .indicator) :
    IndicatorTold graph placed := by
  have accepted := accepted_of_valid valid found
  rw [Validation.NodeAccepted, kind] at accepted
  obtain ⟨signature, selected, -⟩ := signatureOf?_of_accepted kind accepted
  obtain ⟨earlier, bound⟩ := exists_binding found (namedOutputs?_of_signatureOf? selected)
  have produces : placed.node.kind.producesValue = true := by
    rw [kind]
    rfl
  exact ⟨_, bound, primary_mem_of_bindingAt? bound,
    assigned_calculationsOf valid found produces bound, fun _ => mem_calculations found⟩

private theorem told_dataSource (kind : placed.node.kind = .dataSource) :
    ∃ series, ReadBy graph placed series ∧ SeriesTold graph placed.node series := by
  refine ⟨Plan.seriesOf placed.node, ?_, ?_⟩
  · have named : Naming.namedOutputs? builtin placed.node =
        if (placed.node.text? "timeframe").isSome then some [] else none := by
      simp only [Naming.namedOutputs?, kind]
    cases timeframe : placed.node.text? "timeframe" with
    | none =>
      have bound := bindingAt?_eq_none found (by rw [named, timeframe]; rfl)
      refine .inr ⟨?_, fun output => ?_⟩
      · exact (Graph.eq_none_iff fun _ => Graph.text?_eq_some_iff).1 timeframe
      · simp only [Plan.read?, kind, names_planOf, bound]
    | some text =>
      obtain ⟨name, bound⟩ := exists_single found (by rw [named, timeframe]; rfl)
      refine .inl ⟨text, name, Graph.text?_eq_some_iff.1 timeframe, mem_calculations found ?_,
        fun output => ?_⟩
      · simp only [Plan.calculationsOf, kind, Plan.securityLine?, timeframe, names_planOf, bound]
        exact List.mem_singleton_self _
      · simp only [Plan.read?, kind, names_planOf, bound]
        rfl
  · constructor
    · intro text
      rw [warned_iff valid found rfl, ← Graph.text?_eq_some_iff]
      exact unknownSeries_mem_iff kind
    · intro text stated known
      rw [seriesOf_of_text? (Graph.text?_eq_some_iff.2 stated), if_pos known]
    · intro text stated unknown
      rw [seriesOf_of_text? (Graph.text?_eq_some_iff.2 stated), if_neg unknown]
    · intro unstated
      rw [Plan.seriesOf, (Graph.eq_none_iff fun _ => Graph.text?_eq_some_iff).2 unstated]

private theorem told_of_valid : Told graph placed := by
  unfold Told
  cases kind : placed.node.kind with
  | dataSource => exact told_dataSource valid found kind
  | indicator => exact told_indicator valid found kind
  | math => exact told_math valid found kind
  | condition => exact told_condition valid found kind
  | action => exact told_action valid found kind
  | timing => exact told_timing valid found kind
  | risk => trivial

end Valid

/-- For a graph without errors the script has the entry orders of the actions that open positions,
and its other orders of actions have no type and no size.  Whatever is used where a node states
nothing is warned of; a comparison, the line of a math node and the lines of an indicator are never
given up. -/
theorem fallbacks_announced (options : Options) (graph : Graph)
    (valid : (validate builtin graph).errors = []) :
    (compile builtin options graph).code = (Program.ofPlan options (planOf graph)).render ∧
      (planOf graph).entryOrders = (orderedIn graph .entry).map entryOrder ∧
      (∀ call ∈ (planOf graph).exitOrders, ∀ name ∈ ["qty", "limit", "stop"],
        argument? call name = none) ∧
      ∀ placed : Placed, graph.nodes[placed.position]? = some placed.node →
        Told graph placed := by
  have distinct := (validate_errors_eq_nil_iff.1 valid).distinct
  obtain ⟨-, -, code⟩ := compile_of_valid options valid
  refine ⟨code, entryOrders_eq distinct, fun call member name own => ?_,
    fun placed found => told_of_valid valid found⟩
  rw [exitOrders_eq distinct] at member
  obtain ⟨node, -, rfl⟩ := List.mem_map.1 member
  have apart : ∀ name ∈ ["qty", "limit", "stop"], name ≠ "comment" := by decide
  exact argument?_exitOrder node (apart name own)

theorem fallbacks_announced_averageCrossing :
    (validate builtin averageCrossing).errors = [] ∧
      .missingOrderType "buy" ∈ (validate builtin averageCrossing).warnings ∧
      orderTypeIn (entryOrder averageCrossing.nodes[1]) = .market ∧
      .missingQuantity "buy" ∈ (validate builtin averageCrossing).warnings ∧
      quantityIn? (entryOrder averageCrossing.nodes[1]) = some (Double.ofInt 1) := by
  obtain ⟨-, -, -, told⟩ := fallbacks_announced {} averageCrossing valid_averageCrossing
  have buy : ActionTold averageCrossing averageCrossing.nodes[1] :=
    told ⟨1, averageCrossing.nodes[1]⟩ rfl
  have untyped : ∀ orderType, ¬ StatesOrderType averageCrossing.nodes[1] orderType := by
    rintro _ ⟨_, given, -⟩
    exact nomatch given
  have unsized : ∀ quantity, ¬ StatesQuantity averageCrossing.nodes[1] quantity := by
    rintro _ ⟨⟨_, given, -⟩, -⟩
    exact nomatch given
  obtain ⟨quantity, size, announced⟩ := buy.quantity
  have typeWarned := buy.orderType.warned_iff.2 untyped
  have sizeWarned := announced.warned_iff.2 unsized
  refine ⟨valid_averageCrossing, typeWarned, buy.orderType.fallback typeWarned, sizeWarned, ?_⟩
  rw [size, announced.fallback sizeWarned]

/-! ### An order that closes positions -/

def closing : Graph where
  nodes :=
    [ { id := "price", kind := .dataSource, label := "" },
      { id := "falling", kind := .condition, label := "Falling",
        config := [("operator", .string "less_than"), ("threshold", .integer 10)] },
      { id := "sell", kind := .action, label := "Sell" } ]
  edges := [⟨"e1", "price", "falling"⟩, ⟨"e2", "falling", "sell"⟩]

private theorem valid_closing : (validate builtin closing).errors = [] := by
  refine validate_errors_eq_nil_iff.2 ⟨?_, by decide, ?_, by decide, ?_⟩
  · exact ⟨_, List.mem_cons_self, rfl⟩
  · exact Validation.forall_nodeAccepted_iff.2 (by decide +kernel)
  · exact Validation.not_consumes_self_of_rank
      (fun id => if id = "price" then 0 else if id = "falling" then 1 else 2) (by decide)

/-- An action that closes positions is warned of as having the size one, but no order has it. -/
theorem missingQuantity_closing :
    (validate builtin closing).errors = [] ∧
      ¬ (.missingQuantity "sell" ∈ (validate builtin closing).warnings ↔
        ∃ call ∈ (planOf closing).entryOrders ++ (planOf closing).exitOrders,
          quantityIn? call = some (Double.ofInt 1)) := by
  refine ⟨valid_closing, fun same => ?_⟩
  have distinct := (validate_errors_eq_nil_iff.1 valid_closing).distinct
  have found : closing.nodes[(⟨2, closing.nodes[2]⟩ : Placed).position]? =
      some closing.nodes[2] := rfl
  have unstated : .missingQuantity "sell" ∈ nodeWarnings closing.nodes[2] :=
    (missingQuantity_mem_iff rfl).2 (by decide +kernel)
  have warned : .missingQuantity "sell" ∈ (validate builtin closing).warnings :=
    (warned_iff valid_closing found rfl).2 unstated
  obtain ⟨call, member, size⟩ := same.1 warned
  -- There is no entry order, since the only action closes positions; its own order has no size.
  rcases List.mem_append.1 member with entry | exit
  · rw [entryOrders_eq distinct] at entry
    obtain ⟨node, inside, -⟩ := List.mem_map.1 entry
    have opens : ∀ node ∈ closing.nodes,
        ¬ (node.kind == .action && Graph.Role.of? node == some .entry) = true := by
      decide +kernel
    unfold orderedIn at inside
    split at inside
    · exact absurd inside List.not_mem_nil
    · obtain ⟨stands, selected⟩ := List.mem_filter.1 inside
      exact opens node ((resolved_perm closing).mem_iff.1 stands) selected
  · rw [exitOrders_eq distinct] at exit
    obtain ⟨node, -, rfl⟩ := List.mem_map.1 exit
    rw [quantityIn?, argument?_exitOrder node (by decide)] at size
    exact nomatch size

end StrategyCompiler.Compilation
