import Mathlib.Data.List.Nodup
import StrategyCompiler.Proofs.Graph.Adjacency
import StrategyCompiler.Proofs.Graph.Stated
import StrategyCompiler.Proofs.Validation.Parameters
import StrategyCompiler.Validation.Report
/-!
The verdict on a graph.  A graph is accepted when each of its nodes says what its kind needs, ids
are distinct, edges join nodes, and no node consumes its own output; the checks report no error
exactly for such graphs, and of the errors that are not about a single node they report each once.
-/

set_option autoImplicit false

namespace StrategyCompiler.Validation

open Catalogue (Signature)
open Diagnostic (Endpoint Error)
open Relation (TransGen)
open StrategyCompiler.Graph (Comparison Index Node Operation)

/-- A node, known by its id, consumes the output of another directly. -/
def Consumes (graph : Graph) (target source : String) : Prop :=
  ∃ edge ∈ graph.edges, edge.source = source ∧ edge.target = target

theorem not_consumes_self_of_rank {graph : Graph} (rank : String → Nat)
    (rising : ∀ edge ∈ graph.edges, rank edge.source < rank edge.target) (id : String) :
    ¬ TransGen (Consumes graph) id id := by
  have step : ∀ target source, Consumes graph target source → rank source < rank target := by
    rintro _ _ ⟨edge, member, rfl, rfl⟩
    exact rising edge member
  have path : ∀ target source, TransGen (Consumes graph) target source →
      rank source < rank target := by
    intro target source consumes
    induction consumes with
    | single direct => exact step _ _ direct
    | tail _ direct ih => exact (step _ _ direct).trans ih
  exact fun cycle => Nat.lt_irrefl _ (path id id cycle)

/-- An indicator selects a function that is no operator and gives it parameters without fault. -/
def IndicatorAccepted (catalogue : Catalogue) (node : Node) : Prop :=
  ∃ id signature, node.indicatorId? = some id ∧ catalogue.lookup? id = some signature ∧
    signature.category ≠ .operator ∧ (resolve signature node).errors = []

def ConditionAccepted (node : Node) : Prop :=
  ∃ comparison : Comparison, node.text? "operator" = some comparison.name

/-- An action leaves its order type open, by giving none, null or a blank text, or names one. -/
def ActionAccepted (node : Node) : Prop :=
  Json.Object.get? node.config "orderType" = none ∨
    Json.Object.get? node.config "orderType" = some .null ∨
      ∃ text, Json.Object.get? node.config "orderType" = some (.string text) ∧
        (Text.isBlank text = true ∨
          ∃ orderType : Graph.OrderType, orderType.name = Text.lower (Text.trim text))

def MathAccepted (node : Node) : Prop :=
  ∃ text, node.text? "operation" = some text ∧
    ∃ operation : Operation, operation.name = Text.lower (Text.trim text)

def NodeAccepted (catalogue : Catalogue) (node : Node) : Prop :=
  match node.kind with
  | .indicator => IndicatorAccepted catalogue node
  | .condition => ConditionAccepted node
  | .action => ActionAccepted node
  | .math => MathAccepted node
  | .dataSource | .risk | .timing => True

structure Accepted (catalogue : Catalogue) (graph : Graph) : Prop where
  dataSource : ∃ node ∈ graph.nodes, node.kind = .dataSource
  distinct : (graph.nodes.map Node.id).Nodup
  nodes : ∀ node ∈ graph.nodes, NodeAccepted catalogue node
  edges : ∀ edge ∈ graph.edges,
    (∃ node ∈ graph.nodes, node.id = edge.source) ∧ ∃ node ∈ graph.nodes, node.id = edge.target
  acyclic : ∀ id, ¬ TransGen (Consumes graph) id id

private theorem ofName?_name_iff {text : String} :
    (Comparison.ofName? text).isSome ↔ ∃ comparison : Comparison, text = comparison.name :=
  Option.isSome_iff_exists.trans
    (exists_congr fun _ => Graph.comparison_ofName?_eq_some_iff.trans eq_comm)

theorem operation_ofName?_iff {text : String} :
    (Operation.ofName? text).isSome ↔
      ∃ operation : Operation, operation.name = Text.lower (Text.trim text) :=
  Option.isSome_iff_exists.trans (exists_congr fun _ => Graph.operation_ofName?_eq_some_iff)

private theorem orderType_ofName?_iff {text : String} :
    (Graph.OrderType.ofName? text).isSome ↔
      ∃ orderType : Graph.OrderType, orderType.name = Text.lower (Text.trim text) :=
  Option.isSome_iff_exists.trans (exists_congr fun _ => Graph.orderType_ofName?_eq_some_iff)

private theorem indicatorErrors_eq_nil_iff {catalogue : Catalogue} {node : Node} :
    indicatorErrors catalogue node = [] ↔ IndicatorAccepted catalogue node := by
  unfold indicatorErrors IndicatorAccepted indicator?
  cases node.indicatorId? with
  | none => simp
  | some id =>
    cases found : catalogue.lookup? id with
    | none => simp [found]
    | some signature =>
      by_cases operator : signature.category = .operator
      · simp [found, operator, Option.filter_some]
      · simp [found, operator, Option.filter_some]

private theorem conditionErrors_eq_nil_iff {node : Node} :
    conditionErrors node = [] ↔ ConditionAccepted node := by
  unfold conditionErrors ConditionAccepted
  cases node.text? "operator" with
  | none => simp
  | some text => simp [← ofName?_name_iff, Option.isSome_iff_ne_none]

private theorem mathErrors_eq_nil_iff {node : Node} :
    mathErrors node = [] ↔ MathAccepted node := by
  unfold mathErrors MathAccepted
  cases node.text? "operation" with
  | none =>
    have unnamed : Operation.ofName? "" = none := by decide
    simp [unnamed]
  | some text => simp [← operation_ofName?_iff, Option.isSome_iff_ne_none]

private theorem actionErrors_eq_nil_iff {node : Node} :
    actionErrors node = [] ↔ ActionAccepted node := by
  unfold actionErrors orderTypeEntry ActionAccepted Node.value?
  cases Json.Object.get? node.config "orderType" with
  | none => simp
  | some raw =>
    cases raw with
    | null => simp [Json.Value.isNull, Option.filter_some]
    | string text =>
      cases blank : Text.isBlank text with
      | true => simp [Json.Value.isNull, Option.filter_some, blank]
      | false =>
        cases found : Graph.OrderType.ofName? text <;>
          simp [Json.Value.isNull, Option.filter_some, blank, found, ← orderType_ofName?_iff]
    | bool | integer | float | array | object => simp [Json.Value.isNull, Option.filter_some]

private theorem nodeErrors_eq_nil_iff {catalogue : Catalogue} {node : Node} :
    nodeErrors catalogue node = [] ↔ NodeAccepted catalogue node := by
  unfold nodeErrors NodeAccepted
  cases node.kind with
  | indicator => exact indicatorErrors_eq_nil_iff
  | condition => exact conditionErrors_eq_nil_iff
  | action => exact actionErrors_eq_nil_iff
  | math => exact mathErrors_eq_nil_iff
  | dataSource | risk | timing => simp

private def idAt (graph : Graph) (position : Nat) : String :=
  (graph.nodes[position]?.map Node.id).getD ""

private theorem idAt_of_position? {graph : Graph} {id : String} {position : Nat}
    (found : graph.position? id = some position) : idAt graph position = id := by
  obtain ⟨⟨node, stands, rfl⟩, -⟩ := Graph.position?_eq_some_iff.1 found
  simp [idAt, stands]

private theorem transGen_consumes {graph : Graph} {position dep : Nat}
    (path : TransGen (Graph.Walk.DependsOn (Index.ofGraph graph).dependencies) position dep) :
    TransGen (Consumes graph) (idAt graph position) (idAt graph dep) := by
  refine TransGen.lift (idAt graph) (fun target source depends => ?_) _ _ path
  obtain ⟨edge, member, hsource, htarget⟩ := Index.mem_dependencies_ofGraph.1 depends
  exact ⟨edge, member, (idAt_of_position? hsource).symm, (idAt_of_position? htarget).symm⟩

private theorem transGen_dependsOn {graph : Graph} {target source : String}
    (joined : ∀ edge ∈ graph.edges, edgeErrors graph edge = [])
    (path : TransGen (Consumes graph) target source) :
    TransGen (Graph.Walk.DependsOn (Index.ofGraph graph).dependencies)
      ((graph.position? target).getD 0) ((graph.position? source).getD 0) := by
  refine TransGen.lift (fun id => (graph.position? id).getD 0) (fun target source consumes => ?_)
    _ _ path
  obtain ⟨edge, member, rfl, rfl⟩ := consumes
  have ends := joined edge member
  refine Index.mem_dependencies_ofGraph.2 ⟨edge, member, ?_⟩
  cases found : graph.position? edge.source <;> cases found' : graph.position? edge.target <;>
    simp_all [edgeErrors]

private theorem edgeErrors_eq_nil_iff {graph : Graph} {edge : Graph.Edge} :
    edgeErrors graph edge = [] ↔
      (∃ node ∈ graph.nodes, node.id = edge.source) ∧
        ∃ node ∈ graph.nodes, node.id = edge.target := by
  simp [edgeErrors, Graph.position?_eq_none_iff]

private theorem acyclic_iff {graph : Graph}
    (joined : ∀ edge ∈ graph.edges, edgeErrors graph edge = []) :
    (∀ id, ¬ TransGen (Consumes graph) id id) ↔ (Index.ofGraph graph).cycle? = none := by
  rw [Index.cycle?_eq_none_iff]
  constructor
  · intro acyclic position cycle
    exact acyclic _ (transGen_consumes cycle)
  · intro acyclic id cycle
    exact acyclic _ (transGen_dependsOn joined cycle)

private theorem cycleErrors_eq_nil_iff {graph : Graph} :
    cycleErrors (Index.ofGraph graph) = [] ↔ (Index.ofGraph graph).cycle? = none := by
  unfold cycleErrors
  cases found : (Index.ofGraph graph).cycle? with
  | none => simp
  | some position =>
    have cycle := Graph.Walk.transGen_of_back? ⟨.nil, by simp⟩ found
    obtain ⟨_, -, depends⟩ := TransGen.tail'_iff.1 cycle
    have inside := Index.dependency_lt depends
    simp [List.getElem?_eq_getElem inside]

private theorem count_repeatedIds (before ids : List String) (id : String) :
    (repeatedIds before ids).count id =
      if before.count id ≤ 1 ∧ 2 ≤ before.count id + ids.count id then 1 else 0 := by
  induction ids generalizing before with
  | nil =>
    have none : ¬ (before.count id ≤ 1 ∧ 2 ≤ before.count id + ([] : List String).count id) := by
      rw [List.count_nil]
      omega
    rw [if_neg none, repeatedIds, List.count_nil]
  | cons other rest ih =>
    rw [repeatedIds, List.count_append, ih]
    by_cases same : other = id
    · subst same
      by_cases again : before.count other = 1
      · simp only [again, beq_self_eq_true, if_true, List.count_nil,
          List.count_cons_self]
        split <;> split <;> omega
      · simp only [again, beq_iff_eq, if_false, List.count_nil, List.count_cons_self]
        split <;> split <;> omega
    · have apart : (if before.count other == 1 then [other] else []).count id = 0 := by
        split <;> simp [same]
      rw [apart, List.count_cons_of_ne same, List.count_cons_of_ne same, Nat.zero_add]

private theorem componentErrors_eq_nil_iff {graph : Graph} :
    componentErrors graph = [] ↔
      (∃ node ∈ graph.nodes, node.kind = .dataSource) ∧ (graph.nodes.map Node.id).Nodup := by
  have distinct : repeatedIds [] (graph.nodes.map Node.id) = [] ↔
      (graph.nodes.map Node.id).Nodup := by
    rw [List.nodup_iff_count_le_one, List.eq_nil_iff_forall_not_mem]
    refine forall_congr' fun id => ?_
    rw [← List.count_eq_zero, count_repeatedIds]
    by_cases again : 2 ≤ (graph.nodes.map Node.id).count id
    · simp [again]
      omega
    · simp [again]
      omega
  rw [componentErrors, List.append_eq_nil_iff, List.map_eq_nil_iff, distinct]
  simp [Graph.countKind, List.countP_eq_zero]

theorem validate_errors_eq_nil_iff {catalogue : Catalogue} {graph : Graph} :
    (validate catalogue graph).errors = [] ↔ Accepted catalogue graph := by
  have nodes : graph.nodes.flatMap (nodeErrors catalogue) = [] ↔
      ∀ node ∈ graph.nodes, NodeAccepted catalogue node := by
    simp only [List.flatMap_eq_nil_iff, nodeErrors_eq_nil_iff]
  simp only [validate, validateIndex, Index.ofGraph_graph, List.append_eq_nil_iff,
    componentErrors_eq_nil_iff, nodes, List.flatMap_eq_nil_iff, cycleErrors_eq_nil_iff]
  constructor
  · rintro ⟨⟨⟨⟨dataSource, distinct⟩, nodes⟩, joined⟩, open_⟩
    exact ⟨dataSource, distinct, nodes,
      fun edge member => edgeErrors_eq_nil_iff.1 (joined edge member), (acyclic_iff joined).2 open_⟩
  · rintro ⟨dataSource, distinct, nodes, edges, acyclic⟩
    have joined : ∀ edge ∈ graph.edges, edgeErrors graph edge = [] :=
      fun edge member => edgeErrors_eq_nil_iff.2 (edges edge member)
    exact ⟨⟨⟨⟨dataSource, distinct⟩, nodes⟩, joined⟩, (acyclic_iff joined).1 acyclic⟩

theorem forall_nodeAccepted_iff {catalogue : Catalogue} {graph : Graph} :
    (∀ node ∈ graph.nodes, NodeAccepted catalogue node) ↔
      (graph.nodes.all fun node => (nodeErrors catalogue node).isEmpty) = true := by
  simp only [List.all_eq_true, List.isEmpty_iff, nodeErrors_eq_nil_iff]

theorem validate_errors_eq_nil_iff_of_unjoined {catalogue : Catalogue} {graph : Graph}
    (unjoined : graph.edges = []) :
    (validate catalogue graph).errors = [] ↔
      (∃ node ∈ graph.nodes, node.kind = .dataSource) ∧ (graph.nodes.map Node.id).Nodup ∧
        (graph.nodes.all fun node => (nodeErrors catalogue node).isEmpty) = true := by
  rw [validate_errors_eq_nil_iff, ← forall_nodeAccepted_iff]
  constructor
  · exact fun accepted => ⟨accepted.dataSource, accepted.distinct, accepted.nodes⟩
  · rintro ⟨dataSource, distinct, nodes⟩
    refine ⟨dataSource, distinct, nodes, by simp [unjoined], fun id cycle => ?_⟩
    obtain ⟨_, ⟨edge, member, -⟩, -⟩ := TransGen.head'_iff.1 cycle
    rw [unjoined] at member
    exact absurd member List.not_mem_nil

theorem cycle?_of_valid {catalogue : Catalogue} {graph : Graph}
    (valid : (validate catalogue graph).errors = []) : (Index.ofGraph graph).cycle? = none := by
  simp only [validate, validateIndex, List.append_eq_nil_iff, cycleErrors_eq_nil_iff] at valid
  exact valid.2

def duplicate? : Error → Option String
  | .duplicateNodeId id => some id
  | _ => none

/-- The edge, the end of it and the missing node that an error is about. -/
def dangling? : Error → Option (String × Endpoint × String)
  | .danglingEdge edge endpoint node => some (edge, endpoint, node)
  | _ => none

def isCircular : Error → Bool
  | .circularDependency _ => true
  | _ => false

def isStructural : Error → Bool
  | .badStructure _ => true
  | _ => false

def idAtEnd (edge : Graph.Edge) : Endpoint → String
  | .source => edge.source
  | .target => edge.target

private def endErrors (graph : Graph) (edge : Graph.Edge) (endpoint : Endpoint) : List Error :=
  if graph.position? (idAtEnd edge endpoint) = none then
    [.danglingEdge edge.id endpoint (idAtEnd edge endpoint)]
  else []

private theorem edgeErrors_eq (graph : Graph) (edge : Graph.Edge) :
    edgeErrors graph edge = endErrors graph edge .source ++ endErrors graph edge .target := by
  unfold edgeErrors endErrors idAtEnd
  cases source : graph.position? edge.source <;> cases target : graph.position? edge.target <;>
    simp [source, target]

private theorem mem_edgeErrors {graph : Graph} {edge : Graph.Edge} {error : Error}
    (member : error ∈ edgeErrors graph edge) :
    ∃ endpoint, error = .danglingEdge edge.id endpoint (idAtEnd edge endpoint) := by
  rw [edgeErrors_eq, List.mem_append] at member
  rcases member with source | target
  · unfold endErrors at source
    split at source
    · exact ⟨_, List.mem_singleton.1 source⟩
    · exact absurd source (by simp)
  · unfold endErrors at target
    split at target
    · exact ⟨_, List.mem_singleton.1 target⟩
    · exact absurd target (by simp)

private theorem mem_componentErrors {graph : Graph} {error : Error}
    (member : error ∈ componentErrors graph) :
    error = .missingDataSource ∨ ∃ id, error = .duplicateNodeId id := by
  rcases List.mem_append.1 member with missing | again
  · split at missing
    · exact .inl (List.mem_singleton.1 missing)
    · exact absurd missing (by simp)
  · obtain ⟨id, -, rfl⟩ := List.mem_map.1 again
    exact .inr ⟨id, rfl⟩

private def IsNodeError (error : Error) : Prop :=
  duplicate? error = none ∧ dangling? error = none ∧ isCircular error = false ∧
    isStructural error = false

private theorem isNodeError_of_mem_nodeErrors {catalogue : Catalogue} {node : Node} {error : Error}
    (member : error ∈ nodeErrors catalogue node) : IsNodeError error := by
  unfold nodeErrors at member
  split at member
  · unfold indicatorErrors at member
    split at member
    · obtain rfl := List.mem_singleton.1 member
      exact ⟨rfl, rfl, rfl, rfl⟩
    · split at member
      · obtain rfl := List.mem_singleton.1 member
        exact ⟨rfl, rfl, rfl, rfl⟩
      · rcases isParameterError_of_mem_resolve member with
          ⟨_, _, _, rfl⟩ | ⟨_, _, _, _, rfl⟩ | ⟨_, _, _, rfl⟩ <;> exact ⟨rfl, rfl, rfl, rfl⟩
  · unfold conditionErrors at member
    split at member
    · obtain rfl := List.mem_singleton.1 member
      exact ⟨rfl, rfl, rfl, rfl⟩
    · split at member
      · exact absurd member (by simp)
      · obtain rfl := List.mem_singleton.1 member
        exact ⟨rfl, rfl, rfl, rfl⟩
  · unfold actionErrors at member
    split at member
    · obtain rfl := List.mem_singleton.1 member
      exact ⟨rfl, rfl, rfl, rfl⟩
    · exact absurd member (by simp)
    · exact absurd member (by simp)
  · simp only [mathErrors] at member
    split at member
    · obtain rfl := List.mem_singleton.1 member
      exact ⟨rfl, rfl, rfl, rfl⟩
    · exact absurd member (by simp)
  · exact absurd member (by simp)
  · exact absurd member (by simp)
  · exact absurd member (by simp)

private theorem nodeErrors_silent {α : Type} {about : Error → Option α} {catalogue : Catalogue}
    {graph : Graph} (silent : ∀ error, IsNodeError error → about error = none) :
    (graph.nodes.flatMap (nodeErrors catalogue)).filterMap about = [] := by
  rw [List.filterMap_eq_nil_iff]
  intro error member
  obtain ⟨node, -, member⟩ := List.mem_flatMap.1 member
  exact silent error (isNodeError_of_mem_nodeErrors member)

private theorem cycleErrors_cases (index : Index) :
    cycleErrors index = [] ∨ ∃ id, cycleErrors index = [.circularDependency id] := by
  unfold cycleErrors
  split
  · exact .inr ⟨_, rfl⟩
  · exact .inl rfl

private theorem filterMap_duplicate? (catalogue : Catalogue) (graph : Graph) :
    (validate catalogue graph).errors.filterMap duplicate? =
      repeatedIds [] (graph.nodes.map Node.id) := by
  have edges : (graph.edges.flatMap (edgeErrors graph)).filterMap duplicate? = [] := by
    rw [List.filterMap_eq_nil_iff]
    intro error member
    obtain ⟨edge, -, member⟩ := List.mem_flatMap.1 member
    obtain ⟨endpoint, rfl⟩ := mem_edgeErrors member
    rfl
  have cycle : (cycleErrors (Index.ofGraph graph)).filterMap duplicate? = [] := by
    rcases cycleErrors_cases (Index.ofGraph graph) with none | ⟨id, one⟩
    · rw [none, List.filterMap_nil]
    · rw [one]
      rfl
  have components : (componentErrors graph).filterMap duplicate? =
      repeatedIds [] (graph.nodes.map Node.id) := by
    have missing : (if graph.countKind .dataSource == 0 then [Error.missingDataSource]
        else []).filterMap duplicate? = [] := by
      split <;> rfl
    rw [componentErrors, List.filterMap_append, missing, List.nil_append, List.filterMap_map]
    exact List.filterMap_some
  simp only [validate, validateIndex, Index.ofGraph_graph, List.filterMap_append, edges, cycle,
    components, nodeErrors_silent fun _ h => h.1, List.append_nil]

private theorem filterMap_dangling? (catalogue : Catalogue) (graph : Graph) :
    (validate catalogue graph).errors.filterMap dangling? =
      (graph.edges.flatMap (edgeErrors graph)).filterMap dangling? := by
  have components : (componentErrors graph).filterMap dangling? = [] := by
    rw [List.filterMap_eq_nil_iff]
    intro error member
    rcases mem_componentErrors member with rfl | ⟨id, rfl⟩ <;> rfl
  have cycle : (cycleErrors (Index.ofGraph graph)).filterMap dangling? = [] := by
    rcases cycleErrors_cases (Index.ofGraph graph) with none | ⟨id, one⟩
    · rw [none, List.filterMap_nil]
    · rw [one]
      rfl
  simp only [validate, validateIndex, Index.ofGraph_graph, List.filterMap_append, cycle, components,
    nodeErrors_silent fun _ h => h.2.1, List.append_nil, List.nil_append]

private theorem count_endErrors (graph : Graph) (edge : Graph.Edge) (id : String)
    (side endpoint : Endpoint) (name : String) :
    ((endErrors graph edge side).filterMap dangling?).count (id, endpoint, name) =
      if side = endpoint ∧ edge.id = id ∧ idAtEnd edge side = name ∧ graph.position? name = none
      then 1 else 0 := by
  unfold endErrors
  by_cases same : side = endpoint ∧ edge.id = id ∧ idAtEnd edge side = name
  · obtain ⟨rfl, rfl, rfl, rfl⟩ := same
    split <;> simp_all [dangling?]
  · have other : ¬ (side = endpoint ∧ edge.id = id ∧ idAtEnd edge side = name ∧
        graph.position? name = none) := fun h => same ⟨h.1, h.2.1, h.2.2.1⟩
    rw [if_neg other]
    split
    · have differ : (edge.id, side, idAtEnd edge side) ≠ (id, endpoint, name) := by
        intro equal
        obtain ⟨rfl, rfl, rfl⟩ : edge.id = id ∧ side = endpoint ∧ idAtEnd edge side = name := by
          simpa using equal
        exact same ⟨rfl, rfl, rfl⟩
      exact List.count_cons_of_ne differ
    · rfl

private theorem count_edgeErrors (graph : Graph) (edge : Graph.Edge) (id : String)
    (endpoint : Endpoint) (name : String) :
    ((edgeErrors graph edge).filterMap dangling?).count (id, endpoint, name) =
      if edge.id = id ∧ idAtEnd edge endpoint = name ∧ graph.position? name = none
      then 1 else 0 := by
  rw [edgeErrors_eq, List.filterMap_append, List.count_append, count_endErrors, count_endErrors]
  cases endpoint <;> simp

private theorem countP_isCircular_nil {errors : List Error}
    (silent : ∀ error ∈ errors, isCircular error = false) : errors.countP isCircular = 0 := by
  rw [List.countP_eq_zero]
  intro error member
  simp [silent error member]

private theorem countP_isCircular_le (catalogue : Catalogue) (graph : Graph) :
    (validate catalogue graph).errors.countP isCircular ≤ 1 := by
  have components : (componentErrors graph).countP isCircular = 0 := by
    refine countP_isCircular_nil fun error member => ?_
    rcases mem_componentErrors member with rfl | ⟨id, rfl⟩ <;> rfl
  have nodes : (graph.nodes.flatMap (nodeErrors catalogue)).countP isCircular = 0 := by
    refine countP_isCircular_nil fun error member => ?_
    obtain ⟨node, -, member⟩ := List.mem_flatMap.1 member
    exact (isNodeError_of_mem_nodeErrors member).2.2.1
  have edges : (graph.edges.flatMap (edgeErrors graph)).countP isCircular = 0 := by
    refine countP_isCircular_nil fun error member => ?_
    obtain ⟨edge, -, member⟩ := List.mem_flatMap.1 member
    obtain ⟨endpoint, rfl⟩ := mem_edgeErrors member
    rfl
  simp only [validate, validateIndex, Index.ofGraph_graph, List.countP_append, components, nodes,
    edges, Nat.zero_add]
  rcases cycleErrors_cases (Index.ofGraph graph) with none | ⟨id, one⟩
  · simp [none]
  · simp [one, isCircular]

theorem not_isStructural_of_mem_validate {catalogue : Catalogue} {graph : Graph} {error : Error}
    (member : error ∈ (validate catalogue graph).errors) : isStructural error = false := by
  simp only [validate, validateIndex, Index.ofGraph_graph, List.mem_append, List.mem_flatMap]
    at member
  rcases member with ((component | ⟨node, -, own⟩) | ⟨edge, -, own⟩) | cycle
  · rcases mem_componentErrors component with rfl | ⟨id, rfl⟩ <;> rfl
  · exact (isNodeError_of_mem_nodeErrors own).2.2.2
  · obtain ⟨endpoint, rfl⟩ := mem_edgeErrors own
    rfl
  · rcases cycleErrors_cases (Index.ofGraph graph) with none | ⟨id, one⟩
    · rw [none] at cycle
      exact absurd cycle List.not_mem_nil
    · rw [one] at cycle
      obtain rfl := List.mem_singleton.1 cycle
      rfl

theorem verdict_exact (catalogue : Catalogue) (graph : Graph) :
    ((validate catalogue graph).errors = [] ↔ Accepted catalogue graph) ∧
      (∀ id, ((validate catalogue graph).errors.filterMap duplicate?).count id =
        if 2 ≤ (graph.nodes.map Node.id).count id then 1 else 0) ∧
      (∀ id endpoint name,
        ((validate catalogue graph).errors.filterMap dangling?).count (id, endpoint, name) =
          graph.edges.countP fun edge => decide (edge.id = id ∧ idAtEnd edge endpoint = name ∧
            ∀ node ∈ graph.nodes, node.id ≠ name)) ∧
      (validate catalogue graph).errors.countP isCircular ≤ 1 := by
  refine ⟨validate_errors_eq_nil_iff, fun id => ?_, fun id endpoint name => ?_,
    countP_isCircular_le catalogue graph⟩
  · rw [filterMap_duplicate?, count_repeatedIds]
    simp
  · rw [filterMap_dangling?]
    simp only [← Graph.position?_eq_none_iff]
    induction graph.edges with
    | nil => rfl
    | cons edge edges ih =>
      rw [List.flatMap_cons, List.filterMap_append, List.count_append, count_edgeErrors, ih,
        List.countP_cons, Nat.add_comm]
      simp

end StrategyCompiler.Validation
