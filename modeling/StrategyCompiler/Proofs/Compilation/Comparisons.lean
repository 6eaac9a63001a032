import StrategyCompiler.Proofs.Compilation.Operands
/-!
The comparisons that conditions stand for.  Every condition has a line that compares the value which
it examines.  The order in which indicators and data sources are joined to a condition with a
threshold decides nothing but the names of what it reads.
-/

set_option autoImplicit false

namespace StrategyCompiler.Compilation

open Catalogue (builtin)
open StrategyCompiler.Graph (Comparison Edge Node Placed StatesNumber StatesText)
open Naming (Binding)
open Number (Double)
open Script (Expr)
open Validation (validate validate_errors_eq_nil_iff)

variable {catalogue : Catalogue} {graph : Graph}

/-! ### Edges in another order -/

instance : DecidablePred Computes := fun node =>
  inferInstanceAs (Decidable (node.kind = .indicator ∨ node.kind = .math))

/-- Two graphs differ in the order of their edges alone.  Among the nodes in front of one with this
id, those that compute a value keep their order, and so do the data sources. -/
structure Reordered (graph twin : Graph) (id : String) : Prop where
  nodes : twin.nodes = graph.nodes
  edges : twin.edges.Perm graph.edges
  computing : (twin.nodesInFront id).filter (fun source => Computes source) =
    (graph.nodesInFront id).filter fun source => Computes source
  dataSources : (twin.nodesInFront id).filter (fun source => source.kind = .dataSource) =
    (graph.nodesInFront id).filter fun source => source.kind = .dataSource

section Reordered

variable {twin : Graph} {id : String} (reordered : Reordered graph twin id)
include reordered

theorem Reordered.valid (valid : (validate catalogue graph).errors = []) :
    (validate catalogue twin).errors = [] := by
  have accepted := validate_errors_eq_nil_iff.1 valid
  have same : Validation.Consumes twin = Validation.Consumes graph := by
    funext target source
    simp only [Validation.Consumes, reordered.edges.mem_iff]
  refine validate_errors_eq_nil_iff.2 ⟨?_, ?_, ?_, ?_, ?_⟩
  · rw [reordered.nodes]
    exact accepted.dataSource
  · rw [reordered.nodes]
    exact accepted.distinct
  · rw [reordered.nodes]
    exact accepted.nodes
  · rw [reordered.nodes]
    exact fun edge member => accepted.edges edge (reordered.edges.mem_iff.1 member)
  · rw [same]
    exact accepted.acyclic

private theorem Reordered.examines_iff {source : Node} :
    Examines twin id source ↔ Examines graph id source := by
  have plain {other : Graph} : (∀ source ∈ other.nodesInFront id, ¬ Computes source) ↔
      (other.nodesInFront id).filter (fun source => Computes source) = [] := by
    simp only [List.filter_eq_nil_iff, decide_eq_true_iff]
  rw [Examines, Examines, isFirst_iff_head?, isFirst_iff_head?, isFirst_iff_head?,
    isFirst_iff_head?, plain, plain, reordered.computing, reordered.dataSources]

private theorem Reordered.exists_tuple (distinct : (graph.nodes.map Node.id).Nodup)
    {source : Placed}
    (there : graph.nodes[source.position]? = some source.node) {outputs : List (String × String)}
    (bound : (Naming.bind catalogue graph).binding? source.node.id = some (.tuple outputs)) :
    ∃ others, (Naming.bind catalogue twin).binding? source.node.id = some (.tuple others) ∧
      others.map Prod.fst = outputs.map Prod.fst := by
  have stands : twin.nodes[source.position]? = some source.node := by rwa [reordered.nodes]
  have also : (twin.nodes.map Node.id).Nodup := by rwa [reordered.nodes]
  rw [binding?_bind distinct there] at bound
  rw [binding?_bind also stands]
  obtain ⟨node, same, suffixes, named, earlier, tuple⟩ := Naming.bindingAt?_bind bound
  obtain rfl := Option.some.inj (there.symm.trans same)
  have nonempty : suffixes ≠ [] := by
    rintro rfl
    rw [Naming.bindNode_nil] at tuple
    exact nomatch tuple
  obtain ⟨further, given⟩ := exists_binding stands named
  obtain ⟨pairs, own, first⟩ := Naming.bindNode_tuple earlier source.node nonempty
  obtain ⟨others, twins, second⟩ := Naming.bindNode_tuple further source.node nonempty
  obtain rfl := Binding.tuple.inj (tuple.trans own)
  exact ⟨others, by rw [given, twins], second.trans first.symm⟩

end Reordered

theorem Reordered.symm {twin : Graph} {id : String} (reordered : Reordered graph twin id) :
    Reordered twin graph id where
  nodes := reordered.nodes.symm
  edges := reordered.edges.symm
  computing := reordered.computing.symm
  dataSources := reordered.dataSources.symm

private theorem statesText_unique {node : Node} {key text other : String}
    (stated : StatesText node key text) (also : StatesText node key other) : other = text :=
  Option.some.inj
    ((Graph.text?_eq_some_iff.2 also).symm.trans (Graph.text?_eq_some_iff.2 stated))

section Reordered

variable {twin : Graph} {id : String} (reordered : Reordered graph twin id)
  (distinct : (graph.nodes.map Node.id).Nodup)
include reordered distinct

private theorem Reordered.exists_entry {source : Placed}
    (there : graph.nodes[source.position]? = some source.node) {output name : String}
    {outputs : List (String × String)}
    (bound : (Naming.bind catalogue graph).binding? source.node.id = some (.tuple outputs))
    (first : IsFirst (fun entry => entry.1 = output) outputs (output, name)) :
    ∃ others, (Naming.bind catalogue twin).binding? source.node.id = some (.tuple others) ∧
      ∃ entry ∈ others, entry.1 = output := by
  obtain ⟨others, tuple, same⟩ := reordered.exists_tuple distinct there bound
  have listed : output ∈ others.map Prod.fst := by
    rw [same]
    exact List.mem_map_of_mem first.mem
  obtain ⟨entry, member, own⟩ := List.mem_map.1 listed
  exact ⟨others, tuple, entry, member, own⟩

/-- The same output of a node is read in either graph, and by the same text when the node has the
same names. -/
private theorem Reordered.outputText {condition : Node} {source : Placed}
    (there : graph.nodes[source.position]? = some source.node) {output further : Option String}
    {text other : String}
    (reads : OutputText catalogue graph condition source.node output text)
    (also : OutputText catalogue twin condition source.node further other) :
    further = output ∧
      ((Naming.bind catalogue twin).binding? source.node.id =
        (Naming.bind catalogue graph).binding? source.node.id → other = text) := by
  have stands : twin.nodes[source.position]? = some source.node := by rwa [reordered.nodes]
  have ids : (twin.nodes.map Node.id).Nodup := by rwa [reordered.nodes]
  cases reads with
  | stated stated bound first =>
    cases also with
    | stated again binds second =>
      obtain rfl := statesText_unique stated again
      refine ⟨rfl, fun same => ?_⟩
      obtain rfl := Binding.tuple.inj (Option.some.inj (bound.symm.trans (same ▸ binds)))
      exact (Prod.mk.inj (first.unique second)).2
    | value without =>
      obtain ⟨others, tuple, entry, member, own⟩ :=
        reordered.exists_entry distinct there bound first
      exact absurd own (without _ _ stated tuple entry member)
  | value without =>
    cases also with
    | stated again binds second =>
      obtain ⟨others, tuple, entry, member, own⟩ :=
        reordered.symm.exists_entry ids stands binds second
      exact absurd own (without _ _ again tuple entry member)
    | value =>
      refine ⟨rfl, fun same => ?_⟩
      rw [valueText, valueText, same]

end Reordered

/-! ### Comparisons -/

theorem LeftOperand.examines {condition source : Node} {output : Option String} {left : Expr}
    (reads : LeftOperand catalogue graph condition (some (source, output)) left) :
    Examines graph condition.id source := by
  cases reads with
  | examined examines => exact examines

private theorem Examines.not_silent {id : String} {source : Node}
    (examines : Examines graph id source)
    (silent : ∀ other ∈ graph.nodesInFront id, other.kind.producesValue = false) : False :=
  absurd examines.produces (by rw [silent source examines.mem]; exact Bool.false_ne_true)

/-- The line of a condition: a comparison of two operands.  The left one reads the origin, no name
of the script stands on both sides, and neither does a node. -/
structure Comparing (catalogue : Catalogue) (options : Options) (graph : Graph) (placed : Placed)
    (comparison : Comparison) (origin : Option (Node × Option String)) (left right : Expr) :
    Prop where
  readsLeft : LeftOperand catalogue graph placed.node origin left
  readsRight : RightOperand catalogue graph placed.node right
  different : ∀ source output, origin = some (source, output) →
    ∀ other, ComparesWith graph placed.node.id other → other.id ≠ source.id
  apart : ∀ name ∈ (Naming.bind catalogue graph).identifiers,
    ¬ (left = .name name ∧ right = .name name)
  expr : (planWith catalogue graph).conditionExpr placed =
    compareExpr ((planWith catalogue graph).operatorFunction "crossover")
      ((planWith catalogue graph).operatorFunction "crossunder") left right comparison
  line : ∃ name, (Naming.bind catalogue graph).binding? placed.node.id = some (.single name) ∧
    .define name ((planWith catalogue graph).conditionExpr placed) ∈
      (Program.ofPlan options (planWith catalogue graph)).definitions

private theorem comparing_of_stated (catalogue : Catalogue) (options : Options) {placed : Placed}
    (distinct : (graph.nodes.map Node.id).Nodup)
    (found : graph.nodes[placed.position]? = some placed.node)
    (kind : placed.node.kind = .condition) {comparison : Comparison}
    (operator : StatesText placed.node "operator" comparison.name) :
    ∃ origin, Comparing catalogue options graph placed comparison origin
      ((planWith catalogue graph).leftOperand placed)
      ((planWith catalogue graph).rightOperand placed) := by
  have named : Naming.namedOutputs? catalogue placed.node = some [] := by
    rw [Naming.namedOutputs?, kind]
  obtain ⟨name, bound⟩ := exists_single found named
  obtain ⟨origin, left⟩ := exists_leftOperand distinct found catalogue
  have right := rightOperand_spec distinct found catalogue
  refine ⟨origin, left, right, ?_, fun own => operands_apart distinct left right, ?_, name,
    (binding?_bind distinct found).trans bound, ?_⟩
  · rintro source output rfl other compares
    exact compares.holds.2 source left.examines
  · rw [Plan.conditionExpr, Graph.text?_eq_some_iff.2 operator, Option.bind_some,
      Graph.comparison_ofName?_eq_some_iff.2 rfl, Option.getD_some]
  · refine List.mem_filterMap.2 ⟨placed, Naming.mem_namingOrder.2 found, ?_⟩
    rw [Plan.logicExpr?, kind, names_planWith, bound]
    rfl

section Reordered

variable {twin : Graph} {placed : Placed} (reordered : Reordered graph twin placed.node.id)
  (distinct : (graph.nodes.map Node.id).Nodup)
include reordered distinct

theorem Reordered.leftOperand {origin further : Option (Node × Option String)} {left other : Expr}
    (reads : LeftOperand catalogue graph placed.node origin left)
    (also : LeftOperand catalogue twin placed.node further other) :
    further = origin ∧
      ((∀ source output, origin = some (source, output) →
        (Naming.bind catalogue twin).binding? source.id =
          (Naming.bind catalogue graph).binding? source.id) → other = left) := by
  cases reads with
  | @examined source output text examines reads =>
    have again := reordered.examines_iff.2 examines
    cases also with
    | @examined other further text examined own =>
      obtain rfl := again.unique examined
      obtain ⟨stands, rfl, there⟩ := exists_placed_of_mem_nodesInFront examines.mem
      obtain ⟨rfl, same⟩ := reordered.outputText distinct there reads own
      exact ⟨rfl, fun names => congrArg Expr.name (same (names _ _ rfl))⟩
    | price silent => exact (again.not_silent silent).elim
  | price silent =>
    cases also with
    | examined examined =>
      exact ((reordered.examines_iff.1 examined).not_silent silent).elim
    | price => exact ⟨rfl, fun _ => rfl⟩

end Reordered

/-- In a graph without errors every condition compares the value that it examines with its
threshold, else with another value, and never a value with itself.  Where there is a threshold,
another order of the edges from indicators and data sources leaves the comparison, its threshold and
what is read as they are; the whole expression stays the same when the examined node keeps its
names. -/
theorem operands_of_conditions (options : Options) (catalogue : Catalogue) (graph : Graph)
    (valid : (validate catalogue graph).errors = []) :
    ((compile catalogue options graph).success = true →
      (compile catalogue options graph).code =
        (Program.ofPlan options (planWith catalogue graph)).render) ∧
    ∀ placed : Placed, graph.nodes[placed.position]? = some placed.node →
      placed.node.kind = .condition →
        ∃ comparison : Comparison, StatesText placed.node "operator" comparison.name ∧
          ∃ origin left right,
            Comparing catalogue options graph placed comparison origin left right ∧
            ∀ twin, Reordered graph twin placed.node.id →
              ∀ threshold, StatesNumber placed.node "threshold" threshold →
                (validate catalogue twin).errors = [] ∧ right = .number threshold ∧
                  ∃ other, Comparing catalogue options twin placed comparison origin other right ∧
                    ((∀ source output, origin = some (source, output) →
                        (Naming.bind catalogue twin).binding? source.id =
                          (Naming.bind catalogue graph).binding? source.id) →
                      (planWith catalogue twin).conditionExpr placed =
                        (planWith catalogue graph).conditionExpr placed) := by
  refine ⟨code_of_success options valid, fun placed found kind => ?_⟩
  have distinct := (validate_errors_eq_nil_iff.1 valid).distinct
  have accepted := (validate_errors_eq_nil_iff.1 valid).nodes placed.node
    (List.mem_of_getElem? found)
  rw [Validation.NodeAccepted, kind] at accepted
  obtain ⟨comparison, operator⟩ := accepted
  have stated := Graph.text?_eq_some_iff.1 operator
  obtain ⟨origin, comparing⟩ := comparing_of_stated catalogue options distinct found kind stated
  refine ⟨comparison, stated, origin, _, _, comparing, fun twin reordered threshold own => ?_⟩
  have again := reordered.valid valid
  have stands : twin.nodes[placed.position]? = some placed.node := by rwa [reordered.nodes]
  obtain ⟨further, also⟩ := comparing_of_stated catalogue options
    (validate_errors_eq_nil_iff.1 again).distinct stands kind stated
  obtain ⟨rfl, same⟩ := reordered.leftOperand distinct comparing.readsLeft also.readsLeft
  have right (other : Graph) : (planWith catalogue other).rightOperand placed =
      .number threshold := by
    rw [Plan.rightOperand, Graph.number?_eq_some_iff.2 own]
  have threshold : (planWith catalogue twin).rightOperand placed =
      (planWith catalogue graph).rightOperand placed := (right twin).trans (right graph).symm
  refine ⟨again, right graph, _, threshold ▸ also, fun names => ?_⟩
  rw [also.expr, comparing.expr, same names, threshold]
  rfl

/-! ### Two series with one label -/

/-- A condition whose average and data source have the same label, joined by edges in some order. -/
def risingTrend (edges : List Edge) : Graph where
  nodes :=
    [ { id := "rising", kind := .condition, label := "Rising",
        config := [("operator", .string "greater_than"), ("threshold", .integer 100)] },
      { id := "daily", kind := .dataSource, label := "Trend",
        config := [("timeframe", .string "D")] },
      { id := "average", kind := .indicator, label := "Trend",
        config := [("indicatorId", .string "sma"), ("length", .integer 10)] } ]
  edges

def averageFirst : Graph := risingTrend [⟨"e1", "average", "rising"⟩, ⟨"e2", "daily", "rising"⟩]

def dailyFirst : Graph := risingTrend [⟨"e2", "daily", "rising"⟩, ⟨"e1", "average", "rising"⟩]

private theorem valid_averageFirst : (validate builtin averageFirst).errors = [] := by
  refine validate_errors_eq_nil_iff.2 ⟨?_, by decide, ?_, by decide, ?_⟩
  · exact ⟨_, List.mem_cons_of_mem _ List.mem_cons_self, rfl⟩
  · exact Validation.forall_nodeAccepted_iff.2 (by decide +kernel)
  · exact Validation.not_consumes_self_of_rank (fun id => if id = "rising" then 1 else 0)
      (by decide)

private theorem reordered_dailyFirst : Reordered averageFirst dailyFirst "rising" where
  nodes := rfl
  edges := List.Perm.swap _ _ _
  computing := rfl
  dataSources := rfl

private theorem statesNumber_rising : StatesNumber averageFirst.nodes[0] "threshold"
    (Double.ofInt 100) :=
  ⟨.integer 100, rfl, by decide +kernel⟩

theorem operands_of_conditions_averageFirst :
    (validate builtin averageFirst).errors = [] ∧
      Reordered averageFirst dailyFirst "rising" ∧
      ∃ comparison origin left other,
        Comparing builtin {} averageFirst ⟨0, averageFirst.nodes[0]⟩ comparison origin left
            (.number (Double.ofInt 100)) ∧
          Comparing builtin {} dailyFirst ⟨0, averageFirst.nodes[0]⟩ comparison origin other
            (.number (Double.ofInt 100)) := by
  obtain ⟨comparison, -, origin, left, right, comparing, reorder⟩ :=
    (operands_of_conditions {} builtin averageFirst valid_averageFirst).2
      ⟨0, averageFirst.nodes[0]⟩ rfl rfl
  obtain ⟨-, rfl, other, again, -⟩ := reorder dailyFirst reordered_dailyFirst _ statesNumber_rising
  exact ⟨valid_averageFirst, reordered_dailyFirst, comparison, origin, left, other, comparing,
    again⟩

/-- Names are given in resolved order, which follows the order of edges.  Of two nodes with one
label the second is named after its id, so that the name in an expression depends on that order. -/
theorem expr_changes_with_edges :
    (validate builtin averageFirst).errors = [] ∧ (validate builtin dailyFirst).errors = [] ∧
      Reordered averageFirst dailyFirst "rising" ∧
      StatesNumber averageFirst.nodes[0] "threshold" (Double.ofInt 100) ∧
      ((planOf averageFirst).conditionExpr ⟨0, averageFirst.nodes[0]⟩).render = "trend > 100" ∧
      ((planOf dailyFirst).conditionExpr ⟨0, averageFirst.nodes[0]⟩).render =
        "trend_average > 100" :=
  ⟨valid_averageFirst, reordered_dailyFirst.valid valid_averageFirst, reordered_dailyFirst,
    statesNumber_rising, by decide +kernel, by decide +kernel⟩

end StrategyCompiler.Compilation
