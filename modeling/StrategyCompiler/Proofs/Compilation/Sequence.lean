import StrategyCompiler.Proofs.Compilation.Combined
import StrategyCompiler.Proofs.Naming.Coverage
/-!
In what sequence the lines of a script follow the edges of its graph.  The lines of a node stand
behind those of every node in front of it, unless the edge leads from a condition or a session to a
node that produces a value.  No value passes along such an edge, and all calculations stand in front
of the logic.
-/

set_option autoImplicit false

namespace StrategyCompiler.Compilation

open StrategyCompiler.Graph (Index Node Placed)
open Naming (Binding)
open Script (Statement targets targetsOf)
open Validation (validate validate_errors_eq_nil_iff)

variable {graph : Graph} {code : String} {names others : List String}

/-! ### Lines by number -/

def AssignsAt (code name : String) (number : Nat) : Prop :=
  ∃ line, (Text.lines code)[number]? = some line ∧ name ∈ targetsOf line

/-- Every line that assigns one of some names stands in front of every line that assigns one of
others. -/
def Precedes (code : String) (names others : List String) : Prop :=
  ∀ name ∈ names, ∀ other ∈ others, ∀ first second,
    AssignsAt code name first → AssignsAt code other second → first < second

private theorem exists_assignsAt_iff {name : String} :
    (∃ number, AssignsAt code name number) ↔ name ∈ targets code := by
  rw [targets, List.mem_flatMap]
  constructor
  · rintro ⟨number, line, stands, assigns⟩
    exact ⟨line, List.mem_of_getElem? stands, assigns⟩
  · rintro ⟨line, member, assigns⟩
    obtain ⟨number, stands⟩ := List.mem_iff_getElem?.1 member
    exact ⟨number, line, stands, assigns⟩

section Once

variable (once : (targets code).Nodup)
include once

theorem AssignsAt.unique {name : String} {number other : Nat} (here : AssignsAt code name number)
    (there : AssignsAt code name other) : number = other := by
  obtain ⟨line, stands, assigns⟩ := here
  obtain ⟨twin, also, assigned⟩ := there
  obtain ⟨inside, rfl⟩ := List.getElem?_eq_some_iff.1 stands
  obtain ⟨within, rfl⟩ := List.getElem?_eq_some_iff.1 also
  have apart := List.pairwise_iff_getElem.1 (List.nodup_flatMap.1 once).2
  rcases Nat.lt_trichotomy number other with lower | same | higher
  · exact absurd assigned (apart number other inside within lower assigns)
  · exact same
  · exact absurd assigns (apart other number within inside higher assigned)

private theorem existsUnique_assignsAt {name : String} (member : name ∈ targets code) :
    ∃! number, AssignsAt code name number := by
  obtain ⟨number, assigns⟩ := exists_assignsAt_iff.2 member
  exact ⟨number, assigns, fun other also => also.unique once assigns⟩

private theorem precedes_of_cut {front back : List String} (cut : Text.lines code = front ++ back)
    (inFront : ∀ name ∈ names, name ∈ front.flatMap targetsOf)
    (behind : ∀ name ∈ others, name ∈ back.flatMap targetsOf) :
    Precedes code names others := by
  intro name own other also first second here there
  obtain ⟨line, member, assigns⟩ := List.mem_flatMap.1 (inFront name own)
  obtain ⟨twin, listed, assigned⟩ := List.mem_flatMap.1 (behind other also)
  obtain ⟨number, inside, rfl⟩ := List.mem_iff_getElem.1 member
  obtain ⟨offset, within, rfl⟩ := List.mem_iff_getElem.1 listed
  have early : AssignsAt code name number := by
    refine ⟨_, ?_, assigns⟩
    rw [cut, List.getElem?_append_left inside, List.getElem?_eq_getElem inside]
  have late : AssignsAt code other (front.length + offset) := by
    refine ⟨_, ?_, assigned⟩
    rw [cut, List.getElem?_append_right (Nat.le_add_right _ _), Nat.add_sub_cancel_left,
      List.getElem?_eq_getElem within]
  have one := here.unique once early
  have two := there.unique once late
  omega

end Once

/-! ### Cuts through programs -/

private theorem exists_orComment_cut (text : String) (front back : List Statement) :
    ∃ before after : List Line,
      Line.orComment text ((front ++ back).map .statement) = before ++ after ∧
        assignedIn before = front.flatMap Statement.assigned ∧
        assignedIn after = back.flatMap Statement.assigned := by
  by_cases empty : front ++ back = []
  · obtain ⟨rfl, rfl⟩ := List.append_eq_nil_iff.1 empty
    exact ⟨[.comment text], [], rfl, rfl, rfl⟩
  · refine ⟨front.map .statement, back.map .statement, ?_, assignedIn_statements front,
      assignedIn_statements back⟩
    rw [← List.map_append, Line.orComment, if_neg]
    simpa using empty

private theorem Program.exists_cut (program : Program) {front back : List Statement}
    (cut : program.calculations ++ program.definitions = front ++ back) :
    ∃ before after, program.lines = before ++ after ∧
      (∀ name ∈ front.flatMap Statement.assigned, name ∈ assignedIn before) ∧
      ∀ name ∈ back.flatMap Statement.assigned, name ∈ assignedIn after := by
  obtain ⟨header, headed⟩ : ∃ header, program.leadingLines =
      header ++ Line.orComment "Price series are used directly"
          (program.calculations.map .statement) ++
        Line.banner "Strategy Logic" ++ program.definitions.map .statement := ⟨_, rfl⟩
  rcases List.append_eq_append_iff.1 cut with ⟨middle, rfl, defined⟩ | ⟨middle, calculated, rfl⟩
  · -- The cut is among the definitions.
    refine ⟨header ++ Line.orComment "Price series are used directly"
        (program.calculations.map .statement) ++ Line.banner "Strategy Logic" ++
          middle.map .statement,
      back.map .statement ++ program.combinedLines ++ program.closingLines, ?_, ?_, ?_⟩
    · rw [Program.lines_around, headed, defined, List.map_append]
      simp only [List.append_assoc]
    · intro name member
      rw [List.flatMap_append] at member
      simp only [assignedIn_append, assignedIn_orComment, assignedIn_statements, List.mem_append]
        at member ⊢
      tauto
    · intro name member
      simp only [assignedIn_append, assignedIn_statements, List.mem_append]
      exact .inl (.inl member)
  · -- The cut is among the calculations.
    obtain ⟨before, after, sectioned, early, late⟩ :=
      exists_orComment_cut "Price series are used directly" front middle
    refine ⟨header ++ before,
      after ++ Line.banner "Strategy Logic" ++ program.definitions.map .statement ++
        program.combinedLines ++ program.closingLines, ?_, ?_, ?_⟩
    · rw [Program.lines_around, headed, calculated, sectioned]
      simp only [List.append_assoc]
    · intro name member
      rw [assignedIn_append, early]
      exact List.mem_append_right _ member
    · intro name member
      rw [List.flatMap_append] at member
      simp only [assignedIn_append, assignedIn_statements, late, List.mem_append] at member ⊢
      tauto

/-! ### Names of nodes -/

def valueNames (table : Naming.Table) (id : String) : List String :=
  ((table.binding? id).map Binding.identifiers).getD []

private theorem mem_identifiers_of_mem_valueNames {table : Naming.Table} {id name : String}
    (own : name ∈ valueNames table id) : name ∈ table.identifiers := by
  unfold valueNames Naming.Table.binding? at own
  cases found : table.entry? id with
  | none => simp [found] at own
  | some entry =>
    rw [found] at own
    exact List.mem_flatMap.2
      ⟨entry, List.mem_of_find?_eq_some found, List.mem_append_right _ own⟩

private theorem valueNames_eq_boundAt (distinct : (graph.nodes.map Node.id).Nodup) {placed : Placed}
    (found : graph.nodes[placed.position]? = some placed.node) :
    valueNames (Naming.bind Catalogue.builtin graph) placed.node.id =
      boundAt (Naming.bind Catalogue.builtin graph) placed.position := by
  rw [valueNames, binding?_bind distinct found, boundAt]

/-- A node that has no variable: an action, a risk node, or a data source that reads its series
directly. -/
def Unnamed (node : Node) : Prop :=
  node.kind = .action ∨ node.kind = .risk ∨
    node.kind = .dataSource ∧ node.text? "timeframe" = none

private theorem unnamed_iff {node : Node} :
    Unnamed node ↔ Naming.namedOutputs? Catalogue.builtin node = none := by
  rw [Naming.namedOutputs?_eq_none_iff, ← Naming.isSome_timeframe_iff,
    Option.not_isSome_iff_eq_none, Unnamed]

private theorem valueNames_eq_nil_iff (distinct : (graph.nodes.map Node.id).Nodup) {node : Node}
    (member : node ∈ graph.nodes) :
    valueNames (Naming.bind Catalogue.builtin graph) node.id = [] ↔ Unnamed node := by
  obtain ⟨position, stands⟩ := List.mem_iff_getElem?.1 member
  obtain ⟨placed, rfl, found⟩ : ∃ placed : Placed,
      placed.node = node ∧ graph.nodes[placed.position]? = some placed.node :=
    ⟨⟨position, node⟩, rfl, stands⟩
  rw [valueNames_eq_boundAt distinct found, unnamed_iff, boundAt]
  cases named : Naming.namedOutputs? Catalogue.builtin placed.node with
  | none => simp [bindingAt?_eq_none found named]
  | some outputs =>
    obtain ⟨earlier, bound⟩ := exists_binding found named
    have several : 0 < (Naming.bindNode earlier placed.node outputs).identifiers.length := by
      rw [Naming.identifiers_bindNode, length_expand, boundCount]
      split
      · exact Nat.one_pos
      · rename_i some
        exact List.length_pos_iff.2 (by simpa using some)
    simp [bound, List.length_pos_iff.1 several]

/-- The source produces no value and the target does: nothing is read along an edge between
them. -/
def Crosswise (source target : Node) : Prop :=
  source.kind.producesValue = false ∧ target.kind.producesValue = true

section Valid

variable (options : Options) (valid : (validate Catalogue.builtin graph).errors = [])
include valid

private theorem nodup_targets : (targets (compile Catalogue.builtin options graph).code).Nodup := by
  obtain ⟨-, -, code⟩ := compile_of_valid options valid
  rw [code]
  exact (targets_perm options regular_builtin valid).nodup_iff.2
    (nodup_identifiers_combined options regular_builtin)

private theorem precedes_of_statements {front back : List Statement}
    (cut : (planOf graph).calculations ++ (planOf graph).definitions = front ++ back)
    (inFront : ∀ name ∈ names, name ∈ front.flatMap Statement.assigned)
    (behind : ∀ name ∈ others, name ∈ back.flatMap Statement.assigned) :
    Precedes (compile Catalogue.builtin options graph).code names others := by
  obtain ⟨before, after, lines, early, late⟩ :=
    Program.exists_cut (.ofPlan options (planOf graph)) cut
  have once := nodup_targets options valid
  have reads := targetsOf_lines graph (flatTexts_of_regular regular_builtin) options
  have texts := lines_render_of_flat graph (flatTexts_of_regular regular_builtin) options
  obtain ⟨-, -, code⟩ := compile_of_valid options valid
  have same : Program.ofPlan options (planWith Catalogue.builtin graph) =
      .ofPlan options (planOf graph) := rfl
  rw [same, lines, List.forall_mem_append] at reads
  rw [same, lines, List.map_append, ← code] at texts
  refine precedes_of_cut once texts (fun name own => ?_) fun name own => ?_
  · rw [List.flatMap_map, List.flatMap_congr reads.1]
    exact early name (inFront name own)
  · rw [List.flatMap_map, List.flatMap_congr reads.2]
    exact late name (behind name own)

/-! ### Lines of nodes -/

private theorem calculations_eq_boundAt {placed : Placed}
    (found : graph.nodes[placed.position]? = some placed.node)
    (produces : placed.node.kind.producesValue = true) :
    ((planOf graph).calculationsOf placed).flatMap Statement.assigned =
      boundAt (Naming.bind Catalogue.builtin graph) placed.position := by
  have all := assigned_node valid templated_builtin found
  rw [Plan.definition?_eq_none _ produces] at all
  exact (List.append_nil _).symm.trans all

private theorem definition_eq_boundAt {placed : Placed}
    (found : graph.nodes[placed.position]? = some placed.node)
    (silent : placed.node.kind.producesValue = false) :
    ((planOf graph).definition? placed).toList.flatMap Statement.assigned =
      boundAt (Naming.bind Catalogue.builtin graph) placed.position := by
  have all := assigned_node valid templated_builtin found
  rw [Plan.calculationsOf_eq_nil _ silent] at all
  exact all

/-- The names of a node that produces a value are assigned by the calculations of every part of the
order that it stands in. -/
private theorem assigned_in_calculations {part : List Placed} {placed : Placed}
    (member : placed ∈ part)
    (found : graph.nodes[placed.position]? = some placed.node)
    (produces : placed.node.kind.producesValue = true) :
    ∀ name ∈ boundAt (Naming.bind Catalogue.builtin graph) placed.position,
      name ∈ (part.flatMap (planOf graph).calculationsOf).flatMap Statement.assigned := by
  intro name own
  rw [← calculations_eq_boundAt valid found produces] at own
  rw [List.flatMap_assoc]
  exact List.mem_flatMap.2 ⟨placed, member, own⟩

/-- The names of a node that produces no value are assigned by the definitions of every part of the
order that it stands in. -/
private theorem assigned_in_definitions {part : List Placed} {placed : Placed}
    (member : placed ∈ part)
    (found : graph.nodes[placed.position]? = some placed.node)
    (silent : placed.node.kind.producesValue = false) :
    ∀ name ∈ boundAt (Naming.bind Catalogue.builtin graph) placed.position,
      name ∈ (part.filterMap (planOf graph).definition?).flatMap Statement.assigned := by
  intro name own
  rw [← definition_eq_boundAt valid found silent] at own
  rw [flatMap_filterMap]
  exact List.mem_flatMap.2 ⟨placed, member, own⟩

/-! ### Edges -/

private theorem precedes_along {before after : List Placed} {source placed : Placed}
    (order : (planOf graph).order = before ++ placed :: after) (earlier : source ∈ before)
    (straight : ¬ Crosswise source.node placed.node) :
    Precedes (compile Catalogue.builtin options graph).code
      (boundAt (Naming.bind Catalogue.builtin graph) source.position)
      (boundAt (Naming.bind Catalogue.builtin graph) placed.position) := by
  have inside : source ∈ (planOf graph).order := order ▸ List.mem_append_left _ earlier
  have listed : placed ∈ (planOf graph).order :=
    order ▸ List.mem_append_right _ List.mem_cons_self
  have found := mem_order_planOf.1 inside
  have there := mem_order_planOf.1 listed
  cases target : placed.node.kind.producesValue with
  | false =>
    -- The definitions are cut in front of the target; all calculations stand in front of them.
    have cut : (planOf graph).calculations ++ (planOf graph).definitions =
        ((planOf graph).calculations ++ before.filterMap (planOf graph).definition?) ++
          (placed :: after).filterMap (planOf graph).definition? := by
      rw [Plan.definitions_eq, order, List.filterMap_append, List.append_assoc]
    refine precedes_of_statements options valid cut (fun name own => ?_)
      (assigned_in_definitions valid List.mem_cons_self there target)
    rw [List.flatMap_append]
    cases value : source.node.kind.producesValue with
    | true =>
      exact List.mem_append_left _ (assigned_in_calculations valid inside found value name own)
    | false =>
      exact List.mem_append_right _ (assigned_in_definitions valid earlier found value name own)
  | true =>
    -- The calculations are cut in front of the target.
    have value : source.node.kind.producesValue = true := by
      cases source : source.node.kind.producesValue with
      | true => rfl
      | false => exact absurd ⟨source, target⟩ straight
    have cut : (planOf graph).calculations ++ (planOf graph).definitions =
        before.flatMap (planOf graph).calculationsOf ++
          ((placed :: after).flatMap (planOf graph).calculationsOf ++
            (planOf graph).definitions) := by
      rw [Plan.calculations, order, List.flatMap_append, List.append_assoc]
    refine precedes_of_statements options valid cut
      (assigned_in_calculations valid earlier found value) fun name own => ?_
    rw [List.flatMap_append]
    exact List.mem_append_left _
      (assigned_in_calculations valid List.mem_cons_self there target name own)

private theorem precedes_crosswise {source placed : Placed} (inside : source ∈ (planOf graph).order)
    (listed : placed ∈ (planOf graph).order) (crosswise : Crosswise source.node placed.node) :
    Precedes (compile Catalogue.builtin options graph).code
      (boundAt (Naming.bind Catalogue.builtin graph) placed.position)
      (boundAt (Naming.bind Catalogue.builtin graph) source.position) := by
  obtain ⟨silent, produces⟩ := crosswise
  exact precedes_of_statements options valid rfl
    (assigned_in_calculations valid listed (mem_order_planOf.1 listed) produces)
    (assigned_in_definitions valid inside (mem_order_planOf.1 inside) silent)

private theorem mem_targets_of_mem_valueNames {id name : String}
    (own : name ∈ valueNames (Naming.bind Catalogue.builtin graph) id) :
    name ∈ targets (compile Catalogue.builtin options graph).code := by
  obtain ⟨-, -, code⟩ := compile_of_valid options valid
  rw [code]
  refine (targets_perm options regular_builtin valid).mem_iff.2 (List.mem_append_left _ ?_)
  exact mem_identifiers_of_mem_valueNames own

private theorem exists_ends {edge : Graph.Edge} (member : edge ∈ graph.edges) :
    ∃ before source placed after, (planOf graph).order = before ++ placed :: after ∧
      source ∈ before ∧ source.node.id = edge.source ∧ placed.node.id = edge.target := by
  have accepted := validate_errors_eq_nil_iff.1 valid
  obtain ⟨⟨source, drawn, begins⟩, target, reached, ends⟩ := accepted.edges edge member
  obtain ⟨first, found⟩ := List.mem_iff_getElem?.1 drawn
  obtain ⟨second, there⟩ := List.mem_iff_getElem?.1 reached
  have listed : (⟨second, target⟩ : Placed) ∈ (planOf graph).order := mem_order_planOf.2 there
  obtain ⟨before, after, order⟩ := List.append_of_mem listed
  refine ⟨before, ⟨first, source⟩, ⟨second, target⟩, after, order, ?_, begins, ends⟩
  refine Index.placed_before (Validation.cycle?_of_valid valid) order (Index.mem_placed.2 ⟨?_, ?_⟩)
  · refine Index.mem_dependencies_ofGraph.2 ⟨edge, member, ?_, ?_⟩
    · exact (Graph.position?_eq_some_iff_of_nodup accepted.distinct).2 ⟨source, found, begins⟩
    · exact (Graph.position?_eq_some_iff_of_nodup accepted.distinct).2 ⟨target, there, ends⟩
  · rw [Index.node?, Index.ofGraph_graph]
    exact found

/-- Along an edge the lines of the source precede those of the target, unless the two are
crosswise: then the lines of the target come first. -/
private theorem precedes_of_mem_edges {edge : Graph.Edge} (member : edge ∈ graph.edges) :
    ∃ source target,
      graph.node? edge.source = some source ∧ graph.node? edge.target = some target ∧
        (¬ Crosswise source target →
          Precedes (compile Catalogue.builtin options graph).code
            (valueNames (Naming.bind Catalogue.builtin graph) source.id)
            (valueNames (Naming.bind Catalogue.builtin graph) target.id)) ∧
        (Crosswise source target →
          Precedes (compile Catalogue.builtin options graph).code
            (valueNames (Naming.bind Catalogue.builtin graph) target.id)
            (valueNames (Naming.bind Catalogue.builtin graph) source.id)) := by
  have distinct := (validate_errors_eq_nil_iff.1 valid).distinct
  obtain ⟨before, source, target, after, order, earlier, begins, ends⟩ := exists_ends valid member
  have inside : source ∈ (planOf graph).order := order ▸ List.mem_append_left _ earlier
  have listed : target ∈ (planOf graph).order :=
    order ▸ List.mem_append_right _ List.mem_cons_self
  have found := mem_order_planOf.1 inside
  have there := mem_order_planOf.1 listed
  refine ⟨source.node, target.node, ?_, ?_, fun straight => ?_, fun crosswise => ?_⟩
  · rw [← begins]
    exact Graph.node?_of_getElem? distinct found
  · rw [← ends]
    exact Graph.node?_of_getElem? distinct there
  · rw [valueNames_eq_boundAt distinct found, valueNames_eq_boundAt distinct there]
    exact precedes_along options valid order earlier straight
  · rw [valueNames_eq_boundAt distinct found, valueNames_eq_boundAt distinct there]
    exact precedes_crosswise options valid inside listed crosswise

end Valid

/-- The names of every node that has a variable are assigned on one line each.  Along an edge the
lines of the source precede those of the target, unless the two are crosswise: then the lines of the
target come first. -/
theorem lines_along_edges (options : Options) (graph : Graph)
    (valid : (validate Catalogue.builtin graph).errors = []) :
    (∀ node ∈ graph.nodes,
        (valueNames (Naming.bind Catalogue.builtin graph) node.id = [] ↔ Unnamed node) ∧
          ∀ name ∈ valueNames (Naming.bind Catalogue.builtin graph) node.id,
            ∃! number, AssignsAt (compile Catalogue.builtin options graph).code name number) ∧
      ∀ edge ∈ graph.edges, ∃ source target,
        graph.node? edge.source = some source ∧ graph.node? edge.target = some target ∧
          (¬ Crosswise source target →
            Precedes (compile Catalogue.builtin options graph).code
              (valueNames (Naming.bind Catalogue.builtin graph) source.id)
              (valueNames (Naming.bind Catalogue.builtin graph) target.id)) ∧
          (Crosswise source target →
            Precedes (compile Catalogue.builtin options graph).code
              (valueNames (Naming.bind Catalogue.builtin graph) target.id)
              (valueNames (Naming.bind Catalogue.builtin graph) source.id)) := by
  have distinct := (validate_errors_eq_nil_iff.1 valid).distinct
  refine ⟨fun node member => ⟨valueNames_eq_nil_iff distinct member, fun name own => ?_⟩,
    fun edge member => precedes_of_mem_edges options valid member⟩
  exact existsUnique_assignsAt (nodup_targets options valid)
    (mem_targets_of_mem_valueNames options valid own)

theorem lines_along_edges_averageCrossing :
    (validate Catalogue.builtin averageCrossing).errors = [] ∧
      (∃! number, AssignsAt (compile Catalogue.builtin {} averageCrossing).code "fast" number) ∧
      Precedes (compile Catalogue.builtin {} averageCrossing).code ["fast"] ["crossing"] := by
  obtain ⟨nodes, edges⟩ := lines_along_edges {} averageCrossing valid_averageCrossing
  have fast : valueNames (Naming.bind Catalogue.builtin averageCrossing) "fast" = ["fast"] := by
    decide +kernel
  have crossing :
      valueNames (Naming.bind Catalogue.builtin averageCrossing) "crossing" = ["crossing"] := by
    decide +kernel
  obtain ⟨source, target, begins, ends, straight, -⟩ :=
    edges ⟨"e3", "fast", "crossing"⟩ (by decide)
  obtain rfl := Option.some.inj begins
  obtain rfl := Option.some.inj ends
  refine ⟨valid_averageCrossing, ?_, ?_⟩
  · refine (nodes _ (List.mem_of_getElem? (i := 4) rfl)).2 "fast" ?_
    exact fast ▸ List.mem_cons_self
  · have along := straight fun crosswise => absurd crosswise.1 (by decide)
    rw [fast, crossing] at along
    exact along

/-! ### An average behind a condition -/

/-- A strategy with an edge from a condition to a moving average, along which no value passes. -/
def gatedAverage : Graph where
  nodes :=
    [ { id := "price", kind := .dataSource, label := "" },
      { id := "signal", kind := .condition, label := "Signal",
        config := [("operator", .string "greater_than"), ("threshold", .integer 100)] },
      { id := "average", kind := .indicator, label := "Average",
        config := [("indicatorId", .string "sma"), ("length", .integer 10)] } ]
  edges :=
    [ ⟨"e1", "price", "signal"⟩, ⟨"e2", "price", "average"⟩, ⟨"e3", "signal", "average"⟩ ]

private theorem valid_gatedAverage : (validate Catalogue.builtin gatedAverage).errors = [] := by
  refine validate_errors_eq_nil_iff.2 ⟨?_, by decide, ?_, by decide, ?_⟩
  · exact ⟨_, List.mem_cons_self, rfl⟩
  · exact Validation.forall_nodeAccepted_iff.2 (by decide +kernel)
  · exact Validation.not_consumes_self_of_rank
      (fun id => if id = "price" then 0 else if id = "signal" then 1 else 2) (by decide)

/-- The line of the condition stands behind that of the average it has an edge to. -/
theorem signal_behind_average :
    (validate Catalogue.builtin gatedAverage).errors = [] ∧
      ⟨"e3", "signal", "average"⟩ ∈ gatedAverage.edges ∧
      valueNames (Naming.bind Catalogue.builtin gatedAverage) "signal" = ["signal"] ∧
      valueNames (Naming.bind Catalogue.builtin gatedAverage) "average" = ["average"] ∧
      ∃ first second,
        AssignsAt (compile Catalogue.builtin {} gatedAverage).code "signal" first ∧
          AssignsAt (compile Catalogue.builtin {} gatedAverage).code "average" second ∧
          second < first := by
  have signal : valueNames (Naming.bind Catalogue.builtin gatedAverage) "signal" = ["signal"] := by
    decide +kernel
  have average :
      valueNames (Naming.bind Catalogue.builtin gatedAverage) "average" = ["average"] := by
    decide +kernel
  have edge : (⟨"e3", "signal", "average"⟩ : Graph.Edge) ∈ gatedAverage.edges := by decide
  obtain ⟨source, target, begins, ends, -, crosswise⟩ :=
    precedes_of_mem_edges {} valid_gatedAverage edge
  obtain rfl := Option.some.inj begins
  obtain rfl := Option.some.inj ends
  have behind := crosswise ⟨rfl, rfl⟩
  obtain ⟨first, here⟩ := exists_assignsAt_iff.2
    (mem_targets_of_mem_valueNames {} valid_gatedAverage (signal ▸ List.mem_cons_self))
  obtain ⟨second, there⟩ := exists_assignsAt_iff.2
    (mem_targets_of_mem_valueNames {} valid_gatedAverage (average ▸ List.mem_cons_self))
  rw [signal, average] at behind
  refine ⟨valid_gatedAverage, edge, signal, average, first, second, here, there, ?_⟩
  exact behind "average" List.mem_cons_self "signal" List.mem_cons_self second first there here

end StrategyCompiler.Compilation
