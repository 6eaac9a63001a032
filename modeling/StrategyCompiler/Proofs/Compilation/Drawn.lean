import StrategyCompiler.Proofs.Compilation.Wiring
/-!
What a script draws.  With every catalogue whose texts stand on one line, the plots section holds
the plots of the indicators that are not hidden, in dependency order and with the reference lines of
each behind its plots.  Colors are taken in turn over the whole script.  The price is drawn where no
indicator is, and a combined condition is marked where it is assigned.
-/

set_option autoImplicit false

namespace StrategyCompiler.Compilation

open Catalogue (ReferenceLine Signature builtin)
open StrategyCompiler.Graph (Node Placed)
open Naming (Binding)
open Script (Call Statement literal targets)
open Validation (validate validate_errors_eq_nil_iff)

/-- The lines of the plots section of a text: those behind its banner. -/
def plotSection (code : String) : List String :=
  ((Text.lines code).dropWhile fun line => line != "// PLOTS").drop 2

def drawn (catalogue : Catalogue) (graph : Graph) : List (Node × Signature) :=
  (resolved graph).filterMap fun node =>
    ((Naming.signatureOf? catalogue node).filter fun signature => !signature.plot.hidden).map
      fun signature => (node, signature)

/-- The series that show a node: one for each name bound to it, in columns for the outputs that its
signature lists. -/
def shownBy (catalogue : Catalogue) (graph : Graph) (node : Node) (signature : Signature) :
    List Series :=
  let label := Plan.displayLabel node signature
  match (Naming.bind catalogue graph).binding? node.id with
  | some (.single name) => [{ title := label, name, columns := false }]
  | some (.tuple outputs) => outputs.map fun output =>
    { title := label ++ " " ++ output.1, name := output.2,
      columns := decide (output.1 ∈ signature.plot.columns) }
  | none => []

def shown (catalogue : Catalogue) (graph : Graph) : List Series :=
  (drawn catalogue graph).flatMap fun (node, signature) => shownBy catalogue graph node signature

/-- The line that plots a series, when a number of plots stands in front of it. -/
def plotText (number : Nat) (series : Series) : String :=
  "plot(" ++ series.name ++ ", title=" ++ literal series.title ++ ", color=" ++
    palette.getD (number % 8) "" ++
    (if series.columns then ", style=plot.style_columns" else "") ++ ")"

def referenceText (reference : ReferenceLine) : String :=
  "hline(" ++ reference.level.typed ++ ", title=" ++ literal reference.title ++ ", color=" ++
    reference.color ++ ", linestyle=hline.style_dashed)"

def priceText : String := "plot(close, title=\"Price\", color=color.blue)"

def entryText : String :=
  "plotshape(entry_condition, title=\"Entry Signal\", location=location.belowbar, " ++
    "color=color.green, style=shape.triangleup, size=size.small)"

def exitText : String :=
  "plotshape(exit_condition, title=\"Exit Signal\", location=location.abovebar, " ++
    "color=color.red, style=shape.triangledown, size=size.small)"

variable {catalogue : Catalogue} {graph : Graph}

/-! ### The text of calls -/

private theorem render_plotCall (number : Nat) (series : Series) :
    (plotCall number series).render = plotText number series := by
  have color : colorOf number = palette.getD (number % 8) "" := List.getD_eq_getElem?_getD.symm
  rw [plotText, ← color]
  cases columns : series.columns with
  | true =>
    have shape : (plotCall number series).render =
        "plot" ++ "(" ++ (series.name ++ ", " ++ ("title" ++ "=" ++ literal series.title) ++ ", " ++
          ("color" ++ "=" ++ colorOf number) ++ ", " ++
          ("style" ++ "=" ++ "plot.style_columns")) ++ ")" := by
      simp only [plotCall, columns, if_true]
      rfl
    rw [shape]
    simp [← String.toList_inj]
  | false =>
    have shape : (plotCall number series).render =
        "plot" ++ "(" ++ (series.name ++ ", " ++ ("title" ++ "=" ++ literal series.title) ++ ", " ++
          ("color" ++ "=" ++ colorOf number)) ++ ")" := by
      simp only [plotCall, columns]
      rfl
    rw [shape]
    simp [← String.toList_inj]

private theorem render_referenceCall (reference : ReferenceLine) :
    (referenceCall reference).render = referenceText reference := by
  have shape : (referenceCall reference).render =
      "hline" ++ "(" ++ (reference.level.typed ++ ", " ++
        ("title" ++ "=" ++ literal reference.title) ++ ", " ++
        ("color" ++ "=" ++ reference.color) ++ ", " ++
        ("linestyle" ++ "=" ++ "hline.style_dashed")) ++ ")" := rfl
  rw [shape, referenceText]
  simp [← String.toList_inj]

private theorem render_pricePlot : pricePlot.render = priceText := by decide

private theorem render_entryMarker : entryMarker.render = entryText := by decide

private theorem render_exitMarker : exitMarker.render = exitText := by decide

/-! ### The plots of indicators -/

private theorem map_render_plotCalls (number : Nat) (series : List Series) :
    (plotCalls number series).map Call.render =
      series.mapIdx fun index => plotText (number + index) := by
  induction series generalizing number with
  | nil => rfl
  | cons own rest ih =>
    rw [plotCalls, List.map_cons, ih, render_plotCall, List.mapIdx_cons]
    simp only [Nat.add_zero, Nat.add_assoc, Nat.add_comm 1]

/-- The plots of some indicators, cut into those of each one: they are numbered through, and behind
those of each one stand its reference lines. -/
private theorem exists_plots (plan : Plan) (number : Nat) (indicators : List (Placed × Signature)) :
    ∃ plots : List (List String),
      plots.flatten =
        (indicators.flatMap fun (placed, signature) => plan.series placed signature).mapIdx
          (fun index => plotText (number + index)) ∧
      plots.map List.length =
        indicators.map (fun (placed, signature) => (plan.series placed signature).length) ∧
      (plan.indicatorPlotsFrom number indicators).map Call.render =
        (List.zipWith (fun own references => own ++ references) plots
          (indicators.map fun (placed, signature) =>
            (plan.references placed signature).map referenceText)).flatten := by
  induction indicators generalizing number with
  | nil => exact ⟨[], rfl, rfl, rfl⟩
  | cons indicator rest ih =>
    obtain ⟨placed, signature⟩ := indicator
    obtain ⟨plots, flat, lengths, whole⟩ := ih (number + (plan.series placed signature).length)
    refine ⟨(plotCalls number (plan.series placed signature)).map Call.render :: plots, ?_, ?_, ?_⟩
    · rw [List.flatten_cons, flat, map_render_plotCalls, List.flatMap_cons, List.mapIdx_append]
      simp only [Nat.add_assoc, Nat.add_comm (plan.series placed signature).length]
    · rw [List.map_cons, lengths, map_render_plotCalls, List.length_mapIdx, List.map_cons]
    · have references : (plan.references placed signature).map (Call.render ∘ referenceCall) =
          (plan.references placed signature).map referenceText :=
        List.map_congr_left fun reference _ => render_referenceCall reference
      rw [Plan.indicatorPlotsFrom, List.map_append, List.map_append, whole, List.map_map,
        references, List.map_cons, List.zipWith_cons_cons, List.flatten_cons]

section Hidden

variable {signature : Signature} (hidden : signature.plot.hidden = true)
include hidden

private theorem series_of_hidden (plan : Plan) (placed : Placed) : plan.series placed signature =
    [] := by
  unfold Plan.series
  cases plan.names.bindingAt? placed.position <;> simp [hidden]

private theorem references_of_hidden (plan : Plan) (placed : Placed) :
    plan.references placed signature = [] := by
  unfold Plan.references
  cases plan.names.bindingAt? placed.position <;> simp [hidden]

end Hidden

def Plan.visible (plan : Plan) : List (Placed × Signature) :=
  plan.indicators.filter fun indicator => !indicator.2.plot.hidden

private theorem indicatorPlotsFrom_filter (plan : Plan) (number : Nat)
    (indicators : List (Placed × Signature)) :
    plan.indicatorPlotsFrom number indicators =
      plan.indicatorPlotsFrom number
        (indicators.filter fun indicator => !indicator.2.plot.hidden) := by
  induction indicators generalizing number with
  | nil => rfl
  | cons indicator rest ih =>
    obtain ⟨placed, signature⟩ := indicator
    cases hidden : signature.plot.hidden with
    | false => simp [Plan.indicatorPlotsFrom, hidden, ← ih]
    | true =>
      simp [Plan.indicatorPlotsFrom, hidden, series_of_hidden, references_of_hidden, plotCalls,
        ← ih]

private theorem allSeries_eq (plan : Plan) :
    plan.allSeries =
      plan.visible.flatMap fun (placed, signature) => plan.series placed signature := by
  unfold Plan.allSeries Plan.visible
  induction plan.indicators with
  | nil => rfl
  | cons indicator rest ih =>
    obtain ⟨placed, signature⟩ := indicator
    cases hidden : signature.plot.hidden with
    | false => simp [hidden, ih]
    | true => simp [hidden, series_of_hidden, ih]

private theorem drawn_eq :
    drawn catalogue graph = (planWith catalogue graph).visible.map
      fun (placed, signature) => (placed.node, signature) := by
  rw [drawn, resolved, List.filterMap_map, Plan.visible, Plan.indicators, List.filter_filterMap,
    List.map_filterMap, catalogue_planWith]
  refine List.filterMap_congr fun placed _ => ?_
  rw [Function.comp_apply, Option.filter_map, Option.map_map]
  rfl

private theorem bound_of_visible {placed : Placed} {signature : Signature}
    (visible : (placed, signature) ∈ (planWith catalogue graph).visible) :
    graph.nodes[placed.position]? = some placed.node ∧ signature.plot.hidden = false ∧
      ∃ earlier, (Naming.bind catalogue graph).bindingAt? placed.position =
        some (Naming.bindNode earlier placed.node signature.outputs.names) := by
  obtain ⟨indicator, unhidden⟩ := List.mem_filter.1 visible
  obtain ⟨own, ordered, found⟩ := List.mem_filterMap.1 indicator
  obtain ⟨also, selected, same⟩ := Option.map_eq_some_iff.1 found
  obtain ⟨rfl, rfl⟩ : own = placed ∧ also = signature := Prod.mk.inj same
  rw [catalogue_planWith] at selected
  have there := Naming.mem_namingOrder.1 ordered
  refine ⟨there, ?_, exists_binding there (namedOutputs?_of_signatureOf? selected)⟩
  simpa using unhidden

section Distinct

variable (distinct : (graph.nodes.map Node.id).Nodup)
include distinct

private theorem series_of_visible {placed : Placed} {signature : Signature}
    (visible : (placed, signature) ∈ (planWith catalogue graph).visible) :
    (planWith catalogue graph).series placed signature =
        shownBy catalogue graph placed.node signature ∧
      (planWith catalogue graph).references placed signature = signature.plot.referenceLines := by
  obtain ⟨there, plain, earlier, bound⟩ := bound_of_visible visible
  unfold Plan.series Plan.references shownBy
  rw [binding?_bind distinct there, names_planWith, bound, plain]
  refine ⟨?_, rfl⟩
  cases Naming.bindNode earlier placed.node signature.outputs.names with
  | single name => rfl
  | tuple outputs => simp [seriesFor]

end Distinct

/-! ### Assigned conditions -/

private theorem assigned_subset_primary {position : Nat} {binding : Binding}
    (bound : (planWith catalogue graph).names.bindingAt? position = some binding) {name : String}
    (assigns : name ∈ [binding.primary]) : name ∈ (Naming.bind catalogue graph).identifiers := by
  rw [List.mem_singleton.1 assigns]
  exact mem_identifiers_of_bindingAt? bound (primary_mem_of_bind bound)

private theorem assigned_subset_indicatorLines {placed : Placed} {statement : Statement}
    (member : statement ∈ (planWith catalogue graph).indicatorLines placed) :
    ∀ name ∈ statement.assigned, name ∈ (Naming.bind catalogue graph).identifiers := by
  intro name assigns
  unfold Plan.indicatorLines at member
  split at member
  · rename_i signature binding selected bound
    dsimp only at member
    split at member
    · obtain rfl := List.mem_singleton.1 member
      have own : name ∈ (targetOf binding).names := assigns
      rw [targetOf_names] at own
      exact mem_identifiers_of_bindingAt? bound own
    · rw [← List.map_uncurry_zip_eq_zipWith] at member
      obtain ⟨⟨text, own⟩, pair, rfl⟩ := List.mem_map.1 member
      rw [List.mem_singleton.1 assigns]
      exact mem_identifiers_of_bindingAt? bound (List.of_mem_zip pair).2
  · exact absurd member List.not_mem_nil

private theorem assigned_subset_calculations {statement : Statement}
    (member : statement ∈ (planWith catalogue graph).calculations) :
    ∀ name ∈ statement.assigned, name ∈ (Naming.bind catalogue graph).identifiers := by
  obtain ⟨placed, -, inside⟩ := List.mem_flatMap.1 member
  unfold Plan.calculationsOf at inside
  split at inside
  · have line := Option.mem_toList.1 inside
    unfold Plan.securityLine? at line
    split at line
    · rename_i bound
      obtain rfl := Option.some.inj line
      exact fun name => assigned_subset_primary bound
    · exact nomatch line
  · exact assigned_subset_indicatorLines inside
  · have line := Option.mem_toList.1 inside
    unfold Plan.mathLine? at line
    split at line
    · rename_i bound _
      obtain rfl := Option.some.inj line
      exact fun name => assigned_subset_primary bound
    · exact nomatch line
  · exact absurd inside List.not_mem_nil

private theorem assigned_subset_definitions {statement : Statement}
    (member : statement ∈ (planWith catalogue graph).definitions) :
    ∀ name ∈ statement.assigned, name ∈ (Naming.bind catalogue graph).identifiers := by
  obtain ⟨placed, -, defines⟩ := List.mem_filterMap.1 member
  split at defines
  · rename_i bound
    obtain rfl := Option.some.inj defines
    exact fun name => assigned_subset_primary bound
  · exact nomatch defines

private theorem mem_assignedIn_iff (options : Options) {name : String}
    (free : name ∉ (Naming.bind catalogue graph).identifiers) :
    name ∈ assignedIn (Program.ofPlan options (planWith catalogue graph)).lines ↔
      name ∈ (Program.ofPlan options (planWith catalogue graph)).combined := by
  rw [assignedIn_lines, List.mem_append, List.mem_append, List.mem_append]
  refine or_iff_right ?_
  rintro (input | calculation | definition)
  · exact free (mem_identifiers_of_mem_inputVariables (mem_inputVariables_of_assigned input))
  · obtain ⟨statement, member, assigns⟩ := List.mem_flatMap.1 calculation
    exact free (assigned_subset_calculations member name assigns)
  · obtain ⟨statement, member, assigns⟩ := List.mem_flatMap.1 definition
    exact free (assigned_subset_definitions member name assigns)

private theorem mem_targets_iff (graph : Graph) (flat : FlatTexts catalogue) (options : Options) :
    (Naming.entryCondition ∈
        targets (Program.ofPlan options (planWith catalogue graph)).render ↔
      (planWith catalogue graph).entryExpr?.isSome = true) ∧
    (Naming.exitCondition ∈
        targets (Program.ofPlan options (planWith catalogue graph)).render ↔
      (planWith catalogue graph).exitExpr?.isSome = true) := by
  have free {name : String} (combined : name ∈ combinedNames) :
      name ∉ (Naming.bind catalogue graph).identifiers := by
    have taken : ∀ name ∈ combinedNames, name ∈ Naming.initiallyTaken := by decide
    exact fun member => Naming.not_mem_initiallyTaken member (taken name combined)
  have apart : Naming.entryCondition ≠ Naming.exitCondition := by decide
  rw [targets_render graph flat, mem_assignedIn_iff options (free (by decide)),
    mem_assignedIn_iff options (free (by decide)), Program.mem_combined, Program.mem_combined]
  simp [apart, apart.symm, Program.ofPlan]

/-! ### The section -/

/-- No line of a section reads as the title of the plots, which has neither a bracket nor an equals
sign. -/
private theorem Line.Within.ne_title {allowed : Script.Vocabulary} {line : Line}
    (within : line.Within allowed) : line.render ≠ "// PLOTS" := by
  have bracket : '(' ∉ "// PLOTS".toList := by decide
  have sign : '=' ∉ "// PLOTS".toList := by decide
  cases line with
  | empty => decide
  | note text =>
    have each : ∀ text ∈ ownComments.map Script.commentLine, text ≠ "// PLOTS" := by decide
    exact each text within
  | statement value =>
    intro same
    cases value with
    | assign target source =>
      rw [← same] at sign
      exact sign (by simp [Line.render, Statement.render])
    | call value =>
      rw [← same] at bracket
      exact bracket (by simp [Line.render, Statement.render, Call.render])
  | guard condition =>
    have each : ∀ name ∈ combinedNames, (Line.guard name).render ≠ "// PLOTS" := by decide
    exact each condition within
  | order value =>
    intro same
    rw [← same] at bracket
    exact bracket (by simp [Line.render, Script.Page.indent, Call.render])

def Program.undrawnLines (program : Program) : List Line :=
  .note program.options.versionLine :: .call program.options.declaration ::
    (program.sections.take 3).flatMap (fun part => Line.banner part.1 ++ part.2) ++
    [.empty, .note Script.Page.bannerRule]

private theorem Program.lines_drawn (program : Program) :
    program.lines = program.undrawnLines ++
      .note "// PLOTS" :: .note Script.Page.bannerRule :: program.plotLines := by
  have title : Line.banner "Plots" = [.empty, .note Script.Page.bannerRule, .note "// PLOTS",
      .note Script.Page.bannerRule] := by
    have upper : Text.upper "Plots" = "PLOTS" := by decide
    simp [Line.banner, Script.bannerLines, upper]
  rw [Program.lines_eq, Program.undrawnLines]
  simp [Program.sections, title]

private theorem ne_title_of_mem_undrawnLines (flat : FlatTexts catalogue) (options : Options) :
    ∀ line ∈ (Program.ofPlan options (planWith catalogue graph)).undrawnLines,
      line.render ≠ "// PLOTS" := by
  have banner : ∀ title ∈ sectionTitles.take 3, ∀ text ∈ (Line.banner title).map Line.render,
      text ≠ "// PLOTS" := by decide
  have rule : ∀ text ∈ [Line.empty, .note Script.Page.bannerRule].map Line.render,
      text ≠ "// PLOTS" := by decide
  have bracket : '(' ∉ "// PLOTS".toList := by decide
  rw [Program.undrawnLines, List.forall_mem_append, List.forall_mem_cons, List.forall_mem_cons]
  refine ⟨⟨?_, ?_, ?_⟩, fun line member => rule _ (List.mem_map_of_mem member)⟩
  · intro same
    have chars := congrArg String.toList same
    simp [Line.render, Options.versionLine] at chars
  · intro same
    rw [← same] at bracket
    exact bracket (by simp [Line.call, Line.render, Statement.render, Call.render])
  · intro line member
    obtain ⟨part, inside, stands⟩ := List.mem_flatMap.1 member
    rcases List.mem_append.1 stands with title | body
    · have own : part.1 ∈ sectionTitles.take 3 := by
        have titles : sectionTitles.take 3 =
            ((Program.ofPlan options (planWith catalogue graph)).sections.take 3).map Prod.fst :=
          rfl
        rw [titles]
        exact List.mem_map_of_mem inside
      exact banner part.1 own _ (List.mem_map_of_mem title)
    · exact ((supplies_flat flat).within_sections options part (List.mem_of_mem_take inside) line
        body).ne_title

private theorem plotSection_render (graph : Graph) (flat : FlatTexts catalogue)
    (options : Options) :
    plotSection (Program.ofPlan options (planWith catalogue graph)).render =
      (Program.ofPlan options (planWith catalogue graph)).plotLines.map Line.render := by
  have front : ∀ text ∈
      (Program.ofPlan options (planWith catalogue graph)).undrawnLines.map Line.render,
      (text != "// PLOTS") = true :=
    List.forall_mem_map.2 fun line member =>
      bne_iff_ne.2 (ne_title_of_mem_undrawnLines flat options line member)
  rw [plotSection, lines_render_of_flat graph flat, Program.lines_drawn, List.map_append,
    List.dropWhile_append_of_pos front]
  rfl

private theorem render_plotLines (plan : Plan) (options : Options) :
    (Program.ofPlan options plan).plotLines.map Line.render =
      plan.plots.map Call.render ++ (if plan.entryExpr?.isSome then [entryText] else []) ++
        (if plan.exitExpr?.isSome then [exitText] else []) := by
  rw [Program.plotLines, List.map_append, List.map_append, List.map_map, ← render_entryMarker,
    ← render_exitMarker]
  refine congrArg₂ (· ++ ·) (congrArg₂ (· ++ ·) rfl ?_) ?_
  · exact apply_ite (List.map Line.render) _ _ _
  · exact apply_ite (List.map Line.render) _ _ _

/-! ### What is drawn -/

section Distinct

variable (distinct : (graph.nodes.map Node.id).Nodup)
include distinct

private theorem exists_binding_of_mem_drawn {entry : Node × Signature}
    (member : entry ∈ drawn catalogue graph) :
    ∃ binding, (Naming.bind catalogue graph).binding? entry.1.id = some binding ∧
      (shownBy catalogue graph entry.1 entry.2).map Series.name = binding.identifiers ∧
      ∀ name ∈ binding.identifiers, name ∈ (Naming.bind catalogue graph).identifiers := by
  rw [drawn_eq] at member
  obtain ⟨⟨placed, signature⟩, visible, rfl⟩ := List.mem_map.1 member
  obtain ⟨there, -, earlier, bound⟩ := bound_of_visible visible
  have whole := (binding?_bind distinct there).trans bound
  refine ⟨_, whole, ?_, fun name inside => mem_identifiers_of_bindingAt? bound inside⟩
  unfold shownBy
  rw [whole]
  cases Naming.bindNode earlier placed.node signature.outputs.names with
  | single name => rfl
  | tuple outputs => simp [Binding.identifiers]

private theorem name_of_mem_shown {series : Series} (member : series ∈ shown catalogue graph) :
    series.name ∈ (Naming.bind catalogue graph).identifiers := by
  obtain ⟨entry, inside, own⟩ := List.mem_flatMap.1 member
  obtain ⟨binding, -, names, listed⟩ := exists_binding_of_mem_drawn distinct inside
  refine listed _ ?_
  rw [← names]
  exact List.mem_map_of_mem own

private theorem exists_plots_of_plan (catalogue : Catalogue) :
    ∃ plots : List (List String),
      plots.flatten = (shown catalogue graph).mapIdx plotText ∧
      plots.map List.length = (drawn catalogue graph).map
        (fun (node, signature) => (shownBy catalogue graph node signature).length) ∧
      (planWith catalogue graph).plots.map Call.render =
        (List.zipWith (fun own references => own ++ references) plots
          ((drawn catalogue graph).map fun (_, signature) =>
            signature.plot.referenceLines.map referenceText)).flatten ++
          if shown catalogue graph = [] then [priceText] else [] := by
  obtain ⟨plots, flat, lengths, whole⟩ :=
    exists_plots (planWith catalogue graph) 0 (planWith catalogue graph).visible
  have series : (planWith catalogue graph).allSeries = shown catalogue graph := by
    rw [allSeries_eq, shown, drawn_eq, List.flatMap_map]
    exact List.flatMap_congr fun indicator visible => (series_of_visible distinct visible).1
  have counts : (drawn catalogue graph).map
      (fun (node, signature) => (shownBy catalogue graph node signature).length) =
      (planWith catalogue graph).visible.map fun (placed, signature) =>
        ((planWith catalogue graph).series placed signature).length := by
    rw [drawn_eq, List.map_map]
    exact List.map_congr_left fun indicator visible =>
      congrArg List.length (series_of_visible distinct visible).1.symm
  have references : ((drawn catalogue graph).map fun (_, signature) =>
      signature.plot.referenceLines.map referenceText) =
      (planWith catalogue graph).visible.map fun (placed, signature) =>
        ((planWith catalogue graph).references placed signature).map referenceText := by
    rw [drawn_eq, List.map_map]
    exact List.map_congr_left fun indicator visible =>
      congrArg (List.map referenceText) (series_of_visible distinct visible).2.symm
  refine ⟨plots, ?_, ?_, ?_⟩
  · rw [flat, ← allSeries_eq, series]
    simp only [Nat.zero_add]
  · rw [lengths, counts]
  · rw [Plan.plots, List.map_append, indicatorPlotsFrom_filter, references, series]
    refine congrArg₂ (· ++ ·) whole ?_
    cases shown catalogue graph with
    | nil => exact congrArg ([·]) render_pricePlot
    | cons own rest => rfl

end Distinct

/-! ### Kinds of lines -/

private theorem take_plotText (number : Nat) (series : Series) :
    (plotText number series).toList.take 5 = "plot(".toList := by
  simp [plotText]

private theorem take_referenceText (reference : ReferenceLine) :
    (referenceText reference).toList.take 5 = "hline".toList := by
  simp [referenceText]

private theorem take_priceText : priceText.toList.take 5 = "plot(".toList := by
  decide +kernel

private theorem take_entryText : entryText.toList.take 5 = "plots".toList := by
  decide +kernel

private theorem take_exitText : exitText.toList.take 5 = "plots".toList := by
  decide +kernel

private theorem plotText_ne_priceText (number : Nat) {series : Series}
    (member : series.name ∈ (Naming.bind catalogue graph).identifiers) :
    plotText number series ≠ priceText := by
  intro same
  have chars : ∀ c ∈ series.name.toList, Naming.isNameChar c = true :=
    List.all_eq_true.1 (Naming.all_isNameChar_of_mem_identifiers member)
  have behind : (plotText number series).toList.drop 5 =
      series.name.toList ++ ',' :: ((plotText number series).toList.drop 5).drop
        (series.name.toList.length + 1) := by
    simp [plotText]
  have named : ((plotText number series).toList.drop 5).takeWhile Naming.isNameChar =
      series.name.toList := by
    rw [behind, List.takeWhile_append_of_pos chars,
      List.takeWhile_cons_of_neg (by decide), List.append_nil]
  rw [same] at named
  have close : series.name = "close" :=
    String.toList_inj.1 (named.symm.trans (by decide))
  refine not_mem_priceSeries member ?_
  rw [close]
  decide

private theorem cases_of_mem_plots {plots references : List (List String)} {line : String}
    (member : line ∈ (List.zipWith (fun own references => own ++ references) plots
      references).flatten) : line ∈ plots.flatten ∨ line ∈ references.flatten := by
  obtain ⟨part, inside, own⟩ := List.mem_flatten.1 member
  rw [← List.map_uncurry_zip_eq_zipWith] at inside
  obtain ⟨⟨left, right⟩, pair, rfl⟩ := List.mem_map.1 inside
  obtain ⟨first, second⟩ := List.of_mem_zip pair
  rcases List.mem_append.1 own with plot | reference
  · exact .inl (List.mem_flatten.2 ⟨left, first, plot⟩)
  · exact .inr (List.mem_flatten.2 ⟨right, second, reference⟩)

private theorem fixed_not_mem_plots (distinct : (graph.nodes.map Node.id).Nodup)
    {plots : List (List String)} (flat : plots.flatten = (shown catalogue graph).mapIdx plotText)
    (line : String) (fixed : line ∈ [priceText, entryText, exitText]) :
    line ∉ (List.zipWith (fun own references => own ++ references) plots
      ((drawn catalogue graph).map fun (_, signature) =>
        signature.plot.referenceLines.map referenceText)).flatten := by
  have fronts : ∀ line ∈ [priceText, entryText, exitText],
      line.toList.take 5 ≠ "hline".toList ∧
        (line ≠ priceText → line.toList.take 5 ≠ "plot(".toList) := by
    simp only [List.forall_mem_cons, take_priceText, take_entryText, take_exitText]
    refine ⟨⟨by decide, fun other => absurd rfl other⟩, ⟨by decide, fun _ => by decide⟩,
      ⟨by decide, fun _ => by decide⟩, List.forall_mem_nil _⟩
  obtain ⟨noReference, noPlot⟩ := fronts line fixed
  intro member
  rcases cases_of_mem_plots member with plot | reference
  · rw [flat, List.mem_mapIdx] at plot
    obtain ⟨number, inside, same⟩ := plot
    have name := name_of_mem_shown distinct (List.getElem_mem inside)
    by_cases price : line = priceText
    · exact plotText_ne_priceText number name (same.trans price)
    · exact noPlot price (by rw [← same, take_plotText])
  · obtain ⟨part, inside, own⟩ := List.mem_flatten.1 reference
    obtain ⟨entry, -, rfl⟩ := List.mem_map.1 inside
    obtain ⟨level, -, same⟩ := List.mem_map.1 own
    exact noReference (by rw [← same, take_referenceText])

/-- The plots section of the script of a graph without errors.  Behind the plots of each indicator
that is drawn, one for each name bound to it, stand its reference lines; the plots of the script are
numbered through for their colors.  The price is plotted where no indicator is, and the bars of a
combined condition are marked where the script assigns it. -/
theorem plots_exact (options : Options) (catalogue : Catalogue) (graph : Graph)
    (flat : FlatTexts catalogue) (valid : (validate catalogue graph).errors = []) :
    ((compile catalogue options graph).success = true →
      (compile catalogue options graph).code =
        (Program.ofPlan options (planWith catalogue graph)).render) ∧
    (∀ entry ∈ drawn catalogue graph, ∃ binding,
      (Naming.bind catalogue graph).binding? entry.1.id = some binding ∧
        (shownBy catalogue graph entry.1 entry.2).map Series.name = binding.identifiers) ∧
    ∃ code, code = (Program.ofPlan options (planWith catalogue graph)).render ∧
      (∃ plots : List (List String),
        plots.flatten = (shown catalogue graph).mapIdx plotText ∧
        plots.map List.length = (drawn catalogue graph).map
          (fun (node, signature) => (shownBy catalogue graph node signature).length) ∧
        plotSection code =
          (List.zipWith (fun own references => own ++ references) plots
            ((drawn catalogue graph).map fun (_, signature) =>
              signature.plot.referenceLines.map referenceText)).flatten ++
          (if shown catalogue graph = [] then [priceText] else []) ++
          (if Naming.entryCondition ∈ targets code then [entryText] else []) ++
          (if Naming.exitCondition ∈ targets code then [exitText] else [])) ∧
      (priceText ∈ plotSection code ↔ shown catalogue graph = []) ∧
      (entryText ∈ plotSection code ↔ Naming.entryCondition ∈ targets code) ∧
      (exitText ∈ plotSection code ↔ Naming.exitCondition ∈ targets code) := by
  have distinct := (validate_errors_eq_nil_iff.1 valid).distinct
  refine ⟨code_of_success options valid, fun entry member => ?_, _, rfl, ?_⟩
  · obtain ⟨binding, bound, names, -⟩ := exists_binding_of_mem_drawn distinct member
    exact ⟨binding, bound, names⟩
  obtain ⟨plots, numbered, lengths, whole⟩ := exists_plots_of_plan distinct catalogue
  have fixed := fixed_not_mem_plots distinct numbered
  obtain ⟨entry, exit⟩ := mem_targets_iff graph flat options
  have lines := plotSection_render graph flat options
  rw [render_plotLines, whole] at lines
  simp only [← entry, ← exit] at lines
  obtain ⟨noEntry, noExit, sides⟩ : priceText ≠ entryText ∧ priceText ≠ exitText ∧
      entryText ≠ exitText := by
    decide +kernel
  refine ⟨⟨plots, numbered, lengths, lines⟩, ?_, ?_, ?_⟩
  · rw [lines]
    simp only [List.mem_append, fixed priceText List.mem_cons_self, List.mem_ite_nil_right,
      List.mem_singleton, noEntry, noExit, false_or, and_true, and_false, or_false]
  · have among : entryText ∈ [priceText, entryText, exitText] :=
      List.mem_cons_of_mem _ List.mem_cons_self
    rw [lines]
    simp only [List.mem_append, fixed entryText among, List.mem_ite_nil_right, List.mem_singleton,
      noEntry.symm, sides, false_or, and_true, and_false, or_false]
  · have among : exitText ∈ [priceText, entryText, exitText] :=
      List.mem_cons_of_mem _ (List.mem_cons_of_mem _ List.mem_cons_self)
    rw [lines]
    simp only [List.mem_append, fixed exitText among, List.mem_ite_nil_right, List.mem_singleton,
      noExit.symm, sides.symm, false_or, and_true, and_false]

/-! ### Two indicators -/

/-- A strategy with an oscillator, which has two levels, and an indicator with three outputs. -/
def momentum : Graph where
  nodes :=
    [ { id := "price", kind := .dataSource, label := "" },
      { id := "strength", kind := .indicator, label := "Strength",
        config := [("indicatorId", .string "rsi"), ("period", .integer 14)] },
      { id := "trend", kind := .indicator, label := "Trend",
        config := [("indicatorId", .string "macd"), ("fastLength", .integer 12),
          ("slowLength", .integer 26), ("signalLength", .integer 9)] },
      { id := "weak", kind := .condition, label := "Weak",
        config := [("operator", .string "less_than"), ("threshold", .integer 30),
          ("role", .string "entry")] } ]
  edges := [⟨"e1", "price", "strength"⟩, ⟨"e2", "price", "trend"⟩, ⟨"e3", "strength", "weak"⟩]

private theorem valid_momentum : (validate builtin momentum).errors = [] := by
  refine validate_errors_eq_nil_iff.2 ⟨?_, by decide, ?_, by decide, ?_⟩
  · exact ⟨_, List.mem_cons_self, rfl⟩
  · exact Validation.forall_nodeAccepted_iff.2 (by decide +kernel)
  · exact Validation.not_consumes_self_of_rank
      (fun id => if id = "price" then 0 else if id = "weak" then 2 else 1) (by decide)

private theorem shown_momentum :
    shown builtin momentum =
      [ ⟨"Strength", "strength", false⟩, ⟨"Trend line", "trend_line", false⟩,
        ⟨"Trend signal", "trend_signal", false⟩,
        ⟨"Trend histogram", "trend_histogram", true⟩ ] := by
  decide +kernel

theorem plots_exact_momentum :
    FlatTexts builtin ∧ (validate builtin momentum).errors = [] ∧
      priceText ∉ plotSection (Program.ofPlan {} (planWith builtin momentum)).render ∧
      ∃ plots : List (List String),
        plots.map List.length = [1, 3] ∧
          plots.flatten =
            [ "plot(strength, title=\"Strength\", color=color.blue)",
              "plot(trend_line, title=\"Trend line\", color=color.orange)",
              "plot(trend_signal, title=\"Trend signal\", color=color.purple)",
              "plot(trend_histogram, title=\"Trend histogram\", color=color.teal, " ++
                "style=plot.style_columns)" ] := by
  have flat := flatTexts_of_regular regular_builtin
  obtain ⟨-, -, code, rfl, ⟨plots, numbered, lengths, -⟩, price, -, -⟩ :=
    plots_exact {} builtin momentum flat valid_momentum
  have counts : ((drawn builtin momentum).map fun (node, signature) =>
      (shownBy builtin momentum node signature).length) = [1, 3] := by
    decide +kernel
  refine ⟨flat, valid_momentum, ?_, plots, lengths.trans counts, ?_⟩
  · rw [price, shown_momentum]
    exact List.cons_ne_nil _ _
  · rw [numbered, shown_momentum]
    decide +kernel

end StrategyCompiler.Compilation
