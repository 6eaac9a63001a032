import StrategyCompiler.Proofs.Compilation.Sections
/-!
The combined conditions of a script and everything that stands under them: orders, protections and
plots.  They read words of the script language, variables of conditions and sessions, and plotted
outputs.
-/

set_option autoImplicit false

namespace StrategyCompiler.Compilation

open Catalogue (ReferenceLine Signature)
open StrategyCompiler.Graph (Levels Node Placed Role)
open Number (Double)
open Script (Argument Call CleanWords Expr Statement isFixed isWord)

variable {graph : Graph}

/-! ### Combined conditions -/

structure JoinOf (terms : List Expr) (expr : Expr) : Prop where
  reads : expr.reads = Expr.readsOf terms
  functions : expr.functions = Expr.functionsOf terms

private theorem joinOf_all (terms : List Expr) : JoinOf terms (.all terms) := by
  rcases terms with _ | ⟨first, _ | ⟨second, rest⟩⟩
  · exact ⟨by simp [Expr.all, Expr.reads, Expr.readsOf],
      by simp [Expr.all, Expr.functions, Expr.functionsOf]⟩
  · exact ⟨by simp [Expr.all, Expr.readsOf], by simp [Expr.all, Expr.functionsOf]⟩
  · exact ⟨by simp [Expr.all, Expr.reads], by simp [Expr.all, Expr.functions]⟩

private theorem joinOf_any (terms : List Expr) : JoinOf terms (.any terms) := by
  rcases terms with _ | ⟨first, _ | ⟨second, rest⟩⟩
  · exact ⟨by simp [Expr.any, Expr.reads, Expr.readsOf],
      by simp [Expr.any, Expr.functions, Expr.functionsOf]⟩
  · exact ⟨by simp [Expr.any, Expr.readsOf], by simp [Expr.any, Expr.functionsOf]⟩
  · exact ⟨by simp [Expr.any, Expr.reads], by simp [Expr.any, Expr.functions]⟩

structure Defined (graph : Graph) (terms : List Expr) : Prop where
  reads : ∀ name ∈ Expr.readsOf terms,
    name ∈ (planOf graph).definitions.flatMap Statement.assigned
  functions : Expr.functionsOf terms = []

theorem Defined.append {terms more : List Expr} (first : Defined graph terms)
    (second : Defined graph more) : Defined graph (terms ++ more) := by
  induction terms with
  | nil => exact second
  | cons term rest ih =>
    obtain ⟨reads, functions⟩ := first
    rw [Expr.readsOf, List.forall_mem_append] at reads
    rw [Expr.functionsOf, List.append_eq_nil_iff] at functions
    have later := ih ⟨reads.2, functions.2⟩
    constructor
    · rw [List.cons_append, Expr.readsOf, List.forall_mem_append]
      exact ⟨reads.1, later.reads⟩
    · rw [List.cons_append, Expr.functionsOf, functions.1, later.functions, List.append_nil]

private theorem mem_assigned_definitions {placed : Placed} {binding : Naming.Binding}
    (member : placed ∈ (planOf graph).order)
    (bound : (planOf graph).names.bindingAt? placed.position = some binding)
    (logic : ((planOf graph).logicExpr? placed).isSome = true) :
    binding.primary ∈ (planOf graph).definitions.flatMap Statement.assigned := by
  obtain ⟨expr, composed⟩ := Option.isSome_iff_exists.1 logic
  have defined := mem_definitions.2 ⟨placed, member, binding, expr, bound, composed, rfl⟩
  exact List.mem_flatMap.2 ⟨_, defined, List.mem_singleton_self _⟩

private theorem defined_variablesOf {nodes : List Placed}
    (logic : ∀ placed ∈ nodes,
      placed ∈ (planOf graph).order ∧ ((planOf graph).logicExpr? placed).isSome = true) :
    Defined graph ((planOf graph).variablesOf nodes) := by
  induction nodes with
  | nil =>
    constructor
    · simp [Plan.variablesOf, Expr.readsOf]
    · simp [Plan.variablesOf, Expr.functionsOf]
  | cons placed rest ih =>
    obtain ⟨⟨member, here⟩, later⟩ := List.forall_mem_cons.1 logic
    cases bound : (planOf graph).names.bindingAt? placed.position with
    | none => simpa [Plan.variablesOf, bound] using ih later
    | some binding =>
      have own : Defined graph [.name binding.primary] := by
        constructor
        · simpa [Expr.readsOf, Expr.reads] using mem_assigned_definitions member bound here
        · simp [Expr.functionsOf, Expr.functions]
      simpa [Plan.variablesOf, bound] using own.append (ih later)

private theorem logic_of_mem_conditionsOf {role : Role} {placed : Placed}
    (member : placed ∈ conditionsOf (planOf graph).index (planOf graph).order role) :
    placed ∈ (planOf graph).order ∧ ((planOf graph).logicExpr? placed).isSome = true := by
  obtain ⟨inside, kind⟩ := List.mem_filter.1 member
  have condition : placed.node.kind = .condition := by
    simpa using (Bool.and_eq_true_iff.1 kind).1
  exact ⟨inside, by simp [Plan.logicExpr?, condition]⟩

private theorem logic_of_mem_timings {placed : Placed} (member : placed ∈ (planOf graph).timings) :
    placed ∈ (planOf graph).order ∧ ((planOf graph).logicExpr? placed).isSome = true := by
  obtain ⟨inside, kind⟩ := List.mem_filter.1 member
  have timing : placed.node.kind = .timing := by simpa using kind
  exact ⟨inside, by simp [Plan.logicExpr?, timing]⟩

theorem entryExpr?_eq_some {expr : Expr} (found : (planOf graph).entryExpr? = some expr) :
    ∃ terms, JoinOf terms expr ∧ Defined graph terms := by
  unfold Plan.entryExpr? at found
  dsimp only at found
  split at found
  · exact absurd found (by simp)
  · refine ⟨_, Option.some.inj found ▸ joinOf_all _, ?_⟩
    exact (defined_variablesOf fun _ => logic_of_mem_conditionsOf).append
      (defined_variablesOf fun _ => logic_of_mem_timings)

theorem exitExpr?_eq_some {expr : Expr} (found : (planOf graph).exitExpr? = some expr) :
    ∃ terms, JoinOf terms expr ∧ Defined graph terms := by
  unfold Plan.exitExpr? at found
  dsimp only at found
  split at found
  · exact absurd found (by simp)
  · refine ⟨_, Option.some.inj found ▸ joinOf_any _, ?_⟩
    exact defined_variablesOf fun _ => logic_of_mem_conditionsOf

theorem isSome_entryExpr? (orders : (planOf graph).entryOrders ≠ []) :
    (planOf graph).entryExpr?.isSome = true := by
  unfold Plan.entryOrders liveActionsOf at orders
  unfold Plan.entryExpr?
  split at orders
  · exact absurd rfl orders
  · rename_i nonempty
    simp [nonempty]

theorem isSome_exitExpr? (orders : (planOf graph).exitOrders ≠ []) :
    (planOf graph).exitExpr?.isSome = true := by
  unfold Plan.exitOrders liveActionsOf at orders
  unfold Plan.exitExpr?
  split at orders
  · exact absurd rfl orders
  · rename_i nonempty
    simp [nonempty]

/-! ### Orders -/

section Orders

private theorem limitedCall_of_forall {allowed : String → Prop} {function : String}
    {arguments : List Argument} (word : isWord function = true) (allows : allowed function)
    (each : ∀ argument ∈ arguments, Limited allowed argument) :
    LimitedCall allowed { function, arguments } :=
  ⟨word, allows, each⟩

theorem limited_declaration (options : Options) : LimitedCall Fixed options.declaration := by
  have constant : isFixed options.quantityType.constant = true := by
    cases options.quantityType <;> decide
  refine limitedCall_of_forall (by decide) (by decide) ?_
  simp only [List.forall_mem_cons, List.not_mem_nil, false_implies, implies_true, and_true]
  refine ⟨limited_string _, limited_named (by decide) ?_ ?_, limited_named_number (by decide) _,
    limited_named_name (by decide) constant, limited_named_number (by decide) _⟩
  · simp [Expr.reads]
  · rw [Expr.functions]

private theorem limited_price {label : String} (word : isWord label = true) (node : Node) :
    Limited Fixed (.named label (priceOf node)) := by
  unfold priceOf
  cases node.number? "price" with
  | none => exact limited_named_name word (by decide)
  | some price => exact limited_named_number word price

theorem limited_entryOrder (node : Node) : LimitedCall Fixed (entryOrder node) := by
  refine limitedCall_of_forall (by decide) (by decide) (List.forall_mem_append.2 ⟨?_, ?_⟩)
  · simp only [List.forall_mem_cons, List.not_mem_nil, false_implies, implies_true, and_true]
    exact ⟨limited_string _, limited_name (by decide), limited_named_number (by decide) _⟩
  · split
    · simp
    · exact List.forall_mem_singleton.2 (limited_price (by decide) node)
    · exact List.forall_mem_singleton.2 (limited_price (by decide) node)

theorem limited_exitOrder (node : Node) : LimitedCall Fixed (exitOrder node) :=
  limitedCall_of_forall (by decide) (by decide)
    (List.forall_mem_singleton.2 (limited_named_string (by decide) _))

private theorem limited_relativePrice {label : String} (word : isWord label = true)
    (percent : Double) :
    Limited Fixed (.named label (relativePrice percent)) := by
  have average : Fixed "strategy.position_avg_price" := by decide
  refine limited_named word ?_ ?_
  · simpa [relativePrice, Expr.reads] using average
  · simp [relativePrice, Expr.functions]

theorem limited_protection {node : Node} {call : Call} (found : protection? node = some call) :
    LimitedCall Fixed call := by
  unfold protection? at found
  dsimp only at found
  split at found
  · exact absurd found (by simp)
  · obtain rfl := Option.some.inj found
    refine limitedCall_of_forall (by decide) (by decide) ?_
    simp only [List.forall_mem_append, List.forall_mem_singleton, Option.mem_toList,
      Option.map_eq_some_iff]
    refine ⟨⟨limited_string _, ?_⟩, ?_⟩
    · rintro _ ⟨percent, -, rfl⟩
      exact limited_relativePrice (by decide) percent.neg
    · rintro _ ⟨percent, -, rfl⟩
      exact limited_relativePrice (by decide) percent

end Orders

/-! ### Plots -/

section Plots

def Plotted (graph : Graph) (name : String) : Prop :=
  ∃ placed signature binding, (placed, signature) ∈ (planOf graph).indicators ∧
    (planOf graph).names.bindingAt? placed.position = some binding ∧ name ∈ binding.identifiers

def Shown (graph : Graph) (name : String) : Prop := Fixed name ∨ Plotted graph name

theorem Shown.isWord {name : String} (shown : Shown graph name) : isWord name = true := by
  rcases shown with fixed | ⟨placed, signature, binding, -, bound, member⟩
  · exact Script.isWord_of_isFixed fixed
  · exact isWord_of_bindingAt? bound member

theorem colorOf_mem (number : Nat) : colorOf number ∈ palette := by
  have inside : number % palette.length < palette.length := Nat.mod_lt _ (by decide)
  rw [colorOf, List.getElem?_eq_getElem inside, Option.getD_some]
  exact List.getElem_mem inside

private theorem isFixed_colorOf (number : Nat) : Fixed (colorOf number) := by
  have all : palette.all isFixed = true := by decide
  exact List.all_eq_true.1 all _ (colorOf_mem number)

private theorem limited_plotCall (number : Nat) {series : Series}
    (shown : Plotted graph series.name) :
    LimitedCall (Shown graph) (plotCall number series) := by
  refine limitedCall_of_forall (by decide) (.inl (by decide)) (List.forall_mem_append.2 ⟨?_, ?_⟩)
  · simp only [List.forall_mem_cons, List.not_mem_nil, false_implies, implies_true, and_true]
    exact ⟨limited_name (.inr shown), limited_named_string (by decide) _,
      limited_named_name (by decide) (.inl (isFixed_colorOf number))⟩
  · split
    · exact List.forall_mem_singleton.2 (limited_named_name (by decide) (.inl (by decide)))
    · simp

private theorem limited_plotCalls {series : List Series}
    (shown : ∀ own ∈ series, Plotted graph own.name) (number : Nat) :
    ∀ call ∈ plotCalls number series, LimitedCall (Shown graph) call := by
  induction series generalizing number with
  | nil => simp [plotCalls]
  | cons own rest ih =>
    obtain ⟨here, later⟩ := List.forall_mem_cons.1 shown
    rw [plotCalls, List.forall_mem_cons]
    exact ⟨limited_plotCall number here, ih later (number + 1)⟩

private theorem limited_referenceCall {reference : ReferenceLine} (color : Fixed reference.color) :
    LimitedCall (Shown graph) (referenceCall reference) := by
  refine limitedCall_of_forall (by decide) (.inl (by decide)) ?_
  simp only [List.forall_mem_cons, List.not_mem_nil, false_implies, implies_true, and_true]
  exact ⟨limited_number _, limited_named_string (by decide) _,
    limited_named_name (by decide) (.inl color), limited_named_name (by decide) (.inl (by decide))⟩

theorem limited_pricePlot {allowed : String → Prop} (fixed : ∀ name, Fixed name → allowed name) :
    LimitedCall allowed pricePlot := by
  refine limitedCall_of_forall (by decide) (fixed _ (by decide)) ?_
  simp only [List.forall_mem_cons, List.not_mem_nil, false_implies, implies_true, and_true]
  exact ⟨limited_name (fixed _ (by decide)), limited_named_string (by decide) _,
    limited_named_name (by decide) (fixed _ (by decide))⟩

theorem name_of_mem_seriesFor {label : String} {plot : Catalogue.Plot} {binding : Naming.Binding}
    {series : Series} (member : series ∈ seriesFor label plot binding) :
    series.name ∈ binding.identifiers := by
  cases binding with
  | single name =>
    obtain rfl := List.mem_singleton.1 member
    exact List.mem_singleton_self name
  | tuple outputs =>
    obtain ⟨output, inside, rfl⟩ := List.mem_map.1 member
    exact List.mem_map_of_mem inside

private theorem plotted_of_mem_series {placed : Placed} {signature : Signature} {series : Series}
    (indicator : (placed, signature) ∈ (planOf graph).indicators)
    (member : series ∈ (planOf graph).series placed signature) : Plotted graph series.name := by
  unfold Plan.series at member
  split at member
  · rename_i binding bound
    split at member
    · exact absurd member List.not_mem_nil
    · exact ⟨placed, signature, binding, indicator, bound, name_of_mem_seriesFor member⟩
  · exact absurd member List.not_mem_nil

private theorem isFixed_of_mem_references {placed : Placed} {signature : Signature}
    {reference : ReferenceLine} (indicator : (placed, signature) ∈ (planOf graph).indicators)
    (member : reference ∈ (planOf graph).references placed signature) : Fixed reference.color := by
  have known := isKnown_of_signatureOf? (mem_indicators.1 indicator).2
  simp only [Catalogue.isKnown, Bool.and_eq_true] at known
  unfold Plan.references at member
  split at member
  · split at member
    · exact absurd member List.not_mem_nil
    · exact List.all_eq_true.1 known.2 reference member
  · exact absurd member List.not_mem_nil

private theorem limited_indicatorPlotsFrom {indicators : List (Placed × Signature)}
    (each : ∀ indicator ∈ indicators, indicator ∈ (planOf graph).indicators) (number : Nat) :
    ∀ call ∈ (planOf graph).indicatorPlotsFrom number indicators,
      LimitedCall (Shown graph) call := by
  induction indicators generalizing number with
  | nil => simp [Plan.indicatorPlotsFrom]
  | cons indicator rest ih =>
    obtain ⟨placed, signature⟩ := indicator
    obtain ⟨here, later⟩ := List.forall_mem_cons.1 each
    simp only [Plan.indicatorPlotsFrom, List.forall_mem_append, List.forall_mem_map]
    refine ⟨⟨limited_plotCalls (fun _ => plotted_of_mem_series here) number, ?_⟩, ih later _⟩
    exact fun reference member => limited_referenceCall (isFixed_of_mem_references here member)

theorem limited_plots (graph : Graph) :
    ∀ call ∈ (planOf graph).plots, LimitedCall (Shown graph) call := by
  refine List.forall_mem_append.2 ⟨limited_indicatorPlotsFrom (fun _ member => member) 0, ?_⟩
  split
  · exact List.forall_mem_singleton.2 (limited_pricePlot fun _ => .inl)
  · simp

theorem limited_marker {allowed : String → Prop} {condition location color style : String}
    (title : String) (fixed : ∀ name, Fixed name → allowed name) (holds : allowed condition)
    (constants : ∀ name ∈ [location, color, style], Fixed name) :
    LimitedCall allowed (marker condition title location color style) := by
  simp only [List.forall_mem_cons, List.not_mem_nil, false_implies, implies_true,
    and_true] at constants
  obtain ⟨ofLocation, ofColor, ofStyle⟩ := constants
  refine limitedCall_of_forall (by decide) (fixed _ (by decide)) ?_
  simp only [List.forall_mem_cons, List.not_mem_nil, false_implies, implies_true, and_true]
  exact ⟨limited_name holds, limited_named_string (by decide) _,
    limited_named_name (by decide) (fixed _ ofLocation),
    limited_named_name (by decide) (fixed _ ofColor),
    limited_named_name (by decide) (fixed _ ofStyle),
    limited_named_name (by decide) (fixed _ (by decide))⟩

end Plots

end StrategyCompiler.Compilation
