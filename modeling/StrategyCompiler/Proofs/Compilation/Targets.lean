import StrategyCompiler.Proofs.Compilation.Failure
import StrategyCompiler.Proofs.Compilation.Forms
import StrategyCompiler.Proofs.Compilation.Multiplicity
import StrategyCompiler.Proofs.Script.Targets
/-!
Every name is assigned once.  What the lines of the script of a graph without errors assign is read
off their text: with a catalogue of regular signatures it is the names of the table, each on one
line, and the combined conditions that have conditions.
-/

set_option autoImplicit false

namespace StrategyCompiler.Compilation

open Catalogue (Signature)
open StrategyCompiler.Graph (Node Placed Role)
open Naming (Binding isNameChar)
open Script (Call Expr Flat Operand Statement Vocabulary isOpening lineFunctions orderFunctions
  targets targetsOf)
open Validation (validate)

variable {catalogue : Catalogue} {graph : Graph}

/-! ### The text of lines -/

/-- The vocabulary in which all texts stand on one line and variables are made of the characters of
names. -/
def flatVocabulary : Vocabulary where
  word := fun word => Flat word.toList
  label := fun label => Flat label.toList
  target := fun name => name.toList.all isNameChar = true
  effect := fun function => function ∈ lineFunctions
  number := fun _ => True
  text := fun text => Flat text.toList

private theorem flat_of_all_isNameChar {name : String} (own : name.toList.all isNameChar = true) :
    Flat name.toList :=
  (Script.clean_of_isWord (isWord_of_all_isNameChar own)).flat

private theorem isFlat_flatVocabulary : flatVocabulary.IsFlat where
  words := fun _ flat => flat
  labels := fun _ flat => flat
  targets := fun _ own => flat_of_all_isNameChar own
  texts := fun _ flat => flat

private theorem flat_filled {placed : Placed} {signature : Signature} {binding : Binding}
    {text : String}
    (template : Flat text.toList)
    (bound : (planWith catalogue graph).names.bindingAt? placed.position = some binding)
    (arguments : ∀ entry ∈ (planWith catalogue graph).argumentsOf placed signature,
      entry.2.Within flatVocabulary) :
    Flat ((planWith catalogue graph).filled placed signature binding text).toList := by
  rw [Plan.filled, Catalogue.Template.fill, String.toList_ofList]
  refine Catalogue.Template.forall_mem_fillChars _ (by decide) template ?_
  intro key value found
  obtain ⟨given, resolved, rfl⟩ := Option.map_eq_some_iff.1 found
  rcases placeholder?_cases resolved with member | ⟨argument, member, rfl⟩
  · exact flat_of_all_isNameChar (Naming.all_isNameChar_of_mem_identifiers
      (mem_identifiers_of_bindingAt? bound member))
  · exact Operand.fits_render isFlat_flatVocabulary.closed (arguments argument member)

/-- The texts that signatures write into scripts as they are stand on one line each. -/
def FlatTexts (catalogue : Catalogue) : Prop :=
  ∀ signature ∈ catalogue.signatures, ∀ text ∈ verbatimTexts signature, Flat text.toList

theorem flatTexts_of_regular (regular : ∀ signature ∈ catalogue.signatures, Regular signature) :
    FlatTexts catalogue :=
  fun signature member => (regular signature member).flat

theorem supplies_flat (flat : FlatTexts catalogue) :
    Supplies flatVocabulary catalogue graph where
  words := by
    have each : ∀ word ∈ ownWords, Flat word.toList := by decide +kernel
    exact each
  labels := by
    have each : ∀ label ∈ ownLabels, Flat label.toList := by decide
    exact each
  effects := fun _ own => own
  numbers := fun _ _ => trivial
  losses := fun _ _ _ => trivial
  profits := fun _ _ _ => trivial
  signatures := fun signature own =>
    { words := fun word member => flat signature own word (List.mem_append_right _ member)
      numbers := fun _ _ => trivial }
  names := by
    intro name member
    have own := Naming.all_isNameChar_of_mem_identifiers member
    exact ⟨flat_of_all_isNameChar own, own⟩
  conditions := by
    have each : ∀ name ∈ combinedNames, name.toList.all isNameChar = true := by decide
    exact ⟨each _ (by decide), each _ (by decide)⟩
  filled := by
    intro placed signature binding texts _ selected bound form arguments text listed
    have own := flat signature (mem_signatures_of_signatureOf? selected)
    refine flat_filled (own text ?_) bound arguments
    rw [verbatimTexts, form]
    exact List.mem_append_left _ listed

/-! ### Reading lines -/

private theorem targetsOf_call (front : String) (call : Call)
    (opening : isOpening (front ++ call.function ++ "(").toList = true) :
    targetsOf (front ++ call.render) = [] := by
  refine Script.targetsOf_of_isOpening opening ?_
  have shape : front ++ call.render = (front ++ call.function ++ "(") ++
      (", ".intercalate (call.arguments.map Script.Argument.render) ++ ")") := by
    simp only [Call.render, String.append_assoc]
  rw [shape, String.toList_append (s := front ++ call.function ++ "(")]
  exact List.prefix_append _ _

private theorem targetsOf_slashes {line : String} (starts : "//".toList <+: line.toList) :
    targetsOf line = [] :=
  Script.targetsOf_of_isOpening (by decide : isOpening "//".toList = true) starts

private theorem targetsOf_comment (text : String) : targetsOf (Script.commentLine text) = [] := by
  refine targetsOf_slashes ?_
  have shape : (Script.commentLine text).toList =
      "//".toList ++ ' ' :: (Script.Page.flatten text).toList := by
    simp [Script.commentLine]
  rw [shape]
  exact List.prefix_append _ _

private theorem targetsOf_versionLine (options : Options) : targetsOf options.versionLine = [] := by
  refine targetsOf_slashes ?_
  have shape : options.versionLine.toList =
      "//".toList ++ ("@version=".toList ++ (toString options.version).toList) := by
    simp [Options.versionLine]
  rw [shape]
  exact List.prefix_append _ _

private theorem targetsOf_declaration (options : Options) :
    targetsOf options.declaration.render = [] := by
  have opening : isOpening ("" ++ "strategy" ++ "(").toList = true := by decide
  have own := targetsOf_call "" options.declaration opening
  rwa [String.empty_append] at own

private theorem targetsOf_banner {title : String} (own : title ∈ sectionTitles) :
    ∀ line ∈ Line.banner title, targetsOf line.render = [] := by
  have each : ∀ title ∈ sectionTitles, ∀ text ∈ (Line.banner title).map Line.render,
      targetsOf text = [] := by
    decide
  exact fun line member => each title own _ (List.mem_map_of_mem member)

private theorem Line.Within.targetsOf_render {line : Line} (within : line.Within flatVocabulary) :
    targetsOf line.render = line.assigned := by
  cases line with
  | empty => decide
  | note text =>
    obtain ⟨comment, -, rfl⟩ := List.mem_map.1 within
    exact targetsOf_comment comment
  | statement value =>
    cases value with
    | assign target source =>
      cases target with
      | single name =>
        refine Script.targetsOf_assign (List.forall_mem_singleton.2 within.1) ?_
        exact List.cons_ne_nil _ _
      | several names =>
        cases source with
        | call value => exact Script.targetsOf_assign within.2.1 within.1
        | expr value => exact within.elim
        | verbatim text => exact within.elim
    | call value =>
      have each : ∀ function ∈ lineFunctions,
          isOpening ("" ++ function ++ "(").toList = true := by
        decide
      have own := targetsOf_call "" value (each value.function within.1)
      rwa [String.empty_append] at own
  | guard condition =>
    have each : ∀ name ∈ combinedNames, targetsOf (Line.guard name).render = [] := by decide
    exact each condition within
  | order value =>
    have each : ∀ function ∈ orderFunctions,
        isOpening ("    " ++ function ++ "(").toList = true := by
      decide
    exact targetsOf_call "    " value (each value.function within.1)

section Text

variable (graph) (flat : FlatTexts catalogue) (options : Options)
include flat

theorem lines_render_of_flat :
    Text.lines (Program.ofPlan options (planWith catalogue graph)).render =
      (Program.ofPlan options (planWith catalogue graph)).lines.map Line.render :=
  (supplies_flat flat).lines_render isFlat_flatVocabulary options

theorem targetsOf_lines :
    ∀ line ∈ (Program.ofPlan options (planWith catalogue graph)).lines,
      targetsOf line.render = line.assigned := by
  rw [Program.lines_eq, List.forall_mem_cons, List.forall_mem_cons]
  refine ⟨targetsOf_versionLine options, targetsOf_declaration options, fun line member => ?_⟩
  obtain ⟨part, inside, stands⟩ := List.mem_flatMap.1 member
  rcases List.mem_append.1 stands with banner | body
  · rw [targetsOf_banner (Program.title_mem inside) line banner]
    exact (List.flatMap_eq_nil_iff.1 (assignedIn_banner part.1) line banner).symm
  · exact ((supplies_flat flat).within_sections options part inside line body).targetsOf_render

theorem targets_render :
    targets (Program.ofPlan options (planWith catalogue graph)).render =
      assignedIn (Program.ofPlan options (planWith catalogue graph)).lines := by
  rw [targets, lines_render_of_flat graph flat, List.flatMap_map, assignedIn]
  exact List.flatMap_congr (targetsOf_lines graph flat options)

end Text

/-! ### Input declarations -/

def inputLines (code : String) : List String :=
  ((Text.lines code).takeWhile fun line => line != "// CALCULATIONS").filter
    fun line => !(targetsOf line).isEmpty

/-- The lines of a program in front of the title of the calculations. -/
def Program.headLines (program : Program) : List Line :=
  .note program.options.versionLine :: .call program.options.declaration ::
    (Line.banner "Inputs" ++
      Line.orComment "No indicator inputs" (program.inputs.map .statement) ++
      [.empty, .note Script.Page.bannerRule])

def Program.tailLines (program : Program) : List Line :=
  .note "// CALCULATIONS" :: .note Script.Page.bannerRule ::
    (Line.orComment "Price series are used directly" (program.calculations.map .statement) ++
      (Line.banner "Strategy Logic" ++ program.logicLines) ++
      (Line.banner "Plots" ++ program.plotLines))

private theorem Program.lines_split (program : Program) :
    program.lines = program.headLines ++ program.tailLines := by
  have title : "// " ++ Text.upper "Calculations" = "// CALCULATIONS" := by decide
  simp [lines, bodyLines, headLines, tailLines, Line.banner, Script.bannerLines, title]

private theorem takeWhile_of_forall {α : Type} {keep : α → Bool} {front : List α} (stop : α)
    (back : List α) (kept : ∀ item ∈ front, keep item = true) (stops : keep stop = false) :
    (front ++ stop :: back).takeWhile keep = front := by
  rw [List.takeWhile_append_of_pos kept, List.takeWhile_cons, stops]
  exact List.append_nil front

private theorem length_filter_singletons {α : Type} {items : List α} {names : α → List String}
    (single : ∀ item ∈ items, (names item).length ≤ 1) :
    (items.filter fun item => !(names item).isEmpty).length = (items.flatMap names).length := by
  induction items with
  | nil => rfl
  | cons item rest ih =>
    obtain ⟨here, later⟩ := List.forall_mem_cons.1 single
    rw [List.filter_cons, List.flatMap_cons, List.length_append, ← ih later]
    cases named : names item with
    | nil => simp
    | cons name more =>
      have alone : more = [] := by
        rw [named, List.length_cons] at here
        exact List.eq_nil_of_length_eq_zero (by omega)
      simp [alone, Nat.add_comm]

private theorem assigned_length_of_mem_inputs {statement : Statement}
    (member : statement ∈ (planWith catalogue graph).inputs) : statement.assigned.length = 1 := by
  obtain ⟨⟨placed, signature⟩, -, inside⟩ := List.mem_flatMap.1 member
  obtain ⟨parameter, -, bound⟩ := List.mem_filterMap.1 inside
  obtain ⟨name, -, declaration⟩ := Option.bind_eq_some_iff.1 bound
  obtain ⟨function, -, rfl⟩ := Option.map_eq_some_iff.1 declaration
  rfl

section Inputs

variable (graph) (options : Options)

private theorem assigned_length_of_mem_headLines (catalogue : Catalogue) :
    ∀ line ∈ (Program.ofPlan options (planWith catalogue graph)).headLines,
      line.assigned.length ≤ 1 := by
  have declarations : ∀ line ∈ Line.orComment "No indicator inputs"
      ((planWith catalogue graph).inputs.map Line.statement), line.assigned.length ≤ 1 := by
    unfold Line.orComment
    split
    · simp [Line.comment, Line.assigned]
    · exact List.forall_mem_map.2 fun statement member =>
        (assigned_length_of_mem_inputs member).le
  have banner : ∀ line ∈ Line.banner "Inputs", line.assigned.length ≤ 1 := by
    intro line member
    rw [List.flatMap_eq_nil_iff.1 (assignedIn_banner "Inputs") line member]
    exact Nat.zero_le 1
  rw [Program.headLines, List.forall_mem_cons, List.forall_mem_cons, List.forall_mem_append,
    List.forall_mem_append]
  exact ⟨Nat.zero_le 1, Nat.zero_le 1, ⟨banner, declarations⟩, by simp [Line.assigned]⟩

private theorem assignedIn_headLines (program : Program) :
    assignedIn program.headLines = program.inputs.flatMap Statement.assigned := by
  have last : assignedIn [.empty, .note Script.Page.bannerRule] = [] := rfl
  show assignedIn (Line.banner "Inputs" ++
    Line.orComment "No indicator inputs" (program.inputs.map .statement) ++
    [.empty, .note Script.Page.bannerRule]) = _
  simp only [assignedIn_append, assignedIn_banner, assignedIn_orComment, last, List.nil_append,
    List.append_nil]

variable (regular : ∀ signature ∈ catalogue.signatures, Regular signature)
include regular

private theorem targetsOf_headLines :
    ∀ line ∈ (Program.ofPlan options (planWith catalogue graph)).headLines,
      targetsOf line.render = line.assigned := by
  have reads := targetsOf_lines graph (flatTexts_of_regular regular) options
  intro line member
  refine reads line ?_
  rw [Program.lines_split]
  exact List.mem_append_left _ member

private theorem ne_title_of_mem_headLines :
    ∀ line ∈ (Program.ofPlan options (planWith catalogue graph)).headLines,
      line.render ≠ "// CALCULATIONS" := by
  have reads := targetsOf_headLines graph options regular
  have banner : ∀ text ∈ (Line.banner "Inputs").map Line.render,
      text ≠ "// CALCULATIONS" := by
    decide
  have comment : (Line.comment "No indicator inputs").render ≠ "// CALCULATIONS" := by decide
  have rule : ∀ text ∈ [Line.empty, .note Script.Page.bannerRule].map Line.render,
      text ≠ "// CALCULATIONS" := by
    decide
  rw [Program.headLines, List.forall_mem_cons, List.forall_mem_cons, List.forall_mem_append,
    List.forall_mem_append] at reads ⊢
  refine ⟨?_, ?_, ⟨?_, ?_⟩, ?_⟩
  · intro same
    have chars := congrArg String.toList same
    simp [Line.render, Options.versionLine] at chars
  · intro same
    have chars := congrArg String.toList same
    simp [Line.call, Line.render, Statement.render, Call.render, Program.ofPlan,
      Options.declaration] at chars
  · exact fun line member => banner _ (List.mem_map_of_mem member)
  · unfold Line.orComment at reads ⊢
    split
    · exact List.forall_mem_singleton.2 comment
    · rename_i nonempty
      rw [if_neg nonempty] at reads
      refine List.forall_mem_map.2 fun statement member same => ?_
      -- A declaration assigns a name, and the title of a section none.
      have named := reads.2.2.1.2 _ (List.mem_map_of_mem member)
      rw [same] at named
      have one := assigned_length_of_mem_inputs member
      have none : targetsOf "// CALCULATIONS" = [] := by decide
      rw [none] at named
      rw [show statement.assigned = [] from named.symm] at one
      exact absurd one (by decide)
  · exact fun line member => rule _ (List.mem_map_of_mem member)

private theorem length_inputLines :
    (inputLines (Program.ofPlan options (planWith catalogue graph)).render).length =
      (Naming.bind catalogue graph).inputCount := by
  have reads := targetsOf_headLines graph options regular
  have front := ne_title_of_mem_headLines graph options regular
  have single := assigned_length_of_mem_headLines graph options catalogue
  have lines := lines_render_of_flat graph (flatTexts_of_regular regular) options
  have kept : ∀ text ∈
      (Program.ofPlan options (planWith catalogue graph)).headLines.map Line.render,
      (text != "// CALCULATIONS") = true :=
    List.forall_mem_map.2 fun line member => bne_iff_ne.2 (front line member)
  have cut := takeWhile_of_forall "// CALCULATIONS"
    ((Program.ofPlan options (planWith catalogue graph)).tailLines.tail.map Line.render) kept
    (by decide)
  have whole : Text.lines (Program.ofPlan options (planWith catalogue graph)).render =
      (Program.ofPlan options (planWith catalogue graph)).headLines.map Line.render ++
        "// CALCULATIONS" ::
          ((Program.ofPlan options (planWith catalogue graph)).tailLines.tail).map Line.render := by
    rw [lines, Program.lines_split, List.map_append]
    rfl
  rw [inputLines, whole, cut, length_filter_singletons, List.flatMap_map]
  · rw [List.flatMap_congr reads, ← length_inputs regular]
    exact congrArg List.length (assignedIn_headLines _)
  · exact List.forall_mem_map.2 fun line member => reads line member ▸ single line member

end Inputs

private theorem inputLines_fallbackScript (options : Options) (errors : List Diagnostic.Error) :
    inputLines (fallbackScript options errors) = [] := by
  have head : ∀ text ∈ failureHead options, targetsOf text = [] := by
    have fixed : ∀ text ∈ ["", Script.Page.bannerRule, "// GENERATION FAILED",
        "// The strategy graph could not be compiled:"], targetsOf text = [] := by
      decide
    simp only [List.forall_mem_cons, List.not_mem_nil, false_implies, implies_true,
      and_true] at fixed
    obtain ⟨blank, rule, title, notice⟩ := fixed
    simp only [failureHead, List.forall_mem_cons, List.not_mem_nil, false_implies, implies_true,
      and_true]
    exact ⟨targetsOf_versionLine options, targetsOf_declaration options, blank, rule, title, rule,
      notice⟩
  have error : ∀ text ∈ errors.map fun error =>
      "// ERROR: " ++ Script.Page.flatten error.message, targetsOf text = [] := by
    refine List.forall_mem_map.2 fun error _ => ?_
    rw [← render_errorComment]
    exact targetsOf_comment _
  have tail : ∀ text ∈ failureTail, targetsOf text = [] := by decide
  have silent : ∀ text ∈ Text.lines (fallbackScript options errors), targetsOf text = [] := by
    rw [lines_fallbackScript, List.forall_mem_append, List.forall_mem_append]
    exact ⟨⟨head, error⟩, tail⟩
  refine List.filter_eq_nil_iff.2 fun text member => ?_
  have none := silent text ((List.takeWhile_prefix _).subset member)
  rw [none]
  decide

/-! ### Combined conditions -/

def HasCondition (graph : Graph) (role : Role) : Prop :=
  ∃ (position : Nat) (node : Node), graph.nodes[position]? = some node ∧ node.kind = .condition ∧
    conditionRole? (.ofGraph graph) ⟨position, node⟩ = some role

private theorem conditionsOf_eq_nil_iff (catalogue : Catalogue) {role : Role} :
    (conditionsOf (planWith catalogue graph).index (planWith catalogue graph).order role).isEmpty =
      false ↔ HasCondition graph role := by
  rw [List.isEmpty_eq_false_iff_exists_mem]
  constructor
  · rintro ⟨placed, member⟩
    obtain ⟨inside, kind⟩ := List.mem_filter.1 member
    rw [Bool.and_eq_true, beq_iff_eq, beq_iff_eq] at kind
    exact ⟨placed.position, placed.node, Naming.mem_namingOrder.1 inside, kind.1, kind.2⟩
  · rintro ⟨position, node, found, kind, holds⟩
    refine ⟨⟨position, node⟩, List.mem_filter.2 ⟨Naming.mem_namingOrder.2 found, ?_⟩⟩
    rw [Bool.and_eq_true, beq_iff_eq, beq_iff_eq]
    exact ⟨kind, holds⟩

private theorem isSome_entryExpr?_iff (catalogue : Catalogue) :
    (planWith catalogue graph).entryExpr?.isSome = true ↔ HasCondition graph .entry := by
  rw [← conditionsOf_eq_nil_iff catalogue]
  unfold Plan.entryExpr?
  dsimp only
  split
  · rename_i empty
    simp [empty]
  · rename_i nonempty
    simp [nonempty]

private theorem isSome_exitExpr?_iff (catalogue : Catalogue) :
    (planWith catalogue graph).exitExpr?.isSome = true ↔ HasCondition graph .exit := by
  rw [← conditionsOf_eq_nil_iff catalogue]
  unfold Plan.exitExpr?
  dsimp only
  split
  · rename_i empty
    simp [empty]
  · rename_i nonempty
    simp [nonempty]

theorem Program.mem_combined {program : Program} {name : String} :
    name ∈ program.combined ↔
      name = Naming.entryCondition ∧ program.entry.isSome = true ∨
        name = Naming.exitCondition ∧ program.exit.isSome = true := by
  unfold combined
  cases program.entry.isSome <;> cases program.exit.isSome <;> simp

theorem mem_combined (options : Options) {name : String} :
    name ∈ (Program.ofPlan options (planWith catalogue graph)).combined ↔
      name = Naming.entryCondition ∧ HasCondition graph .entry ∨
        name = Naming.exitCondition ∧ HasCondition graph .exit := by
  rw [← isSome_entryExpr?_iff catalogue, ← isSome_exitExpr?_iff catalogue]
  exact Program.mem_combined

private theorem nodup_combined (program : Program) : program.combined.Nodup := by
  unfold Program.combined
  cases program.entry.isSome <;> cases program.exit.isSome <;> decide

/-! ### Scripts -/

/-- The code of a graph without errors is its script, or the script for the errors that the check
of its structure finds. -/
private theorem compile_code_of_valid (options : Options)
    (valid : (validate catalogue graph).errors = []) :
    (compile catalogue options graph).success = true ∧
        (compile catalogue options graph).code =
          (Program.ofPlan options (planWith catalogue graph)).render ∧
        (compile catalogue options graph).metadata.inputCount =
          (Naming.bind catalogue graph).inputCount ∨
      (compile catalogue options graph).success = false ∧
        (∃ errors, (compile catalogue options graph).code = fallbackScript options errors) ∧
        (compile catalogue options graph).metadata.inputCount = 0 := by
  have empty : (Validation.validateIndex catalogue (.ofGraph graph)).errors.isEmpty = true :=
    List.isEmpty_iff.2 valid
  unfold compile
  dsimp only
  rw [if_pos empty]
  unfold generate
  dsimp only
  split
  · exact .inr ⟨rfl, ⟨_, rfl⟩, rfl⟩
  · exact .inl ⟨rfl, rfl, rfl⟩

theorem code_of_success (options : Options) (valid : (validate catalogue graph).errors = [])
    (success : (compile catalogue options graph).success = true) :
    (compile catalogue options graph).code =
      (Program.ofPlan options (planWith catalogue graph)).render := by
  rcases compile_code_of_valid options valid with ⟨-, code, -⟩ | ⟨failure, -⟩
  · exact code
  · exact absurd (failure.symm.trans success) Bool.false_ne_true

theorem nodup_identifiers_combined (options : Options)
    (regular : ∀ signature ∈ catalogue.signatures, Regular signature) :
    ((Naming.bind catalogue graph).identifiers ++
      (Program.ofPlan options (planWith catalogue graph)).combined).Nodup := by
  refine List.nodup_append'.2 ⟨?_, nodup_combined _, fun name own combined => ?_⟩
  · refine Naming.nodup_identifiers fun node signature selected => ?_
    exact (regular signature (mem_signatures_of_signatureOf? selected)).outputs
  · have free := Naming.not_mem_initiallyTaken own
    simp only [Naming.initiallyTaken, List.mem_append, List.mem_cons, List.not_mem_nil, or_false,
      not_or] at free
    rcases (mem_combined options).1 combined with ⟨same, -⟩ | ⟨same, -⟩
    · exact free.2.1 same
    · exact free.2.2 same

theorem targets_perm (options : Options)
    (regular : ∀ signature ∈ catalogue.signatures, Regular signature)
    (valid : (validate catalogue graph).errors = []) :
    (targets (Program.ofPlan options (planWith catalogue graph)).render).Perm
      ((Naming.bind catalogue graph).identifiers ++
        (Program.ofPlan options (planWith catalogue graph)).combined) := by
  rw [targets_render graph (flatTexts_of_regular regular), assignedIn_lines]
  exact (assigned_perm regular valid).append_right _

/-- The script of a graph without errors assigns every name of the table once, and a combined
condition once when the graph has a condition of its role; it assigns nothing else.  The script that
a compilation hands back declares as many inputs as it reports. -/
theorem assigned_once (options : Options)
    (regular : ∀ signature ∈ catalogue.signatures, Regular signature)
    (valid : (validate catalogue graph).errors = []) :
    (∃ combined : List String,
      (∀ name, name ∈ combined ↔
        name = Naming.entryCondition ∧ HasCondition graph .entry ∨
          name = Naming.exitCondition ∧ HasCondition graph .exit) ∧
      ((Naming.bind catalogue graph).identifiers ++ combined).Nodup ∧
      (targets (Program.ofPlan options (planWith catalogue graph)).render).Perm
        ((Naming.bind catalogue graph).identifiers ++ combined)) ∧
    ((compile catalogue options graph).success = true →
      (compile catalogue options graph).code =
        (Program.ofPlan options (planWith catalogue graph)).render) ∧
    (inputLines (Program.ofPlan options (planWith catalogue graph)).render).length =
      (Naming.bind catalogue graph).inputCount ∧
    (inputLines (compile catalogue options graph).code).length =
      (compile catalogue options graph).metadata.inputCount := by
  have declared := length_inputLines graph options regular
  refine ⟨⟨(Program.ofPlan options (planWith catalogue graph)).combined, ?_, ?_, ?_⟩, ?_, declared,
    ?_⟩
  · exact fun name => mem_combined options
  · exact nodup_identifiers_combined options regular
  · exact targets_perm options regular valid
  · exact code_of_success options valid
  · rcases compile_code_of_valid options valid with ⟨-, code, count⟩ | ⟨-, ⟨errors, code⟩, count⟩
    · rw [code, count, declared]
    · rw [code, count, inputLines_fallbackScript]
      rfl

theorem assigned_once_averageCrossing :
    (∀ signature ∈ Catalogue.builtin.signatures, Regular signature) ∧
      (validate Catalogue.builtin averageCrossing).errors = [] ∧
      (targets (Program.ofPlan {} (planWith Catalogue.builtin averageCrossing)).render).Nodup ∧
      (inputLines (compile Catalogue.builtin {} averageCrossing).code).length =
        (compile Catalogue.builtin {} averageCrossing).metadata.inputCount := by
  obtain ⟨⟨combined, -, nodup, perm⟩, -, -, declared⟩ :=
    assigned_once {} regular_builtin valid_averageCrossing
  exact ⟨regular_builtin, valid_averageCrossing, perm.nodup_iff.2 nodup, declared⟩

end StrategyCompiler.Compilation
