import StrategyCompiler.Proofs.Compilation.Vocabulary
/-!
The sections of a script and the forms of their lines.  Besides comments of the compiler a section
holds statements, and blocks of orders under a combined condition, all of one vocabulary.
-/

set_option autoImplicit false

namespace StrategyCompiler.Compilation

open Script (Call Expr Flat Statement Vocabulary orderFunctions)

def ownComments : List String :=
  [ "No indicator inputs", "Price series are used directly", "Risk management",
    "No trading logic" ]

def combinedNames : List String := [Naming.entryCondition, Naming.exitCondition]

def sectionTitles : List String := ["Inputs", "Calculations", "Strategy Logic", "Plots"]

def Line.Within (allowed : Vocabulary) : Line → Prop
  | .empty => True
  | .note text => text ∈ ownComments.map Script.commentLine
  | .statement value => value.Within allowed
  | .guard condition => condition ∈ combinedNames
  | .order value => value.function ∈ orderFunctions ∧ value.Within allowed

namespace Program

def sections (program : Program) : List (String × List Line) :=
  [ ("Inputs", Line.orComment "No indicator inputs" (program.inputs.map .statement)),
    ("Calculations",
      Line.orComment "Price series are used directly" (program.calculations.map .statement)),
    ("Strategy Logic", program.logicLines),
    ("Plots", program.plotLines) ]

theorem title_mem {program : Program} {part : String × List Line}
    (member : part ∈ program.sections) : part.1 ∈ sectionTitles :=
  List.mem_map_of_mem (f := Prod.fst) member

theorem lines_eq (program : Program) :
    program.lines = .note program.options.versionLine :: .call program.options.declaration ::
      program.sections.flatMap fun part => Line.banner part.1 ++ part.2 := by
  simp [lines, bodyLines, sections]

end Program

section Supplies

variable {allowed : Vocabulary} {catalogue : Catalogue} {graph : Graph}

private theorem within_comment {text : String} (own : text ∈ ownComments) :
    (Line.comment text).Within allowed :=
  List.mem_map_of_mem own

private theorem within_orComment {text : String} {lines : List Line} (own : text ∈ ownComments)
    (each : ∀ line ∈ lines, line.Within allowed) :
    ∀ line ∈ Line.orComment text lines, line.Within allowed := by
  unfold Line.orComment
  split
  · exact List.forall_mem_singleton.2 (within_comment own)
  · exact each

private theorem within_guardedLines {condition : String} {orders : List Call}
    (combined : condition ∈ combinedNames)
    (each : ∀ call ∈ orders, call.function ∈ orderFunctions ∧ call.Within allowed) :
    ∀ line ∈ Program.guardedLines condition orders, line.Within allowed := by
  unfold Program.guardedLines
  split
  · simp
  · rw [List.forall_mem_cons, List.forall_mem_cons, List.forall_mem_map]
    exact ⟨trivial, combined, each⟩

variable (supplies : Supplies allowed catalogue graph) (options : Options)
include supplies

private theorem Supplies.within_combinedLines :
    ∀ line ∈ (Program.ofPlan options (planWith catalogue graph)).combinedLines,
      line.Within allowed := by
  have blank : Line.Within allowed .empty := trivial
  unfold Program.combinedLines
  refine List.forall_mem_append.2 ⟨?_, ?_⟩
  · split
    · rename_i expr found
      rw [List.forall_mem_cons, List.forall_mem_singleton]
      exact ⟨blank, supplies.conditions.1, supplies.within_entryExpr found⟩
    · simp
  · split
    · rename_i expr found
      rw [List.forall_mem_append, List.forall_mem_singleton]
      refine ⟨?_, supplies.conditions.2, supplies.within_exitExpr found⟩
      split
      · exact List.forall_mem_singleton.2 blank
      · simp
    · simp

private theorem Supplies.within_logicLines :
    ∀ line ∈ (Program.ofPlan options (planWith catalogue graph)).logicLines,
      line.Within allowed := by
  unfold Program.logicLines
  simp only [List.forall_mem_append]
  refine ⟨⟨⟨⟨⟨?_, supplies.within_combinedLines options⟩, ?_⟩, ?_⟩, ?_⟩, ?_⟩
  · exact List.forall_mem_map.2 supplies.within_definitions
  · exact within_guardedLines (by decide) supplies.within_entryOrders
  · exact within_guardedLines (by decide) supplies.within_exitOrders
  · unfold Program.protectionLines
    split
    · simp
    · rw [List.forall_mem_cons, List.forall_mem_cons, List.forall_mem_map]
      exact ⟨trivial, within_comment (by decide), supplies.within_protections⟩
  · split
    · exact List.forall_mem_singleton.2 (within_comment (by decide))
    · simp

private theorem Supplies.within_plotLines :
    ∀ line ∈ (Program.ofPlan options (planWith catalogue graph)).plotLines,
      line.Within allowed := by
  unfold Program.plotLines
  simp only [List.forall_mem_append]
  refine ⟨⟨List.forall_mem_map.2 supplies.within_plots, ?_⟩, ?_⟩
  · split
    · exact List.forall_mem_singleton.2 supplies.within_entryMarker
    · simp
  · split
    · exact List.forall_mem_singleton.2 supplies.within_exitMarker
    · simp

theorem Supplies.within_sections :
    ∀ part ∈ (Program.ofPlan options (planWith catalogue graph)).sections, ∀ line ∈ part.2,
      line.Within allowed := by
  simp only [Program.sections, List.forall_mem_cons, List.not_mem_nil, false_implies,
    implies_true, and_true]
  refine ⟨?_, ?_, supplies.within_logicLines options, supplies.within_plotLines options⟩
  · exact within_orComment (by decide) (List.forall_mem_map.2 supplies.within_inputs)
  · exact within_orComment (by decide) (List.forall_mem_map.2 supplies.within_calculations)

end Supplies

/-! ### Flat lines -/

section Flat

variable {allowed : Vocabulary} {catalogue : Catalogue} {graph : Graph}

theorem Line.Within.flat {line : Line} (own : allowed.IsFlat) (within : line.Within allowed) :
    Flat line.render.toList := by
  cases line with
  | empty => exact fun _ absent => absurd absent List.not_mem_nil
  | note text =>
    obtain ⟨comment, -, rfl⟩ := List.mem_map.1 within
    exact (tidy_comment comment).flat
  | statement value => exact value.flat_render own within
  | guard condition =>
    have each : ∀ name ∈ combinedNames, Flat (Line.guard name).render.toList := by decide
    exact each condition within
  | order value =>
    exact Script.flat_indent (value.flat_render own within.2) 1

private theorem flat_banner {title : String} (own : title ∈ sectionTitles) :
    ∀ line ∈ Line.banner title, Flat line.render.toList := by
  have plain : ∀ title ∈ sectionTitles,
      (Text.upper title).toList.all Script.isPlain = true := by decide
  exact fun line member => (tidy_banner (plain title own) line member).flat

/-- The text of a program has the lines of the program when everything that it writes as it is
stands on one line. -/
theorem Supplies.lines_render (supplies : Supplies allowed catalogue graph)
    (own : allowed.IsFlat) (options : Options) :
    Text.lines (Program.ofPlan options (planWith catalogue graph)).render =
      (Program.ofPlan options (planWith catalogue graph)).lines.map Line.render := by
  refine Program.lines_render _ ?_
  rw [Program.lines_eq, List.forall_mem_cons, List.forall_mem_cons]
  refine ⟨(tidy_versionLine options).flat, ?_, fun line member => ?_⟩
  · exact (sound_declaration options fun _ own => own).tidy _ List.mem_cons_self |>.flat
  · obtain ⟨part, inside, stands⟩ := List.mem_flatMap.1 member
    rcases List.mem_append.1 stands with banner | body
    · exact flat_banner (Program.title_mem inside) line banner
    · exact (supplies.within_sections options part inside line body).flat own

end Flat

end StrategyCompiler.Compilation
