import StrategyCompiler.Proofs.Compilation.Structure
/-!
Compilations that fail.  With every catalogue the code of a result passes the check of its
structure; after a failure it is the script for the errors, which has one comment for each of them,
whatever the texts in errors and options are.
-/

set_option autoImplicit false

namespace StrategyCompiler.Compilation

open Diagnostic (Error Warning)
open Script (checkStructure)
open Script.Page (bannerRule flatten)

/-! ### The lines of the script for errors -/

def failureHead (options : Options) : List String :=
  [ "//@version=" ++ toString options.version, options.declaration.render, "", bannerRule,
    "// GENERATION FAILED", bannerRule, "// The strategy graph could not be compiled:" ]

def failureTail : List String :=
  ["", "plot(close, title=\"Price\", color=color.blue)"]

private theorem flatten_append (text more : String) :
    flatten (text ++ more) = flatten text ++ flatten more := by
  simp [flatten, String.ofList_append]

theorem render_errorComment (error : Error) :
    (Line.comment ("ERROR: " ++ error.message)).render = "// ERROR: " ++ flatten error.message := by
  have word : flatten "ERROR: " = "ERROR: " := by decide
  have join : "// " ++ ("ERROR: " ++ flatten error.message) =
      "// ERROR: " ++ flatten error.message := by
    rw [← String.append_assoc]
    rfl
  show "// " ++ flatten ("ERROR: " ++ error.message) = _
  rw [flatten_append, word, join]

private theorem render_fallbackLines (options : Options) (errors : List Error) :
    options.versionLine :: (fallbackLines options errors).map Line.render =
      failureHead options ++ (errors.map fun error => "// ERROR: " ++ flatten error.message) ++
        failureTail := by
  have title : Text.upper "Generation Failed" = "GENERATION FAILED" := by decide
  have notice : flatten "The strategy graph could not be compiled:" =
      "The strategy graph could not be compiled:" := by decide
  have price : pricePlot.render = "plot(close, title=\"Price\", color=color.blue)" := by decide
  have comments : (errors.map fun error => Line.comment ("ERROR: " ++ error.message)).map
      Line.render = errors.map fun error => "// ERROR: " ++ flatten error.message := by
    rw [List.map_map]
    exact List.map_congr_left fun error _ => render_errorComment error
  simp only [fallbackLines, List.map_append, comments]
  simp [failureHead, failureTail, Options.versionLine, Line.banner, Line.call, Line.comment,
    Line.render, Script.Statement.render, Script.bannerLines, Script.commentLine, title, notice,
    price]

theorem lines_fallbackScript (options : Options) (errors : List Error) :
    Text.lines (fallbackScript options errors) =
      failureHead options ++ (errors.map fun error => "// ERROR: " ++ flatten error.message) ++
        failureTail := by
  obtain ⟨steps, shape, writes⟩ := writes_fallback options errors
  have tidy := (sound_fallbackLines options errors).tidy
  rw [fallbackScript, shape, ← render_fallbackLines]
  refine Script.lines_layout options.versionLine_ne writes ?_
  refine List.forall_mem_cons.2 ⟨(tidy_versionLine options).flat, List.forall_mem_map.2 ?_⟩
  exact fun line member => (tidy line member).flat

/-! ### Results -/

/-- How a result can look: a success has no errors, a failure has some and the code that tells of
them; in either case the code passes the check. -/
def Coherent (options : Options) (result : Result) : Prop :=
  checkStructure result.code = .ok () ∧
    (result.success = true ∧ result.errors = [] ∨
      result.success = false ∧ result.errors ≠ [] ∧
        result.code = fallbackScript options result.errors)

private theorem coherent_rejected (options : Options) (graph : Graph) {errors : List Error}
    (some : errors ≠ []) (warnings : List Warning) :
    Coherent options (rejected options graph errors warnings) := by
  refine ⟨?_, .inr ⟨rfl, some, rfl⟩⟩
  exact checkStructure_fallback options errors

private theorem coherent_generate (options : Options) (plan : Plan) (warnings : List Warning) :
    Coherent options (generate options plan warnings) := by
  unfold generate
  dsimp only
  cases checked : checkStructure (Program.ofPlan options plan).render with
  | error fault => exact coherent_rejected options _ (by simp) _
  | ok passed => exact ⟨checked, .inl ⟨rfl, rfl⟩⟩

private theorem coherent_compile (catalogue : Catalogue) (options : Options) (graph : Graph) :
    Coherent options (compile catalogue options graph) := by
  unfold compile
  dsimp only
  split
  · exact coherent_generate options _ _
  · rename_i nonempty
    exact coherent_rejected options graph (by simpa using nonempty) _

/-- Apart from the structure of a script, a result tells of what the checks of the graph found. -/
theorem errors_compile (catalogue : Catalogue) (options : Options) (graph : Graph) :
    ((compile catalogue options graph).errors.filter fun error => !Validation.isStructural error) =
      (Validation.validate catalogue graph).errors := by
  have kept : ((Validation.validate catalogue graph).errors.filter fun error =>
      !Validation.isStructural error) = (Validation.validate catalogue graph).errors :=
    List.filter_eq_self.2 fun error member => by
      rw [Validation.not_isStructural_of_mem_validate member, Bool.not_false]
  have report : Validation.validate catalogue graph =
      Validation.validateIndex catalogue (.ofGraph graph) := rfl
  unfold compile
  dsimp only
  rw [← report]
  split
  · rename_i valid
    rw [List.isEmpty_iff.1 valid, generate]
    split <;> rfl
  · exact kept

/-- With every catalogue a result has code that passes the check, and it is a success exactly when
it has no errors; after a failure the code is the script for its errors.  That script passes the
check for all options and errors, and tells of every error on one line, in order. -/
theorem compile_wellFormed (catalogue : Catalogue) (options : Options) (graph : Graph)
    (errors : List Error) :
    (checkStructure (compile catalogue options graph).code = .ok () ∧
        ((compile catalogue options graph).success = true ↔
          (compile catalogue options graph).errors = []) ∧
        ((compile catalogue options graph).success = true ∨
          (compile catalogue options graph).code =
            fallbackScript options (compile catalogue options graph).errors)) ∧
      checkStructure (fallbackScript options errors) = .ok () ∧
      (Text.lines (fallbackScript options errors)).length = 9 + errors.length ∧
      Text.lines (fallbackScript options errors) =
        failureHead options ++ (errors.map fun error => "// ERROR: " ++ flatten error.message) ++
          failureTail := by
  obtain ⟨passes, outcome⟩ := coherent_compile catalogue options graph
  have lines := lines_fallbackScript options errors
  refine ⟨⟨passes, ?_, ?_⟩, checkStructure_fallback options errors, ?_, lines⟩
  · rcases outcome with ⟨success, none⟩ | ⟨failure, some, -⟩
    · exact iff_of_true success none
    · exact iff_of_false (by simp [failure]) some
  · rcases outcome with ⟨success, -⟩ | ⟨-, -, code⟩
    · exact .inl success
    · exact .inr code
  · rw [lines]
    simp only [failureHead, failureTail, List.length_append, List.length_cons, List.length_nil,
      List.length_map]
    omega

end StrategyCompiler.Compilation
