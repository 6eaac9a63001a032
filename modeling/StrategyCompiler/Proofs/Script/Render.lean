import StrategyCompiler.Proofs.Number.Text
import StrategyCompiler.Proofs.Script.Words
/-!
Rendered expressions, calls and statements are clean when the words that they write as they are
are clean.  Texts of users are written as literals, and those are clean in any case.
-/

set_option autoImplicit false

namespace StrategyCompiler.Script

open Catalogue (Setting)

private theorem Expr.clean_enclose {text : String} (demand strength : Nat)
    (clean : Clean text.toList) :
    Clean (Expr.enclose demand strength text).toList := by
  unfold Expr.enclose
  split
  · have enclosed := clean.round
    simpa using enclosed
  · exact clean

private theorem Comparator.clean_symbol (comparator : Comparator) :
    Clean comparator.symbol.toList := by
  cases comparator <;> exact Clean.ofPlain (by decide)

private theorem Operator.clean_symbol (operator : Operator) :
    Clean (" " ++ operator.symbol ++ " ").toList := by
  cases operator with
  | divide => exact Clean.division
  | add | subtract | multiply => exact Clean.ofPlain (by decide)

mutual

private theorem Expr.clean_renderAt (demand : Nat) : ∀ (expr : Expr), CleanWords expr.reads →
    CleanWords expr.functions → Clean (expr.renderAt demand).toList
  | .name text, names, _ => by
    rw [Expr.renderAt]
    exact names text (by simp [Expr.reads])
  | .number value, _, _ => by
    rw [Expr.renderAt]
    exact value.clean_typed
  | .bool value, _, _ => by
    rw [Expr.renderAt]
    cases value <;> exact Clean.ofPlain (by decide)
  | .string value, _, _ => by
    rw [Expr.renderAt]
    exact Clean.literal value
  | .call function arguments, names, functions => by
    rw [Expr.reads] at names
    rw [Expr.functions, CleanWords, List.forall_mem_cons] at functions
    have between := Clean.intercalate ", " (Clean.ofPlain (by decide))
      (Expr.clean_renderEach 0 arguments names functions.2)
    have whole := functions.1.append between.round
    simpa [Expr.renderAt] using whole
  | .compare comparator left right, names, functions => by
    rw [Expr.reads, CleanWords.append_iff] at names
    rw [Expr.functions, CleanWords.append_iff] at functions
    rw [Expr.renderAt]
    refine Expr.clean_enclose _ _ ?_
    have first := Expr.clean_renderAt 5 left names.1 functions.1
    have second := Expr.clean_renderAt 5 right names.2 functions.2
    have blank : Clean " ".toList := Clean.ofPlain (by decide)
    simp only [String.toList_append]
    exact (((first.append blank).append comparator.clean_symbol).append blank).append second
  | .arith operator left right, names, functions => by
    rw [Expr.reads, CleanWords.append_iff] at names
    rw [Expr.functions, CleanWords.append_iff] at functions
    rw [Expr.renderAt]
    refine Expr.clean_enclose _ _ ?_
    have first := Expr.clean_renderAt operator.strength left names.1 functions.1
    have second := Expr.clean_renderAt (operator.strength + 1) right names.2 functions.2
    have whole := (first.append operator.clean_symbol).append second
    simpa [String.append_assoc] using whole
  | .not operand, names, functions => by
    rw [Expr.reads] at names
    rw [Expr.functions] at functions
    rw [Expr.renderAt]
    refine Expr.clean_enclose _ _ ?_
    rw [String.toList_append]
    exact (Clean.ofPlain (by decide)).append (Expr.clean_renderAt 3 operand names functions)
  | .and terms, names, functions => by
    rw [Expr.reads] at names
    rw [Expr.functions] at functions
    rw [Expr.renderAt]
    refine Expr.clean_enclose _ _ (Clean.intercalate _ (Clean.ofPlain (by decide)) ?_)
    exact Expr.clean_renderEach 3 terms names functions
  | .or terms, names, functions => by
    rw [Expr.reads] at names
    rw [Expr.functions] at functions
    rw [Expr.renderAt]
    refine Expr.clean_enclose _ _ (Clean.intercalate _ (Clean.ofPlain (by decide)) ?_)
    exact Expr.clean_renderEach 2 terms names functions

private theorem Expr.clean_renderEach (demand : Nat) : ∀ (terms : List Expr),
    CleanWords (Expr.readsOf terms) → CleanWords (Expr.functionsOf terms) →
      CleanWords (Expr.renderEach demand terms)
  | [], _, _ => by simp [Expr.renderEach, CleanWords]
  | term :: rest, names, functions => by
    rw [Expr.readsOf, CleanWords.append_iff] at names
    rw [Expr.functionsOf, CleanWords.append_iff] at functions
    rw [Expr.renderEach, CleanWords, List.forall_mem_cons]
    exact ⟨Expr.clean_renderAt demand term names.1 functions.1,
      Expr.clean_renderEach demand rest names.2 functions.2⟩

end

theorem Expr.clean_render {expr : Expr} (words : CleanWords expr.words) :
    Clean expr.render.toList := by
  rw [Expr.words, CleanWords.append_iff] at words
  exact expr.clean_renderAt 0 words.1 words.2

private theorem clean_setting {setting : Setting}
    (words : CleanWords (Operand.setting setting).words) :
    Clean setting.literal.toList := by
  cases setting with
  | int value => exact Number.clean_toString_int value
  | float value => exact value.clean_literal
  | bool value => cases value <;> exact Clean.ofPlain (by decide)
  | string value => exact Clean.literal value
  | source series => exact words series (by simp [Operand.words, Operand.reads])

theorem Operand.clean_render {operand : Operand} (words : CleanWords operand.words) :
    Clean operand.render.toList := by
  cases operand with
  | expr value => exact Expr.clean_render words
  | setting value => exact clean_setting words
  | texts items =>
    have each : ∀ text ∈ items.map literal, Clean text.toList := by
      simpa using fun item _ => Clean.literal item
    have between := Clean.intercalate ", " (Clean.ofPlain (by decide)) each
    have whole := between.square
    simpa [Operand.render] using whole

theorem Argument.clean_render {argument : Argument} (words : CleanWords argument.words) :
    Clean argument.render.toList := by
  rw [Argument.words, CleanWords.append_iff] at words
  have value := Operand.clean_render words.2
  unfold Argument.render
  split
  · rename_i name named
    have own : Clean name.toList := words.1 name (by simp [named])
    rw [String.toList_append, String.toList_append]
    exact (own.append (Clean.ofPlain (by decide))).append value
  · exact value

theorem Call.clean_render {call : Call} (words : CleanWords call.words) :
    Clean call.render.toList := by
  rw [Call.words, CleanWords, List.forall_mem_cons] at words
  have each : ∀ text ∈ call.arguments.map Argument.render, Clean text.toList := by
    intro text member
    obtain ⟨argument, inside, rfl⟩ := List.mem_map.1 member
    refine Argument.clean_render fun word own => words.2 word ?_
    exact List.mem_flatMap.2 ⟨argument, inside, own⟩
  have between := Clean.intercalate ", " (Clean.ofPlain (by decide)) each
  have whole := words.1.append between.round
  simpa [Call.render] using whole

theorem Target.clean_render {target : Target} (words : CleanWords target.names) :
    Clean target.render.toList := by
  cases target with
  | single name => exact words name (by simp [Target.names])
  | several names =>
    have each : ∀ name ∈ names, Clean name.toList := words
    have between := Clean.intercalate ", " (Clean.ofPlain (by decide)) each
    have whole := between.square
    simpa [Target.render] using whole

theorem Source.clean_render {source : Source} (words : CleanWords source.words) :
    Clean source.render.toList := by
  cases source with
  | expr value => exact Expr.clean_render words
  | call value => exact Call.clean_render words
  | verbatim text => exact words text (by simp [Source.words])

theorem Statement.clean_render {statement : Statement} (words : CleanWords statement.words) :
    Clean statement.render.toList := by
  cases statement with
  | assign target source =>
    rw [Statement.words, CleanWords.append_iff] at words
    have equals : Clean " = ".toList := Clean.ofPlain (by decide)
    rw [Statement.render, String.toList_append, String.toList_append]
    exact ((Target.clean_render words.1).append equals).append (Source.clean_render words.2)
  | call value => exact Call.clean_render words

end StrategyCompiler.Script
