import StrategyCompiler.Proofs.Number.Text
import StrategyCompiler.Proofs.Script.Scan
import StrategyCompiler.Script.Statement
/-!
What a script may write as it is.  Texts of users stand in literals only; everything else is a word,
a label, a variable, a number or a filled template, and a vocabulary says which of these are
allowed.  A family of texts that is closed under the ways in which expressions are written then
holds every rendered expression of the vocabulary.
-/

set_option autoImplicit false

namespace StrategyCompiler.Script

open Number (Double)

def lineFunctions : List String := ["strategy.exit", "plot", "hline", "plotshape"]

def orderFunctions : List String := ["strategy.entry", "strategy.close_all"]

/-- What may stand in a script as it is: words, labels of arguments, variables that are assigned,
functions that are called for their effect, numbers, and filled templates. -/
structure Vocabulary where
  word : String → Prop
  label : String → Prop
  target : String → Prop
  effect : String → Prop
  number : Double → Prop
  text : String → Prop

section Within

variable (allowed : Vocabulary)

mutual

/-- An expression of a vocabulary.  A chain has terms. -/
def Expr.Within : Expr → Prop
  | .name text => allowed.word text
  | .number value => allowed.number value
  | .bool _ | .string _ => True
  | .call function arguments => allowed.word function ∧ Expr.AllWithin arguments
  | .compare _ left right | .arith _ left right => left.Within ∧ right.Within
  | .not operand => operand.Within
  | .and terms | .or terms => terms ≠ [] ∧ Expr.AllWithin terms

def Expr.AllWithin : List Expr → Prop
  | [] => True
  | term :: rest => term.Within ∧ Expr.AllWithin rest

end

def Operand.Within : Operand → Prop
  | .expr value => value.Within allowed
  | .setting (.float value) => allowed.number value
  | .setting (.source series) => allowed.word series
  | .setting _ | .texts _ => True

structure Argument.Within (argument : Argument) : Prop where
  label : ∀ name ∈ argument.name, allowed.label name
  value : argument.value.Within allowed

structure Call.Within (call : Call) : Prop where
  function : allowed.word call.function
  arguments : ∀ argument ∈ call.arguments, argument.Within allowed

def Source.Within : Source → Prop
  | .expr value => value.Within allowed
  | .call value => value.Within allowed
  | .verbatim text => allowed.text text

/-- A statement of a vocabulary.  Only a call yields several values at once. -/
def Statement.Within : Statement → Prop
  | .assign (.single name) source => allowed.target name ∧ source.Within allowed
  | .assign (.several names) (.call value) =>
    names ≠ [] ∧ (∀ name ∈ names, allowed.target name) ∧ value.Within allowed
  | .assign (.several _) _ => False
  | .call value => allowed.effect value.function ∧ value.Within allowed

end Within

theorem Expr.allWithin_iff {allowed : Vocabulary} {terms : List Expr} :
    Expr.AllWithin allowed terms ↔ ∀ term ∈ terms, term.Within allowed := by
  induction terms with
  | nil => simp [Expr.AllWithin]
  | cons term rest ih => rw [Expr.AllWithin, ih, List.forall_mem_cons]

/-- A family of texts, by the strength that their place demands, that is closed under the ways in
which expressions of a vocabulary are written. -/
structure Vocabulary.Closed (allowed : Vocabulary) (fits : Nat → String → Prop) : Prop where
  loosen : ∀ {strength demand text}, demand ≤ strength → fits strength text → fits demand text
  group : ∀ {text}, fits 1 text → fits 7 ("(" ++ text ++ ")")
  word : ∀ {text}, allowed.word text → fits 7 text
  number : ∀ {value}, allowed.number value → fits 7 value.typed
  float : ∀ {value}, allowed.number value → fits 7 value.literal
  integer : ∀ value : Int, fits 7 (toString value)
  truth : ∀ value : Bool, fits 7 (if value then "true" else "false")
  literal : ∀ value, fits 7 (literal value)
  call : ∀ {function arguments}, allowed.word function →
    (∀ argument ∈ arguments, fits 0 argument) →
      fits 7 (function ++ "(" ++ ", ".intercalate arguments ++ ")")
  list : ∀ {items}, (∀ item ∈ items, fits 7 item) → fits 7 ("[" ++ ", ".intercalate items ++ "]")
  compare : ∀ (comparator : Comparator) {left right}, fits 5 left → fits 5 right →
    fits 4 (left ++ " " ++ comparator.symbol ++ " " ++ right)
  arith : ∀ (operator : Operator) {left right}, fits operator.strength left →
    fits (operator.strength + 1) right →
      fits operator.strength (left ++ " " ++ operator.symbol ++ " " ++ right)
  not : ∀ {operand}, fits 3 operand → fits 3 ("not " ++ operand)
  and : ∀ {terms}, terms ≠ [] → (∀ term ∈ terms, fits 3 term) → fits 2 (" and ".intercalate terms)
  or : ∀ {terms}, terms ≠ [] → (∀ term ∈ terms, fits 2 term) → fits 1 (" or ".intercalate terms)
  named : ∀ {label value}, allowed.label label → fits 1 value → fits 0 (label ++ "=" ++ value)

section Closed

variable {allowed : Vocabulary} {fits : Nat → String → Prop}

theorem Vocabulary.Closed.enclose (closed : allowed.Closed fits) {strength demand : Nat}
    {text : String} (positive : 1 ≤ strength) (small : demand ≤ 7) (own : fits strength text) :
    fits demand (Expr.enclose demand strength text) := by
  unfold Expr.enclose
  split
  · exact closed.loosen small (closed.group (closed.loosen positive own))
  · rename_i enough
    exact closed.loosen (Nat.le_of_not_lt enough) own

private theorem Operator.strength_bounds (operator : Operator) :
    1 ≤ operator.strength ∧ operator.strength + 1 ≤ 7 := by
  cases operator <;> decide

private theorem Expr.renderEach_ne_nil (demand : Nat) {terms : List Expr} (some : terms ≠ []) :
    Expr.renderEach demand terms ≠ [] := by
  cases terms with
  | nil => exact absurd rfl some
  | cons term rest => simp [Expr.renderEach]

mutual

private theorem Expr.fits_renderAt (closed : allowed.Closed fits) {demand : Nat}
    (small : demand ≤ 7) :
    ∀ (expr : Expr), expr.Within allowed → fits demand (expr.renderAt demand)
  | .name text, within => by
    rw [Expr.Within] at within
    rw [Expr.renderAt]
    exact closed.loosen small (closed.word within)
  | .number value, within => by
    rw [Expr.Within] at within
    rw [Expr.renderAt]
    exact closed.loosen small (closed.number within)
  | .bool value, _ => by
    rw [Expr.renderAt]
    exact closed.loosen small (closed.truth value)
  | .string value, _ => by
    rw [Expr.renderAt]
    exact closed.loosen small (closed.literal value)
  | .call function arguments, within => by
    rw [Expr.Within] at within
    rw [Expr.renderAt]
    have each := Expr.fits_renderEach closed (Nat.zero_le 7) arguments within.2
    exact closed.loosen small (closed.call within.1 each)
  | .compare comparator left right, within => by
    rw [Expr.Within] at within
    rw [Expr.renderAt]
    have first := Expr.fits_renderAt closed (by decide : 5 ≤ 7) left within.1
    have second := Expr.fits_renderAt closed (by decide : 5 ≤ 7) right within.2
    exact closed.enclose (by decide) small (closed.compare comparator first second)
  | .arith operator left right, within => by
    rw [Expr.Within] at within
    rw [Expr.renderAt]
    obtain ⟨positive, below⟩ := operator.strength_bounds
    have first := Expr.fits_renderAt closed (Nat.le_of_succ_le below) left within.1
    have second := Expr.fits_renderAt closed below right within.2
    exact closed.enclose positive small (closed.arith operator first second)
  | .not operand, within => by
    rw [Expr.Within] at within
    rw [Expr.renderAt]
    have own := Expr.fits_renderAt closed (by decide : 3 ≤ 7) operand within
    exact closed.enclose (by decide) small (closed.not own)
  | .and terms, within => by
    rw [Expr.Within] at within
    rw [Expr.renderAt]
    have each := Expr.fits_renderEach closed (by decide : 3 ≤ 7) terms within.2
    have some := Expr.renderEach_ne_nil 3 within.1
    exact closed.enclose (by decide) small (closed.and some each)
  | .or terms, within => by
    rw [Expr.Within] at within
    rw [Expr.renderAt]
    have each := Expr.fits_renderEach closed (by decide : 2 ≤ 7) terms within.2
    have some := Expr.renderEach_ne_nil 2 within.1
    exact closed.enclose (by decide) small (closed.or some each)

private theorem Expr.fits_renderEach (closed : allowed.Closed fits) {demand : Nat}
    (small : demand ≤ 7) :
    ∀ (terms : List Expr), Expr.AllWithin allowed terms →
      ∀ text ∈ Expr.renderEach demand terms, fits demand text
  | [], _ => by simp [Expr.renderEach]
  | term :: rest, within => by
    rw [Expr.AllWithin] at within
    rw [Expr.renderEach, List.forall_mem_cons]
    exact ⟨Expr.fits_renderAt closed small term within.1,
      Expr.fits_renderEach closed small rest within.2⟩

end

private theorem Expr.renderAt_one (expr : Expr) : expr.renderAt 1 = expr.render := by
  have strong (operator : Operator) : ¬ operator.strength < 1 :=
    Nat.not_lt_of_le operator.strength_bounds.1
  cases expr <;> simp [Expr.render, Expr.renderAt, Expr.enclose, strong]

theorem Expr.fits_render (closed : allowed.Closed fits) {expr : Expr}
    (within : expr.Within allowed) : fits 1 expr.render := by
  rw [← Expr.renderAt_one]
  exact Expr.fits_renderAt closed (by decide) expr within

theorem Operand.fits_render (closed : allowed.Closed fits) {operand : Operand}
    (within : operand.Within allowed) : fits 1 operand.render := by
  cases operand with
  | expr value => exact Expr.fits_render closed within
  | setting value =>
    cases value with
    | int value => exact closed.loosen (by decide) (closed.integer value)
    | float value => exact closed.loosen (by decide) (closed.float within)
    | bool value => exact closed.loosen (by decide) (closed.truth value)
    | string value => exact closed.loosen (by decide) (closed.literal value)
    | source series => exact closed.loosen (by decide) (closed.word within)
  | texts items =>
    have each : ∀ item ∈ items.map Script.literal, fits 7 item :=
      List.forall_mem_map.2 fun item _ => closed.literal item
    exact closed.loosen (by decide) (closed.list each)

theorem Argument.fits_render (closed : allowed.Closed fits) {argument : Argument}
    (within : argument.Within allowed) : fits 0 argument.render := by
  have value := Operand.fits_render closed within.value
  unfold Argument.render
  split
  · rename_i label named
    exact closed.named (within.label label named) value
  · exact closed.loosen (Nat.zero_le 1) value

theorem Call.fits_arguments (closed : allowed.Closed fits) {call : Call}
    (within : call.Within allowed) :
    ∀ argument ∈ call.arguments.map Argument.render, fits 0 argument :=
  List.forall_mem_map.2 fun argument member =>
    Argument.fits_render closed (within.arguments argument member)

theorem Call.fits_render (closed : allowed.Closed fits) {call : Call}
    (within : call.Within allowed) : fits 7 call.render :=
  closed.call within.function (Call.fits_arguments closed within)

end Closed

/-! ### Flat texts -/

private theorem flat_intercalate {separator : String} {texts : List String}
    (between : Flat separator.toList)
    (each : ∀ text ∈ texts, Flat text.toList) : Flat (separator.intercalate texts).toList := by
  induction texts with
  | nil => simp [Flat]
  | cons text rest ih =>
    obtain ⟨here, later⟩ := List.forall_mem_cons.1 each
    cases rest with
    | nil => rwa [String.intercalate_singleton]
    | cons next more =>
      rw [String.intercalate_cons_cons, String.toList_append, String.toList_append]
      exact (here.append between).append (ih later)

structure Vocabulary.IsFlat (allowed : Vocabulary) : Prop where
  words : ∀ word, allowed.word word → Flat word.toList
  labels : ∀ label, allowed.label label → Flat label.toList
  targets : ∀ name, allowed.target name → Flat name.toList
  texts : ∀ text, allowed.text text → Flat text.toList

theorem Vocabulary.IsFlat.closed {allowed : Vocabulary} (own : allowed.IsFlat) :
    allowed.Closed fun _ text => Flat text.toList where
  loosen := fun _ flat => flat
  group := by
    intro text flat
    have round : Flat ('(' :: (text.toList ++ [')'])) := by
      simpa [Flat, or_imp, forall_and] using flat
    simpa using round
  word := own.words _
  number := fun _ => (Double.clean_typed _).flat
  float := fun _ => (Double.clean_literal _).flat
  integer := fun value => (Number.clean_toString_int value).flat
  truth := by
    intro value
    cases value <;> decide
  literal := fun value => (Clean.literal value).flat
  call := by
    intro function arguments word each
    have inside := flat_intercalate (by decide : Flat ", ".toList) each
    simpa [String.toList_append] using
      ((own.words function word).append (by decide : Flat ['('])).append
        (inside.append (by decide : Flat [')']))
  list := by
    intro items each
    have inside := flat_intercalate (by decide : Flat ", ".toList) each
    simpa [String.toList_append] using
      (by decide : Flat ['[']).append (inside.append (by decide : Flat [']']))
  compare := by
    intro comparator left right first second
    have symbol : Flat (" " ++ comparator.symbol ++ " ").toList := by
      cases comparator <;> decide
    simpa [String.toList_append] using (first.append symbol).append second
  arith := by
    intro operator left right first second
    have symbol : Flat (" " ++ operator.symbol ++ " ").toList := by
      cases operator <;> decide
    simpa [String.toList_append] using (first.append symbol).append second
  not := by
    intro operand flat
    rw [String.toList_append]
    exact (by decide : Flat "not ".toList).append flat
  and := fun _ each => flat_intercalate (by decide) each
  or := fun _ each => flat_intercalate (by decide) each
  named := by
    intro label value named flat
    rw [String.toList_append, String.toList_append]
    exact ((own.labels label named).append (by decide)).append flat

theorem Target.flat_render {target : Target}
    (names : ∀ name ∈ target.names, Flat name.toList) : Flat target.render.toList := by
  cases target with
  | single name => exact names name (List.mem_singleton_self name)
  | several own =>
    have inside := flat_intercalate (by decide : Flat ", ".toList) names
    simpa [Target.render, Target.names, String.toList_append] using
      (by decide : Flat ['[']).append (inside.append (by decide : Flat [']']))

section IsFlat

variable {allowed : Vocabulary} (own : allowed.IsFlat)
include own

theorem Call.flat_render {call : Call} (within : call.Within allowed) : Flat call.render.toList :=
  Call.fits_render own.closed within

theorem Source.flat_render {source : Source} (within : source.Within allowed) :
    Flat source.render.toList := by
  cases source with
  | expr value => exact Expr.fits_render own.closed within
  | call value => exact Call.flat_render own within
  | verbatim text => exact own.texts text within

theorem Statement.flat_render {statement : Statement} (within : statement.Within allowed) :
    Flat statement.render.toList := by
  have assigned {target : Target} {source : Source}
      (names : ∀ name ∈ target.names, allowed.target name)
      (value : source.Within allowed) : Flat (Statement.assign target source).render.toList := by
    have front := Target.flat_render fun name member => own.targets name (names name member)
    have equals : Flat " = ".toList := by decide
    rw [Statement.render, String.toList_append, String.toList_append]
    exact (front.append equals).append (Source.flat_render own value)
  cases statement with
  | call value => exact Call.flat_render own within.2
  | assign target source =>
    cases target with
    | single name =>
      exact assigned (List.forall_mem_singleton.2 within.1) within.2
    | several names =>
      cases source with
      | call value => exact assigned within.2.1 within.2.2
      | expr value => exact within.elim
      | verbatim text => exact within.elim

end IsFlat

end StrategyCompiler.Script
