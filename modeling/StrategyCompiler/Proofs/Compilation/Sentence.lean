import StrategyCompiler.Proofs.Compilation.Forms
import StrategyCompiler.Proofs.Number.Numeral
import StrategyCompiler.Proofs.Script.Grammar
/-!
The grammar of scripts.  A sentence has a line for the version, a line for the declaration, and four
sections under banners; in a section lines stand alone, or they are orders in a block under a
combined condition.
-/

set_option autoImplicit false

namespace StrategyCompiler.Compilation

open Number (isDigits)
open Script (Call Expr Flat IsName Phrase Source Statement grammar isDotted lineFunctions
  orderFunctions)
open Script.Page (bannerRule)

def IsCall (numeral : String → Prop) (function text : String) : Prop :=
  ∃ arguments : List String, (∀ argument ∈ arguments, Phrase numeral 0 argument) ∧
    text = function ++ "(" ++ ", ".intercalate arguments ++ ")"

inductive Form
  | blank
  | comment
  | assign (name : String)
  | unpack (names : List String)
  | guard (condition : String)
  | order (function : String)
  | call (function : String)
  deriving DecidableEq

def Form.standsAlone : Form → Bool
  | blank | comment | assign _ | unpack _ => true
  | guard _ | order _ => false
  | call function => lineFunctions.contains function

inductive HasForm (numeral : String → Prop) : Form → String → Prop
  | blank : HasForm numeral .blank ""
  | comment (text : String) : HasForm numeral .comment ("//" ++ text)
  | assign {name value : String} :
      IsName name → Phrase numeral 1 value → HasForm numeral (.assign name) (name ++ " = " ++ value)
  | unpack {names : List String} {function call : String} :
      names ≠ [] → (∀ name ∈ names, IsName name) → isDotted function = true →
      IsCall numeral function call →
      HasForm numeral (.unpack names) ("[" ++ ", ".intercalate names ++ "] = " ++ call)
  | guard {condition : String} :
      condition ∈ combinedNames → HasForm numeral (.guard condition) ("if " ++ condition)
  | order {function call : String} :
      IsCall numeral function call → HasForm numeral (.order function) ("    " ++ call)
  | call {function call : String} :
      IsCall numeral function call → HasForm numeral (.call function) call

def titleLines : List String :=
  ["// INPUTS", "// CALCULATIONS", "// STRATEGY LOGIC", "// PLOTS"]

/-- The lines of a section.  A block has orders, which follow directly on its condition. -/
inductive Body (numeral : String → Prop) : List String → Prop
  | nil : Body numeral []
  | line {form : Form} {text : String} {rest : List String} :
      form.standsAlone = true → text ∉ titleLines → HasForm numeral form text →
      Body numeral rest → Body numeral (text :: rest)
  | block {condition head : String} {orders rest : List String} :
      HasForm numeral (.guard condition) head → orders ≠ [] →
      (∀ order ∈ orders, ∃ function ∈ orderFunctions, HasForm numeral (.order function) order) →
      Body numeral rest → Body numeral (head :: (orders ++ rest))

def titled (title : String) (lines : List String) : List String :=
  "" :: bannerRule :: title :: bannerRule :: lines

inductive Sections (numeral : String → Prop) : List String → Prop
  | intro {inputs calculations logic plots : List String} :
      Body numeral inputs → Body numeral calculations → Body numeral logic → Body numeral plots →
      Sections numeral (titled "// INPUTS" inputs ++ titled "// CALCULATIONS" calculations ++
        titled "// STRATEGY LOGIC" logic ++ titled "// PLOTS" plots)

inductive Sentence (numeral : String → Prop) : List String → Prop
  | intro {digits : List Char} {declaration : String} {rest : List String} :
      isDigits digits = true → IsCall numeral "strategy" declaration → Sections numeral rest →
      Sentence numeral (("//@version=" ++ String.ofList digits) :: declaration :: rest)

theorem Sentence.call {numeral : String → Prop} {version declaration : String}
    {rest : List String} (sentence : Sentence numeral (version :: declaration :: rest)) :
    IsCall numeral "strategy" declaration := by
  cases sentence with
  | intro _ call _ => exact call

/-! ### The titles of a sentence -/

private theorem not_mem_titleLines {text : String} (other : text.toList.head? ≠ some '/') :
    text ∉ titleLines := by
  have each : ∀ title ∈ titleLines, title.toList.head? = some '/' := by decide
  exact fun title => other (each text title)

private theorem head?_append_of_ne {c : Char} {front : String} (nonempty : front.toList ≠ [])
    (first : front.toList.head? ≠ some c) (rest : String) :
    (front ++ rest).toList.head? ≠ some c := by
  rw [String.toList_append, List.head?_append_of_ne_nil _ nonempty]
  exact first

private theorem IsName.head?_ne {name : String} (own : IsName name) :
    name.toList ≠ [] ∧ name.toList.head? ≠ some '/' := by
  obtain ⟨ident, -⟩ := own
  rw [Script.isIdent, Bool.and_eq_true] at ident
  obtain ⟨chars, -⟩ := ident
  cases shape : name.toList with
  | nil =>
    rw [shape] at chars
    exact absurd chars (by decide)
  | cons c rest =>
    rw [shape, Script.isIdentChars, Bool.and_eq_true] at chars
    refine ⟨List.cons_ne_nil c rest, ?_⟩
    rintro ⟨⟩
    exact absurd chars.1 (by decide)

private theorem HasForm.not_title {numeral : String → Prop} {form : Form} {text : String}
    (own : HasForm numeral form text) (other : form ≠ .comment)
    (called : ∀ function, form = .call function → function ∈ lineFunctions) :
    text ∉ titleLines := by
  refine not_mem_titleLines ?_
  cases own with
  | blank => decide
  | comment => exact absurd rfl other
  | assign name _ =>
    obtain ⟨nonempty, first⟩ := IsName.head?_ne name
    rw [String.append_assoc]
    exact head?_append_of_ne nonempty first _
  | unpack =>
    rw [String.append_assoc, String.append_assoc]
    exact head?_append_of_ne (by decide) (by decide) _
  | guard => exact head?_append_of_ne (by decide) (by decide) _
  | order => exact head?_append_of_ne (by decide) (by decide) _
  | @call function _ call =>
    obtain ⟨arguments, -, rfl⟩ := call
    have each : ∀ function ∈ lineFunctions,
        function.toList ≠ [] ∧ function.toList.head? ≠ some '/' := by
      decide
    obtain ⟨nonempty, first⟩ := each function (called function rfl)
    rw [String.append_assoc, String.append_assoc]
    exact head?_append_of_ne nonempty first _

theorem Body.filter_titleLines {numeral : String → Prop} {lines : List String}
    (body : Body numeral lines) :
    lines.filter titleLines.contains = [] := by
  have none {text : String} (absent : text ∉ titleLines) : titleLines.contains text = false :=
    Bool.eq_false_iff.2 fun inside => absent (List.contains_iff_mem.1 inside)
  induction body with
  | nil => rfl
  | line alone absent _ _ ih => rw [List.filter_cons, none absent, if_neg Bool.false_ne_true, ih]
  | @block condition head orders rest guard _ orders' _ ih =>
    have first : head ∉ titleLines := guard.not_title (by simp) (by simp)
    have each : orders.filter titleLines.contains = [] := by
      refine List.filter_eq_nil_iff.2 fun order member => ?_
      obtain ⟨function, -, own⟩ := orders' order member
      rw [none (own.not_title (by simp) (by simp))]
      exact Bool.false_ne_true
    rw [List.filter_cons, none first, if_neg Bool.false_ne_true, List.filter_append, each, ih]
    rfl

private theorem filter_titled {numeral : String → Prop} {title : String} {lines : List String}
    (own : title ∈ titleLines) (body : Body numeral lines) :
    (titled title lines).filter titleLines.contains = [title] := by
  have empty : titleLines.contains "" = false := by decide
  have rule : titleLines.contains bannerRule = false := by decide
  have shown : titleLines.contains title = true := List.contains_iff_mem.2 own
  simp only [titled, List.filter_cons, empty, rule, shown, body.filter_titleLines,
    if_neg Bool.false_ne_true, if_true]

theorem Sections.filter_titleLines {numeral : String → Prop} {lines : List String}
    (sections : Sections numeral lines) : lines.filter titleLines.contains = titleLines := by
  cases sections with
  | intro inputs calculations logic plots =>
    rw [List.filter_append, List.filter_append, List.filter_append,
      filter_titled (by decide) inputs, filter_titled (by decide) calculations,
      filter_titled (by decide) logic, filter_titled (by decide) plots]
    rfl

theorem filter_titleLines_header {version : String} {declaration : Call} {rest : List String}
    (function : declaration.function = "strategy") :
    (("//@version=" ++ version) :: declaration.render :: rest).filter titleLines.contains =
      rest.filter titleLines.contains := by
  have front : titleLines.contains ("//@version=" ++ version) = false := by
    have each : ∀ title ∈ titleLines, title.toList.take 3 = ['/', '/', ' '] := by decide
    refine Bool.eq_false_iff.2 fun inside => ?_
    have own := each _ (List.contains_iff_mem.1 inside)
    rw [String.toList_append] at own
    exact absurd own (by simp)
  have called : titleLines.contains declaration.render = false := by
    refine Bool.eq_false_iff.2 fun inside => ?_
    refine not_mem_titleLines ?_ (List.contains_iff_mem.1 inside)
    rw [Call.render, function, String.append_assoc, String.append_assoc]
    exact head?_append_of_ne (by decide) (by decide) _
  rw [List.filter_cons, front, if_neg Bool.false_ne_true, List.filter_cons, called,
    if_neg Bool.false_ne_true]

/-! ### Lines -/

def Line.form : Line → Form
  | .empty => .blank
  | .note _ => .comment
  | .statement (.assign (.single name) _) => .assign name
  | .statement (.assign (.several names) _) => .unpack names
  | .statement (.call value) => .call value.function
  | .guard condition => .guard condition
  | .order value => .order value.function

section Within

variable {numeral : String → Prop} (integers : ∀ value : Int, numeral (toString value))
include integers

theorem isCall_render {call : Call} (within : call.Within (grammar numeral)) :
    IsCall numeral call.function call.render :=
  ⟨_, Call.fits_arguments (Script.closed_grammar integers) within, rfl⟩

private theorem phrase_render {source : Source} (within : source.Within (grammar numeral)) :
    Phrase numeral 1 source.render := by
  have closed := Script.closed_grammar integers
  cases source with
  | expr value => exact Expr.fits_render closed within
  | call value => exact .loosen (by decide) (Call.fits_render closed within)
  | verbatim text => exact within

theorem Line.Within.hasForm {line : Line} (within : line.Within (grammar numeral)) :
    HasForm numeral line.form line.render := by
  cases line with
  | empty => exact .blank
  | note text =>
    obtain ⟨comment, -, rfl⟩ := List.mem_map.1 within
    have shape : Script.commentLine comment = "//" ++ (" " ++ Script.Page.flatten comment) := by
      rw [← String.append_assoc]
      rfl
    rw [Line.form, Line.render, shape]
    exact .comment _
  | statement value =>
    cases value with
    | assign target source =>
      cases target with
      | single name => exact .assign within.1 (phrase_render integers within.2)
      | several names =>
        cases source with
        | call value =>
          have call := isCall_render integers within.2.2
          have shape : (Statement.assign (.several names) (.call value)).render =
              "[" ++ ", ".intercalate names ++ "] = " ++ value.render := by
            simp [Statement.render, Script.Target.render, Source.render, ← String.toList_inj]
          rw [Line.form, Line.render, shape]
          exact .unpack within.1 within.2.1 within.2.2.function call
        | expr value => exact within.elim
        | verbatim text => exact within.elim
    | call value => exact .call (isCall_render integers within.2)
  | guard condition => exact .guard within
  | order value => exact .order (isCall_render integers within.2)

end Within

/-! ### Blocks -/

def Line.inBlock : Line → Bool
  | .guard _ | .order _ => true
  | .empty | .note _ | .statement _ => false

/-- Orders stand in blocks only, directly behind the condition, and no block is empty. -/
inductive Grouped : List Line → Prop
  | nil : Grouped []
  | line {line : Line} {rest : List Line} :
      line.inBlock = false → Grouped rest → Grouped (line :: rest)
  | block {condition : String} {orders : List Call} {rest : List Line} :
      orders ≠ [] → Grouped rest → Grouped (.guard condition :: (orders.map .order ++ rest))

theorem Grouped.append {first second : List Line} (front : Grouped first)
    (back : Grouped second) : Grouped (first ++ second) := by
  induction front with
  | nil => exact back
  | line alone _ ih => exact .line alone ih
  | block some _ ih =>
    rw [List.cons_append, List.append_assoc]
    exact .block some ih

theorem Grouped.of_forall {lines : List Line} (alone : ∀ line ∈ lines, line.inBlock = false) :
    Grouped lines := by
  induction lines with
  | nil => exact .nil
  | cons line rest ih =>
    obtain ⟨here, later⟩ := List.forall_mem_cons.1 alone
    exact .line here (ih later)

theorem Grouped.map {α : Type} (items : List α) {line : α → Line}
    (alone : ∀ item, (line item).inBlock = false) : Grouped (items.map line) :=
  .of_forall (List.forall_mem_map.2 fun item _ => alone item)

private theorem grouped_orComment (text : String) (statements : List Statement) :
    Grouped (Line.orComment text (statements.map .statement)) := by
  unfold Line.orComment
  split
  · exact .line rfl .nil
  · exact .map statements fun _ => rfl

theorem grouped_guardedLines (condition : String) (orders : List Call) :
    Grouped (Program.guardedLines condition orders) := by
  unfold Program.guardedLines
  split
  · exact .nil
  · rename_i some
    have block : Grouped (.guard condition :: (orders.map .order ++ [])) :=
      .block (by simpa using some) .nil
    rw [List.append_nil] at block
    exact .line rfl block

private theorem grouped_combinedLines (program : Program) : Grouped program.combinedLines := by
  refine .of_forall ?_
  unfold Program.combinedLines
  cases program.entry <;> cases program.exit <;> simp [Line.inBlock]

theorem grouped_protectionLines (program : Program) : Grouped program.protectionLines := by
  unfold Program.protectionLines
  split
  · exact .nil
  · exact .line rfl (.line rfl (.map program.protections fun _ => rfl))

private theorem grouped_logicLines (program : Program) : Grouped program.logicLines := by
  have definitions : Grouped (program.definitions.map Line.statement) :=
    .map program.definitions fun _ => rfl
  have last : Grouped (if program.definitions.isEmpty && program.protections.isEmpty then
      [.comment "No trading logic"] else []) := by
    split
    · exact .line rfl .nil
    · exact .nil
  exact ((((definitions.append (grouped_combinedLines program)).append
    (grouped_guardedLines Naming.entryCondition program.entryOrders)).append
    (grouped_guardedLines Naming.exitCondition program.exitOrders)).append
    (grouped_protectionLines program)).append last

private theorem grouped_plotLines (program : Program) : Grouped program.plotLines := by
  have marker (shown : Bool) (call : Call) : Grouped (if shown then [Line.call call] else []) := by
    cases shown with
    | false => exact .nil
    | true => exact .line rfl .nil
  exact ((Grouped.map program.plots fun _ => rfl).append (marker _ entryMarker)).append
    (marker _ exitMarker)

theorem grouped_sections (program : Program) :
    ∀ part ∈ program.sections, Grouped part.2 := by
  simp only [Program.sections, List.forall_mem_cons, List.not_mem_nil, false_implies,
    implies_true, and_true]
  exact ⟨grouped_orComment _ program.inputs, grouped_orComment _ program.calculations,
    grouped_logicLines program, grouped_plotLines program⟩

/-! ### Sentences -/

section Sentences

variable {numeral : String → Prop} (integers : ∀ value : Int, numeral (toString value))
include integers

private theorem Line.Within.not_title {line : Line} (within : line.Within (grammar numeral)) :
    line.render ∉ titleLines := by
  have own := within.hasForm integers
  cases line with
  | note text =>
    have each : ∀ text ∈ ownComments.map Script.commentLine, text ∉ titleLines := by decide
    exact each text within
  | statement value =>
    refine own.not_title ?_ ?_
    · cases value with
      | assign target => cases target <;> simp [Line.form]
      | call value => simp [Line.form]
    · cases value with
      | assign target => cases target <;> simp [Line.form]
      | call value =>
        rintro _ ⟨⟩
        exact within.1
  | empty | guard | order => exact own.not_title (by simp [Line.form]) (by simp [Line.form])

omit integers in
private theorem Line.Within.standsAlone {line : Line} (within : line.Within (grammar numeral))
    (alone : line.inBlock = false) : line.form.standsAlone = true := by
  cases line with
  | empty | note => rfl
  | statement value =>
    cases value with
    | assign target => cases target <;> rfl
    | call value => exact List.contains_iff_mem.2 within.1
  | guard | order => exact absurd alone (by simp [Line.inBlock])

/-- A section of the vocabulary of phrases whose orders stand in blocks is the body of a
sentence. -/
theorem Grouped.body {lines : List Line} (grouped : Grouped lines)
    (within : ∀ line ∈ lines, line.Within (grammar numeral)) :
    Body numeral (lines.map Line.render) := by
  induction grouped with
  | nil => exact .nil
  | line alone _ ih =>
    obtain ⟨here, later⟩ := List.forall_mem_cons.1 within
    exact .line (here.standsAlone alone) (here.not_title integers)
      (here.hasForm integers) (ih later)
  | block some _ ih =>
    obtain ⟨guard, behind⟩ := List.forall_mem_cons.1 within
    obtain ⟨orders, later⟩ := List.forall_mem_append.1 behind
    rw [List.map_cons, List.map_append]
    refine .block (guard.hasForm integers) (by simpa using some) ?_ (ih later)
    simp only [List.forall_mem_map] at orders ⊢
    exact fun order member => ⟨order.function, (orders order member).1,
      (orders order member).hasForm integers⟩

end Sentences

end StrategyCompiler.Compilation
