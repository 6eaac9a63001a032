import StrategyCompiler.Proofs.Compilation.Combined
/-!
Calls and the conditions under which they stand, read off the text of a script.  An indented line
stands under the condition of the last line in front of it that is not indented.
-/

set_option autoImplicit false

namespace StrategyCompiler.Compilation

open Script (Call IsName Statement isDotted isWordChar lineFunctions orderFunctions)

/-! ### Reading lines -/

def isIndented (line : String) : Bool := [' ', ' ', ' ', ' '].isPrefixOf line.toList

def guard? (line : String) : Option String :=
  match line.toList with
  | 'i' :: 'f' :: ' ' :: condition => some (String.ofList condition)
  | _ => none

/-- The word in front of a parenthesis, where a text starts with one. -/
def callee? (cs : List Char) : Option String :=
  if (cs.dropWhile isWordChar).head? = some '(' then some (String.ofList (cs.takeWhile isWordChar))
  else none

def called? (line : String) : Option String := callee? (line.toList.dropWhile fun c => c == ' ')

/-- The lines of a text, each with the condition under which it stands. -/
def conditional : Option String → List String → List (Option String × String)
  | _, [] => []
  | under, line :: rest =>
    if isIndented line then (under, line) :: conditional under rest
    else (none, line) :: conditional (guard? line) rest

/-- The lines of a script that call a function, each with the condition under which it stands. -/
def callsOf (function code : String) : List (Option String × String) :=
  (conditional none (Text.lines code)).filter fun own => called? own.2 == some function

/-! ### Lines of their forms -/

namespace Form

def isOrder : Form → Bool
  | order _ => true
  | _ => false

/-- The condition that a line of the form is the head of a block for. -/
def guarded? : Form → Option String
  | guard condition => some condition
  | _ => none

def function? : Form → Option String
  | call function | order function => some function
  | _ => none

def functions : List String := "strategy" :: lineFunctions ++ orderFunctions

end Form

private theorem isIndented_of_ne {line : String} {c : Char} {rest : List Char}
    (text : line.toList = c :: rest) (ink : c ≠ ' ') : isIndented line = false := by
  rw [isIndented, text, Bool.eq_false_iff]
  intro starts
  exact ink (List.cons_prefix_cons.1 (List.isPrefixOf_iff_prefix.1 starts)).1.symm

private theorem readings_word {line : String} {front rest : List Char} {stop : Char}
    (text : line.toList = front ++ stop :: rest) (some : front ≠ [])
    (word : front.all isWordChar = true) (ends : isWordChar stop = false)
    (other : front ≠ ['i', 'f']) :
    isIndented line = false ∧ guard? line = none ∧
      called? line = if stop = '(' then .some (String.ofList front) else none := by
  have stops : ∀ c ∈ (stop :: rest).head?, isWordChar c = false := by
    rintro _ ⟨⟩
    exact ends
  obtain ⟨taken, dropped⟩ := Script.span_append word stops
  obtain ⟨c, more, rfl⟩ := List.exists_cons_of_ne_nil some
  have ink : c ≠ ' ' := by
    rintro rfl
    rw [List.all_cons, Bool.and_eq_true] at word
    exact absurd word.1 (by decide)
  rw [← text] at taken dropped
  have start : line.toList.dropWhile (fun c => c == ' ') = line.toList := by
    rw [text, List.cons_append, List.dropWhile_cons, beq_eq_false_iff_ne.2 ink]
    rfl
  refine ⟨isIndented_of_ne (by rw [text, List.cons_append]) ink, ?_, ?_⟩
  · unfold guard?
    split
    · rename_i condition same
      rw [same] at taken
      exact absurd taken.symm other
    · rfl
  · rw [called?, start, callee?, dropped, taken, List.head?_cons]
    simp only [Option.some.injEq]

private theorem readings_mark {line : String} {c : Char} {rest : List Char}
    (text : line.toList = c :: rest) (mark : isWordChar c = false) (ink : c ≠ ' ')
    (other : c ≠ '(') : isIndented line = false ∧ guard? line = none ∧ called? line = none := by
  have start : line.toList.dropWhile (fun c => c == ' ') = c :: rest := by
    rw [text, List.dropWhile_cons, beq_eq_false_iff_ne.2 ink]
    rfl
  refine ⟨isIndented_of_ne text ink, ?_, ?_⟩
  · unfold guard?
    split
    · rename_i condition same
      obtain ⟨rfl, -⟩ := List.cons.inj (text.symm.trans same)
      exact absurd mark (by decide)
    · rfl
  · rw [called?, start, callee?, List.dropWhile_cons, mark, if_neg Bool.false_ne_true,
      List.head?_cons, if_neg fun same => other (Option.some.inj same)]

private theorem readings_blanks (text : String) :
    isIndented ("    " ++ text) = true ∧ guard? ("    " ++ text) = none ∧
      called? ("    " ++ text) = called? text := by
  have shape : ("    " ++ text).toList = ' ' :: ' ' :: ' ' :: ' ' :: text.toList := by simp
  refine ⟨?_, ?_, ?_⟩
  · rw [isIndented, shape]
    rfl
  · rw [guard?, shape]
    rfl
  · rw [called?, called?, shape]
    rfl

section HasForm

variable {numeral : String → Prop} {form : Form} {text : String}

private theorem readings_call {function call : String} (own : IsCall numeral function call)
    (known : function ∈ Form.functions) :
    isIndented call = false ∧ guard? call = none ∧ called? call = some function := by
  have each : ∀ function ∈ Form.functions, function.toList ≠ [] ∧
      function.toList.all isWordChar = true ∧ function.toList ≠ ['i', 'f'] := by
    decide
  obtain ⟨some, word, other⟩ := each function known
  obtain ⟨arguments, -, rfl⟩ := own
  have shape : (function ++ "(" ++ ", ".intercalate arguments ++ ")").toList =
      function.toList ++ '(' :: ((", ".intercalate arguments).toList ++ [')']) := by
    simp
  have readings := readings_word shape some word (by decide) other
  rwa [if_pos rfl, String.ofList_toList] at readings

/-- The text of a line of a form tells whether it is indented, which block it is the head of, and
which function it calls. -/
theorem HasForm.readings (own : HasForm numeral form text)
    (known : ∀ function ∈ form.function?, function ∈ Form.functions) :
    isIndented text = form.isOrder ∧ guard? text = form.guarded? ∧
      called? text = form.function? := by
  cases own with
  | blank => decide
  | comment text =>
    have shape : ("//" ++ text).toList = '/' :: '/' :: text.toList := by simp
    exact readings_mark shape (by decide) (by decide) (by decide)
  | @assign name value own _ =>
    obtain ⟨ident, -⟩ := own
    rw [Script.isIdent, Bool.and_eq_true] at ident
    obtain ⟨c, rest, shape, -, word⟩ := Script.startsWord_of_isIdentChars ident.1
    have other : name.toList ≠ ['i', 'f'] := by
      intro same
      obtain rfl : name = "if" := String.toList_inj.1 same
      exact absurd ident.2 (by decide)
    have text : (name ++ " = " ++ value).toList =
        name.toList ++ ' ' :: '=' :: ' ' :: value.toList := by
      simp
    exact readings_word text (by simp [shape]) word (by decide) other
  | @unpack names function call =>
    have shape : ("[" ++ ", ".intercalate names ++ "] = " ++ call).toList =
        '[' :: ((", ".intercalate names).toList ++ ("] = ".toList ++ call.toList)) := by
      simp
    exact readings_mark shape (by decide) (by decide) (by decide)
  | @guard condition combined =>
    have each : ∀ name ∈ combinedNames, isIndented ("if " ++ name) = false ∧
        guard? ("if " ++ name) = some name ∧ called? ("if " ++ name) = none := by
      decide
    exact each condition combined
  | @order function call own =>
    obtain ⟨-, -, called⟩ := readings_call own (known function rfl)
    obtain ⟨indented, unguarded, same⟩ := readings_blanks call
    exact ⟨indented, unguarded, same.trans called⟩
  | @call function _ own => exact readings_call own (known function rfl)

end HasForm

/-! ### Lines of a script -/

private theorem Line.Within.function_known {numeral : String → Prop} {line : Line}
    (within : line.Within (Script.grammar numeral)) :
    ∀ function ∈ line.form.function?, function ∈ Form.functions := by
  cases line with
  | empty | note | guard => simp [Line.form, Form.function?]
  | statement value =>
    cases value with
    | assign target => cases target <;> simp [Line.form, Form.function?]
    | call value =>
      rintro _ ⟨⟩
      exact List.mem_cons_of_mem _ (List.mem_append_left _ within.1)
  | order value =>
    rintro _ ⟨⟩
    exact List.mem_cons_of_mem _ (List.mem_append_right _ within.1)

theorem readings_lines (options : Options) (graph : Graph) :
    ∀ line ∈ (Program.ofPlan options (planOf graph)).lines,
      isIndented line.render = line.form.isOrder ∧ guard? line.render = line.form.guarded? ∧
        called? line.render = line.form.function? := by
  intro line member
  have any : IsCall (fun _ => True) "strategy" options.declaration.render :=
    isCall_declaration (fun _ _ => trivial) ⟨.numeral trivial, .numeral trivial⟩
      ⟨.numeral trivial, .numeral trivial⟩
  refine (hasForm_lines (fun _ _ => trivial) graph any line member).readings ?_
  rw [Program.lines_eq, List.mem_cons, List.mem_cons] at member
  rcases member with rfl | rfl | inSection
  · simp [Line.form, Form.function?]
  · rintro _ ⟨⟩
    exact List.mem_cons_self
  · obtain ⟨part, inside, stands⟩ := List.mem_flatMap.1 inSection
    rcases List.mem_append.1 stands with banner | body
    · rcases List.mem_cons.1 banner with rfl | note
      · simp [Line.form, Form.function?]
      · obtain ⟨text, -, rfl⟩ := List.mem_map.1 note
        simp [Line.form, Form.function?]
    · have supplies := supplies_grammar (fun _ => id) graph
      exact (supplies.within_sections options part inside line body).function_known

/-! ### Conditions over lines -/

def Line.conditional : Option String → List Line → List (Option String × Line)
  | _, [] => []
  | under, line :: rest =>
    if line.form.isOrder then (under, line) :: conditional under rest
    else (none, line) :: conditional line.form.guarded? rest

/-- The lines that call a function, each with the condition under which it stands. -/
def Line.callsOf (function : String) (lines : List Line) : List (Option String × Line) :=
  (conditional none lines).filter fun own => own.2.form.function? == some function

theorem conditional_render {lines : List Line}
    (readings : ∀ line ∈ lines, isIndented line.render = line.form.isOrder ∧
      guard? line.render = line.form.guarded? ∧ called? line.render = line.form.function?)
    (under : Option String) :
    conditional under (lines.map Line.render) =
      (Line.conditional under lines).map fun own => (own.1, own.2.render) := by
  induction lines generalizing under with
  | nil => rfl
  | cons line rest ih =>
    obtain ⟨⟨indented, guarded, -⟩, later⟩ := List.forall_mem_cons.1 readings
    rw [List.map_cons, conditional, Line.conditional, indented, guarded, ih later, ih later]
    split <;> rfl

theorem snd_mem_of_mem_conditional {lines : List Line} {under : Option String}
    {own : Option String × Line} (member : own ∈ Line.conditional under lines) :
    own.2 ∈ lines := by
  induction lines generalizing under with
  | nil => exact absurd member List.not_mem_nil
  | cons line rest ih =>
    rw [Line.conditional] at member
    split at member
    · rcases List.mem_cons.1 member with rfl | later
      · exact List.mem_cons_self
      · exact List.mem_cons_of_mem _ (ih later)
    · rcases List.mem_cons.1 member with rfl | later
      · exact List.mem_cons_self
      · exact List.mem_cons_of_mem _ (ih later)

theorem callsOf_eq_nil {function : String} {lines : List Line}
    (silent : ∀ line ∈ lines, line.form.function? ≠ some function) :
    Line.callsOf function lines = [] := by
  refine List.filter_eq_nil_iff.2 fun own member calls => ?_
  exact silent own.2 (snd_mem_of_mem_conditional member) (beq_iff_eq.1 calls)

private theorem conditional_orders (under : Option String) (orders : List Call) (rest : List Line) :
    Line.conditional under (orders.map .order ++ rest) =
      (orders.map fun order => (under, .order order)) ++ Line.conditional under rest := by
  induction orders with
  | nil => rfl
  | cons order others ih =>
    rw [List.map_cons, List.cons_append, Line.conditional, ih]
    rfl

theorem Line.isOrder_of_inBlock {line : Line} (alone : line.inBlock = false) :
    line.form.isOrder = false ∧ line.form.guarded? = none := by
  cases line with
  | empty | note => exact ⟨rfl, rfl⟩
  | statement value =>
    cases value with
    | assign target => cases target <;> exact ⟨rfl, rfl⟩
    | call value => exact ⟨rfl, rfl⟩
  | guard | order => exact absurd alone (by simp [Line.inBlock])

theorem Grouped.conditional_eq {lines : List Line} (grouped : Grouped lines)
    (under : Option String) : Line.conditional under lines = Line.conditional none lines := by
  cases grouped with
  | nil => rfl
  | line alone _ =>
    rw [Line.conditional, Line.conditional, (Line.isOrder_of_inBlock alone).1,
      if_neg Bool.false_ne_true, if_neg Bool.false_ne_true]
  | block => rfl

private theorem Grouped.conditional_append {first second : List Line} (front : Grouped first)
    (back : Grouped second) (under : Option String) :
    Line.conditional under (first ++ second) =
      Line.conditional under first ++ Line.conditional none second := by
  induction front generalizing under with
  | nil => exact back.conditional_eq under
  | @line line rest alone _ ih =>
    rw [List.cons_append, Line.conditional, Line.conditional, (Line.isOrder_of_inBlock alone).1,
      if_neg Bool.false_ne_true, if_neg Bool.false_ne_true, ih, List.cons_append]
  | @block condition orders rest _ _ ih =>
    have head (lines : List Line) : Line.conditional under (.guard condition :: lines) =
        (none, .guard condition) :: Line.conditional (some condition) lines := rfl
    rw [List.cons_append, head, head, List.append_assoc, conditional_orders, conditional_orders,
      ih, List.cons_append, List.append_assoc]

theorem Grouped.callsOf_append {first second : List Line} (front : Grouped first)
    (back : Grouped second) (function : String) :
    Line.callsOf function (first ++ second) =
      Line.callsOf function first ++ Line.callsOf function second := by
  rw [Line.callsOf, front.conditional_append back, List.filter_append]
  rfl

theorem callsOf_guardedLines {condition function : String} {orders : List Call}
    (called : ∀ order ∈ orders, order.function = function) :
    Line.callsOf function (Program.guardedLines condition orders) =
      orders.map fun order => (some condition, .order order) := by
  unfold Program.guardedLines
  split
  · rename_i empty
    rw [List.isEmpty_iff.1 empty]
    rfl
  · have lines : Line.conditional none (.empty :: .guard condition :: orders.map .order) =
        (none, .empty) :: (none, .guard condition) ::
          orders.map fun order => (some condition, .order order) := by
      have whole := conditional_orders (some condition) orders []
      rw [List.append_nil] at whole
      have head : Line.conditional none (.empty :: .guard condition :: orders.map .order) =
          (none, .empty) :: (none, .guard condition) ::
            Line.conditional (some condition) (orders.map .order) := rfl
      rw [head, whole]
      exact congrArg _ (congrArg _ (List.append_nil _))
    rw [Line.callsOf, lines]
    have each : ∀ own ∈ orders.map fun order => (some condition, Line.order order),
        (own.2.form.function? == some function) = true := by
      refine List.forall_mem_map.2 fun order member => beq_iff_eq.2 ?_
      exact congrArg some (called order member)
    rw [List.filter_cons, List.filter_cons, List.filter_eq_self.2 each]
    rfl

end StrategyCompiler.Compilation
