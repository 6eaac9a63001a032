import StrategyCompiler.Proofs.Script.Scan
import StrategyCompiler.Script.Statement
import StrategyCompiler.Script.Words
/-!
The words of a script that are written as they are.  Names are read or assigned; the names of
arguments and the functions in expressions are neither.  Of a verbatim text, and of the function of
a call, every run of letters, digits, underscores and points is a word that is read.
-/

set_option autoImplicit false

namespace StrategyCompiler.Script

mutual

def Expr.reads : Expr → List String
  | .name text => [text]
  | .number _ | .bool _ | .string _ => []
  | .call _ arguments => readsOf arguments
  | .compare _ left right | .arith _ left right => left.reads ++ right.reads
  | .not operand => operand.reads
  | .and terms | .or terms => readsOf terms

def Expr.readsOf : List Expr → List String
  | [] => []
  | term :: rest => term.reads ++ readsOf rest

end

mutual

def Expr.functions : Expr → List String
  | .name _ | .number _ | .bool _ | .string _ => []
  | .call function arguments => function :: functionsOf arguments
  | .compare _ left right | .arith _ left right => left.functions ++ right.functions
  | .not operand => operand.functions
  | .and terms | .or terms => functionsOf terms

def Expr.functionsOf : List Expr → List String
  | [] => []
  | term :: rest => term.functions ++ functionsOf rest

end

def Expr.words (expr : Expr) : List String := expr.reads ++ expr.functions

def isWordChar (c : Char) : Bool := c.isAlphanum || c == '_' || c == '.'

def isWord (text : String) : Bool := text.toList.all isWordChar

/-- Whether a word stands for something that the script language defines: it is one of its names, or
a member of one of them. -/
def isFixed (word : String) : Bool :=
  isWord word && (reservedWords.contains word || word.toList.contains '.')

def wordsOf (text : List Char) : List String :=
  ((text.splitOnP fun c => !isWordChar c).filter fun word => !word.isEmpty).map String.ofList

def Operand.reads : Operand → List String
  | .expr value => value.reads
  | .setting (.source series) => [series]
  | .setting _ | .texts _ => []

def Operand.functions : Operand → List String
  | .expr value => value.functions
  | .setting _ | .texts _ => []

def Operand.words (operand : Operand) : List String := operand.reads ++ operand.functions

def Argument.words (argument : Argument) : List String :=
  argument.name.toList ++ argument.value.words

/-- The names that a call reads: the words of its function, and what it reads in its arguments. -/
def Call.reads (call : Call) : List String :=
  wordsOf call.function.toList ++ call.arguments.flatMap fun argument => argument.value.reads

def Call.words (call : Call) : List String :=
  call.function :: call.arguments.flatMap Argument.words

def Source.reads : Source → List String
  | .expr value => value.reads
  | .call value => value.reads
  | .verbatim text => wordsOf text.toList

def Source.words : Source → List String
  | .expr value => value.words
  | .call value => value.words
  | .verbatim text => [text]

def Statement.reads : Statement → List String
  | .assign _ source => source.reads
  | .call value => value.reads

def Statement.words : Statement → List String
  | .assign target source => target.names ++ source.words
  | .call value => value.words

def CleanWords (words : List String) : Prop := ∀ word ∈ words, Clean word.toList

theorem CleanWords.append_iff {left right : List String} :
    CleanWords (left ++ right) ↔ CleanWords left ∧ CleanWords right :=
  List.forall_mem_append

private theorem isPlain_of_isWordChar {c : Char} (word : isWordChar c = true) : isPlain c = true :=
  isPlain_of_apart (by decide) word

theorem clean_of_isWord {text : String} (word : isWord text = true) : Clean text.toList :=
  Clean.ofPlain (List.all_eq_true.2 fun c member =>
    isPlain_of_isWordChar (List.all_eq_true.1 word c member))

theorem isWord_of_isFixed {word : String} (fixed : isFixed word = true) : isWord word = true :=
  (Bool.and_eq_true_iff.1 fixed).1

/-! ### Words of a text -/

theorem wordsOf_append_cons (left right : List Char) {separator : Char}
    (between : isWordChar separator = false) :
    wordsOf (left ++ separator :: right) = wordsOf left ++ wordsOf right := by
  rw [wordsOf, List.splitOnP_append_cons _ _ (by simp [between]), List.filter_append,
    List.map_append]
  rfl

theorem eq_of_mem_wordsOf {word text : String} (single : isWord text = true)
    (member : word ∈ wordsOf text.toList) : word = text := by
  have whole : text.toList.splitOnP (fun c => !isWordChar c) = [text.toList] := by
    refine List.splitOnP_eq_singleton fun c inside => ?_
    simp [List.all_eq_true.1 single c inside]
  rw [wordsOf, whole] at member
  obtain ⟨piece, kept, rfl⟩ := List.mem_map.1 member
  rw [List.mem_singleton.1 (List.mem_filter.1 kept).1, String.ofList_toList]

theorem Call.mem_reads {call : Call} (single : isWord call.function = true) {name : String}
    (read : name ∈ call.reads) :
    name = call.function ∨ ∃ argument ∈ call.arguments, name ∈ argument.value.reads := by
  rcases List.mem_append.1 read with function | argument
  · exact .inl (eq_of_mem_wordsOf single function)
  · exact .inr (List.mem_flatMap.1 argument)

theorem wordsOf_append_breaks {breaks : List Char}
    (none : ∀ c ∈ breaks, isWordChar c = false) (rest : List Char) :
    wordsOf (breaks ++ rest) = wordsOf rest := by
  induction breaks with
  | nil => rfl
  | cons c breaks ih =>
    obtain ⟨here, later⟩ := List.forall_mem_cons.1 none
    have empty : wordsOf [] = [] := by decide
    have cut := wordsOf_append_cons [] (breaks ++ rest) here
    rw [List.nil_append] at cut
    rw [List.cons_append, cut, empty, List.nil_append, ih later]

def rowChars (row : List (String × String)) : List Char :=
  row.flatMap fun piece => piece.1.toList ++ piece.2.toList

def isBreak (text : String) : Bool :=
  text != "" && text.toList.all fun c => !isWordChar c

theorem mem_of_mem_wordsOf_row {row : List (String × String)} {word : String}
    (each : ∀ piece ∈ row, isWord piece.1 = true ∧ isBreak piece.2 = true)
    (member : word ∈ wordsOf (rowChars row)) : word ∈ row.map Prod.fst := by
  induction row with
  | nil => exact absurd member (by decide +revert)
  | cons piece row ih =>
    obtain ⟨⟨single, between⟩, later⟩ := List.forall_mem_cons.1 each
    simp only [isBreak, Bool.and_eq_true, List.all_eq_true, Bool.not_eq_true',
      bne_iff_ne] at between
    cases breaks : piece.2.toList with
    | nil => exact absurd (String.toList_eq_nil_iff.1 breaks) between.1
    | cons c rest =>
      rw [breaks] at between
      obtain ⟨here, none⟩ := List.forall_mem_cons.1 between.2
      have shape : rowChars (piece :: row) = piece.1.toList ++ c :: (rest ++ rowChars row) := by
        simp [rowChars, breaks]
      rw [shape, wordsOf_append_cons _ _ here, wordsOf_append_breaks none] at member
      rcases List.mem_append.1 member with own | behind
      · rw [eq_of_mem_wordsOf single own]
        exact List.mem_cons_self
      · exact List.mem_cons_of_mem _ (ih later behind)

end StrategyCompiler.Script
