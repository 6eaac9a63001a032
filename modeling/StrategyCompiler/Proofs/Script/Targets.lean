import StrategyCompiler.Proofs.Naming.Identifier
import StrategyCompiler.Proofs.Script.Vocabulary
import StrategyCompiler.Text.Lines
/-!
The names that a text assigns, read off its lines.  A line assigns what stands in front of its first
` = `, if that is a name or a list of names between square brackets.
-/

set_option autoImplicit false

namespace StrategyCompiler.Script

open Naming (isNameChar)

/-- What stands in front of the first equals sign between blanks, if there is one. -/
def leftSide? : List Char → Option (List Char)
  | [] => none
  | c :: rest =>
    if [' ', '=', ' '].isPrefixOf (c :: rest) then some []
    else (leftSide? rest).map fun side => c :: side

def pieces (inside : List Char) : List (List Char) :=
  (inside.splitOn ',').map fun piece => piece.dropWhile fun c => c == ' '

def namesOfSide (side : List Char) : List String :=
  if side.all isNameChar then [String.ofList side]
  else if side.head? == some '[' && side.getLast? == some ']' then
    let names := pieces side.tail.dropLast
    if names.all fun name => name.all isNameChar then names.map String.ofList else []
  else []

def targetsOf (line : String) : List String :=
  ((leftSide? line.toList).map namesOfSide).getD []

/-- The names that the lines of a text assign, as often as they are assigned. -/
def targets (code : String) : List String :=
  (Text.lines code).flatMap targetsOf

/-! ### Left sides -/

private theorem leftSide?_cons {c : Char} {rest : List Char}
    (other : c ≠ ' ' ∨ rest.head? ≠ some '=') :
    leftSide? (c :: rest) = (leftSide? rest).map fun side => c :: side := by
  have later : ¬ [' ', '=', ' '].isPrefixOf (c :: rest) = true := by
    intro starts
    obtain ⟨tail, shape⟩ := List.isPrefixOf_iff_prefix.1 starts
    obtain ⟨rfl, rfl⟩ := List.cons.inj shape
    simp at other
  rw [leftSide?, if_neg later]

private theorem head?_append_ne {c d : Char} {cs : List Char} (absent : c ∉ d :: cs)
    (rest : List Char) :
    (d :: cs ++ rest).head? ≠ some c := by
  rintro ⟨⟩
  exact absent List.mem_cons_self

private theorem leftSide?_equals {side : List Char} (plain : '=' ∉ side) (rest : List Char) :
    leftSide? (side ++ ' ' :: '=' :: ' ' :: rest) = some side := by
  induction side with
  | nil => rfl
  | cons c side ih =>
    have absent : '=' ∉ side := fun inside => plain (List.mem_cons_of_mem c inside)
    have behind : (side ++ ' ' :: '=' :: ' ' :: rest).head? ≠ some '=' := by
      cases side with
      | nil => simp
      | cons d side => exact head?_append_ne absent _
    rw [List.cons_append, leftSide?_cons (.inr behind), ih absent]
    rfl

private theorem prefix_of_leftSide? {front rest side : List Char} (plain : '=' ∉ front)
    (ends : front.getLast? ≠ some ' ') (found : leftSide? (front ++ rest) = some side) :
    front <+: side := by
  induction front generalizing side with
  | nil => exact List.nil_prefix
  | cons c front ih =>
    have absent : '=' ∉ front := fun inside => plain (List.mem_cons_of_mem c inside)
    have behind : c ≠ ' ' ∨ (front ++ rest).head? ≠ some '=' := by
      cases front with
      | nil => exact .inl fun same => ends (by rw [same]; rfl)
      | cons d front => exact .inr (head?_append_ne absent _)
    rw [List.cons_append, leftSide?_cons behind] at found
    obtain ⟨tail, later, rfl⟩ := Option.map_eq_some_iff.1 found
    refine List.cons_prefix_cons.2 ⟨rfl, ?_⟩
    cases front with
    | nil => exact List.nil_prefix
    | cons d front => exact ih absent (by simpa using ends) later

/-- Whether no line that starts with these characters assigns a name: they hold a character that
stands in no name, and neither a bracket in front nor the beginning of an equals sign. -/
def isOpening (front : List Char) : Bool :=
  front.any (fun c => !isNameChar c) && front.head? != some '[' && !front.contains '=' &&
    front.getLast? != some ' '

theorem targetsOf_of_isOpening {front : List Char} {line : String}
    (opening : isOpening front = true) (starts : front <+: line.toList) : targetsOf line = [] := by
  simp only [isOpening, Bool.and_eq_true, bne_iff_ne, Bool.not_eq_true',
    List.any_eq_true] at opening
  obtain ⟨⟨⟨⟨c, inside, foreign⟩, head⟩, plain⟩, ends⟩ := opening
  obtain ⟨rest, shape⟩ := starts
  rw [targetsOf, ← shape]
  cases found : leftSide? (front ++ rest) with
  | none => rfl
  | some side =>
    have before : front <+: side := prefix_of_leftSide? (by simpa using plain) ends found
    have name : side.all isNameChar = false :=
      List.all_eq_false.2 ⟨c, before.subset inside, by simp [foreign]⟩
    have first : side.head? = front.head? := by
      obtain ⟨more, rfl⟩ := before
      cases front with
      | nil => exact absurd inside List.not_mem_nil
      | cons d front => rfl
    have bracket : (side.head? == some '[') = false := by
      rw [first]
      simpa using head
    simp [namesOfSide, name, bracket]

/-! ### Assignments -/

private theorem isNameChar_ne {c other : Char} (name : isNameChar c = true)
    (foreign : isNameChar other = false) : c ≠ other := by
  rintro rfl
  rw [name] at foreign
  exact absurd foreign (by decide)

private theorem dropBlank_name {name : List Char} (own : name.all isNameChar = true) :
    (name.dropWhile fun c => c == ' ') = name := by
  cases name with
  | nil => rfl
  | cons c rest =>
    rw [List.all_cons, Bool.and_eq_true] at own
    have other : (c == ' ') = false := beq_eq_false_iff_ne.2 (isNameChar_ne own.1 (by decide))
    rw [List.dropWhile_cons, other]
    rfl

private theorem pieces_name {name : List Char} (own : name.all isNameChar = true) :
    pieces name = [name] := by
  have whole : name.splitOn ',' = [name] := by
    refine List.splitOnP_eq_singleton fun c inside => ?_
    simpa using isNameChar_ne (List.all_eq_true.1 own c inside) (by decide : isNameChar ',' = false)
  rw [pieces, whole, List.map_singleton, dropBlank_name own]

private theorem pieces_blank (rest : List Char) : pieces (' ' :: rest) = pieces rest := by
  have cut : (' ' :: rest).splitOn ',' = (rest.splitOn ',').modifyHead (List.cons ' ') := by
    simp [List.splitOn, List.splitOnP_cons_eq_if_modifyHead]
  rw [pieces, pieces, cut]
  cases rest.splitOn ',' with
  | nil => rfl
  | cons piece more => simp

private theorem pieces_comma {name : List Char} (own : name.all isNameChar = true)
    (rest : List Char) :
    pieces (name ++ ',' :: ' ' :: rest) = name :: pieces rest := by
  have cut : (name ++ ',' :: ' ' :: rest).splitOn ',' =
      name.splitOn ',' ++ (' ' :: rest).splitOn ',' :=
    List.splitOnP_append_cons _ _ (by simp)
  have first := pieces_name own
  have later := pieces_blank rest
  unfold pieces at first later ⊢
  rw [cut, List.map_append, first, later]
  rfl

private theorem pieces_intercalate {names : List String} (some : names ≠ [])
    (each : ∀ name ∈ names, name.toList.all isNameChar = true) :
    pieces (", ".intercalate names).toList = names.map String.toList := by
  induction names with
  | nil => exact absurd rfl some
  | cons name rest ih =>
    obtain ⟨here, later⟩ := List.forall_mem_cons.1 each
    cases rest with
    | nil =>
      rw [String.intercalate_singleton]
      exact pieces_name here
    | cons next more =>
      have shape : (", ".intercalate (name :: next :: more)).toList =
          name.toList ++ ',' :: ' ' :: (", ".intercalate (next :: more)).toList := by
        simp [String.intercalate_cons_cons]
      rw [shape, pieces_comma here, ih (List.cons_ne_nil _ _) later]
      rfl

private theorem not_mem_intercalate {c : Char} {names : List String}
    (foreign : isNameChar c = false)
    (other : c ∉ ", ".toList) (each : ∀ name ∈ names, name.toList.all isNameChar = true) :
    c ∉ (", ".intercalate names).toList := by
  induction names with
  | nil => simp
  | cons name rest ih =>
    obtain ⟨here, later⟩ := List.forall_mem_cons.1 each
    have absent : c ∉ name.toList := fun inside =>
      isNameChar_ne (List.all_eq_true.1 here c inside) foreign rfl
    cases rest with
    | nil => rwa [String.intercalate_singleton]
    | cons next more =>
      rw [String.intercalate_cons_cons, String.toList_append, String.toList_append,
        List.mem_append, List.mem_append]
      rintro ((own | between) | behind)
      · exact absent own
      · exact other between
      · exact ih later behind

private theorem namesOfSide_render {target : Target}
    (each : ∀ name ∈ target.names, name.toList.all isNameChar = true)
    (some : target.names ≠ []) : namesOfSide target.render.toList = target.names := by
  cases target with
  | single name =>
    have own := each name (List.mem_singleton_self name)
    simp [namesOfSide, Target.render, Target.names, own]
  | several names =>
    have shape : (Target.several names).render.toList =
        '[' :: ((", ".intercalate names).toList ++ [']']) := by
      simp [Target.render]
    have bracket : isNameChar '[' = false := by decide
    have inside : pieces (", ".intercalate names).toList = names.map String.toList :=
      pieces_intercalate some each
    have all : (names.map String.toList).all (fun name => name.all isNameChar) = true := by
      rw [List.all_map]
      exact List.all_eq_true.2 each
    simp only [namesOfSide, shape, List.all_cons, bracket, Bool.false_and, List.head?_cons,
      List.tail_cons, List.dropLast_concat, Target.names]
    rw [inside, all]
    simp [List.getLast?_cons, Function.comp_def]

theorem targetsOf_assign {target : Target} {source : Source}
    (each : ∀ name ∈ target.names, name.toList.all isNameChar = true)
    (some : target.names ≠ []) :
    targetsOf (Statement.assign target source).render = target.names := by
  have plain : '=' ∉ target.render.toList := by
    cases target with
    | single name =>
      intro inside
      have own := each name (List.mem_singleton_self name)
      exact absurd (List.all_eq_true.1 own '=' inside) (by decide)
    | several names =>
      have absent : '=' ∉ (", ".intercalate names).toList :=
        not_mem_intercalate (by decide) (by decide) each
      simpa [Target.render] using absent
  have shape : (Statement.assign target source).render.toList =
      target.render.toList ++ ' ' :: '=' :: ' ' :: source.render.toList := by
    simp [Statement.render]
  rw [targetsOf, shape, leftSide?_equals plain]
  exact namesOfSide_render each some

end StrategyCompiler.Script
