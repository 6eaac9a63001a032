import Mathlib.Data.List.Infix
import StrategyCompiler.Proofs.Script.Scan
import StrategyCompiler.Script.Layout
/-!
What steps write.  Behind a line that is not empty, steps add lines that do not depend on those in
front of them; a script laid out by them reads back as its lines, and it passes the check of its
structure when each of its lines does.
-/

set_option autoImplicit false

namespace StrategyCompiler.Script

/-! ### Lines of a text -/

private theorem lineChars_cons {c : Char} (lineFeed : c ≠ '\n') (carriageReturn : c ≠ '\r')
    (rest : List Char) :
    Text.lineChars (c :: rest) =
      match Text.lineChars rest with
      | [] => [[c]]
      | line :: more => (c :: line) :: more :=
  (Text.lineChars.eq_4 c rest lineFeed fun _ same => absurd same carriageReturn).trans rfl

private theorem lineChars_append {cs : List Char} (flat : Flat cs) (rest : List Char) :
    Text.lineChars (cs ++ '\n' :: rest) = cs :: Text.lineChars rest := by
  induction cs with
  | nil => rw [List.nil_append, Text.lineChars]
  | cons c cs ih =>
    obtain ⟨here, later⟩ := List.forall_mem_cons.1 flat
    rw [List.cons_append, lineChars_cons here.1 here.2, ih later]

theorem lineChars_intercalate {lines : List String} (nonempty : lines ≠ [])
    (flat : ∀ line ∈ lines, Flat line.toList) :
    Text.lineChars ("\n".intercalate lines ++ "\n").toList = lines.map String.toList := by
  induction lines with
  | nil => exact absurd rfl nonempty
  | cons line rest ih =>
    obtain ⟨here, later⟩ := List.forall_mem_cons.1 flat
    cases rest with
    | nil =>
      rw [String.intercalate_singleton, String.toList_append]
      exact lineChars_append here []
    | cons next more =>
      have split : ("\n".intercalate (line :: next :: more) ++ "\n").toList =
          line.toList ++ '\n' :: ("\n".intercalate (next :: more) ++ "\n").toList := by
        simp [String.intercalate_cons_cons]
      rw [split, lineChars_append here, ih (by simp) later]
      rfl

theorem occursIn_of_infix {word text : List Char} (within : word <:+: text) :
    Text.occursIn word text = true := by
  induction text with
  | nil =>
    rw [List.infix_nil.1 within]
    rfl
  | cons c rest ih =>
    rw [Text.occursIn, Bool.or_eq_true]
    rcases List.infix_cons_iff.1 within with front | later
    · exact .inl (List.isPrefixOf_iff_prefix.2 front)
    · exact .inr (ih later)

/-! ### Pages -/

def Ends (lines : List String) : Prop := lines.getLast? ≠ some ""

theorem Ends.append {lines more : List String} (ends : Ends lines) (moreEnds : Ends more) :
    Ends (lines ++ more) := by
  unfold Ends at *
  rw [List.getLast?_append]
  cases last : more.getLast? with
  | none => simpa using ends
  | some text =>
    rw [last] at moreEnds
    simpa using moreEnds

theorem Ends.of_forall {lines : List String} (nonempty : ∀ text ∈ lines, text ≠ "") :
    Ends lines :=
  fun last => nonempty "" (List.mem_of_getLast? last) rfl

theorem Ends.cons {text : String} {lines : List String} (nonempty : lines ≠ [])
    (ends : Ends lines) : Ends (text :: lines) := by
  unfold Ends at *
  rwa [List.getLast?_cons_of_ne_nil nonempty]

namespace Page

def extend (page : Page) (lines : List String) : Page :=
  { page with lines := page.lines ++ lines }

private theorem extend_extend (page : Page) (lines more : List String) :
    (page.extend lines).extend more = page.extend (lines ++ more) := by
  simp [extend]

def Inked (page : Page) : Prop := page.lines ≠ [] ∧ Ends page.lines

theorem Inked.extend {page : Page} {lines : List String} (inked : page.Inked)
    (ends : Ends lines) : (page.extend lines).Inked :=
  ⟨by simp [Page.extend, inked.1], inked.2.append ends⟩

private theorem blank_of_inked {page : Page} (inked : page.Inked) : page.blank = page.extend
    [""] := by
  unfold blank
  split
  · rename_i empty
    exact absurd (List.getLast?_eq_none_iff.1 empty) inked.1
  · rename_i empty
    exact absurd empty inked.2
  · rfl

private theorem trimmedLines_of_inked {page : Page} (inked : page.Inked) :
    page.trimmedLines = page.lines := by
  unfold trimmedLines
  cases shape : page.lines.reverse with
  | nil => rw [List.dropWhile_nil, ← shape, List.reverse_reverse]
  | cons text rest =>
    have last : page.lines.getLast? = some text := by
      rw [← List.head?_reverse, shape, List.head?_cons]
    have nonempty : text ≠ "" := by
      rintro rfl
      exact inked.2 last
    rw [List.dropWhile_cons_of_neg (by simpa using nonempty), ← shape, List.reverse_reverse]

private theorem line_top (page : Page) {text : String} (nonempty : text ≠ "")
    (top : page.depth = 0) :
    page.line text = page.extend [text] := by
  simp [line, extend, nonempty, top, indent]

private theorem writeAll_append (page : Page) (steps more : List Step) :
    writeAll page (steps ++ more) = writeAll (writeAll page steps) more := by
  induction steps generalizing page with
  | nil => rw [writeAll, List.nil_append]
  | cons step rest ih => rw [List.cons_append, writeAll, writeAll, ih]

private theorem writeAll_singleton (page : Page) (step : Step) :
    writeAll page [step] = write page step := by
  rw [writeAll, writeAll]

end Page

open Page

def Prints (steps : List Step) (lines : List String) : Prop :=
  ∀ page : Page, page.depth = 0 → writeAll page steps = page.extend lines

/-- On every page whose last line is not empty the steps add these lines, and end in one that is not
empty. -/
structure Writes (steps : List Step) (lines : List String) : Prop where
  ends : Ends lines
  writes : ∀ page : Page, page.depth = 0 → page.Inked → writeAll page steps = page.extend lines

def commentLine (text : String) : String := "// " ++ flatten text

theorem commentLine_ne (text : String) : commentLine text ≠ "" := by
  simp [commentLine]

def bannerLines (title : String) : List String :=
  [bannerRule, "// " ++ Text.upper title, bannerRule]

namespace Prints

theorem nil : Prints [] [] := by
  intro page _
  simp [writeAll, extend]

theorem append {steps more : List Step} {lines others : List String}
    (first : Prints steps lines) (second : Prints more others) :
    Prints (steps ++ more) (lines ++ others) := by
  intro page top
  rw [writeAll_append, first page top, second (page.extend lines) top, extend_extend]

theorem line {text : String} (nonempty : text ≠ "") : Prints [.line text] [text] := by
  intro page top
  rw [writeAll_singleton, write, line_top page nonempty top]

theorem lines {texts : List String} (nonempty : ∀ text ∈ texts, text ≠ "") :
    Prints (texts.map Step.line) texts := by
  induction texts with
  | nil => exact nil
  | cons text rest ih =>
    obtain ⟨here, later⟩ := List.forall_mem_cons.1 nonempty
    exact (line here).append (ih later)

theorem comment (text : String) : Prints [.comment text] [commentLine text] := by
  intro page top
  rw [writeAll_singleton, write, Page.comment]
  exact line_top page (commentLine_ne text) top

private theorem writeAll_lines {texts : List String} (nonempty : ∀ text ∈ texts, text ≠ "")
    (page : Page) :
    writeAll page (texts.map Step.line) = page.extend (texts.map (indent page.depth)) := by
  induction texts generalizing page with
  | nil => simp [writeAll, extend]
  | cons text rest ih =>
    obtain ⟨here, later⟩ := List.forall_mem_cons.1 nonempty
    rw [List.map_cons, writeAll, write, ih later]
    simp [Page.line, extend, here]

theorem block (condition : String) {texts : List String}
    (nonempty : ∀ text ∈ texts, text ≠ "") :
    Prints [.block condition (texts.map Step.line)]
      (("if " ++ condition) :: texts.map (indent 1)) := by
  intro page top
  have guard : "if " ++ condition ≠ "" := by simp
  rw [writeAll_singleton, write, line_top page guard top, writeAll_lines nonempty]
  simp [deeper, shallower, extend, top]

end Prints

namespace Writes

theorem ofPrints {steps : List Step} {lines : List String} (prints : Prints steps lines)
    (ends : Ends lines) : Writes steps lines :=
  ⟨ends, fun page top _ => prints page top⟩

theorem nil : Writes [] [] := ofPrints Prints.nil (by simp [Ends])

theorem append {steps more : List Step} {lines others : List String}
    (first : Writes steps lines) (second : Writes more others) :
    Writes (steps ++ more) (lines ++ others) where
  ends := first.ends.append second.ends
  writes := by
    intro page top inked
    rw [writeAll_append, first.writes page top inked,
      second.writes (page.extend lines) top (inked.extend first.ends), extend_extend]

theorem lines {texts : List String} (nonempty : ∀ text ∈ texts, text ≠ "") :
    Writes (texts.map Step.line) texts :=
  ofPrints (Prints.lines nonempty) (Ends.of_forall nonempty)

theorem comment (text : String) : Writes [.comment text] [commentLine text] :=
  ofPrints (Prints.comment text) (Ends.of_forall (by simp [commentLine_ne]))

theorem spaced {steps : List Step} {lines : List String} (prints : Prints steps lines)
    (nonempty : lines ≠ []) (ends : Ends lines) : Writes (.blank :: steps) ("" :: lines) where
  ends := ends.cons nonempty
  writes := by
    intro page top inked
    rw [writeAll, write, blank_of_inked inked, prints (page.extend [""]) top, extend_extend]
    rfl

theorem banner (title : String) : Writes [.banner title] ("" :: bannerLines title) where
  ends := by
    simp [Ends, bannerLines, bannerRule]
  writes := by
    intro page top inked
    have titled : "// " ++ Text.upper title ≠ "" := by simp
    have rule : bannerRule ≠ "" := by decide
    rw [writeAll_singleton, write, Page.banner, blank_of_inked inked,
      line_top (page.extend [""]) rule top, extend_extend,
      line_top (page.extend _) titled top, extend_extend,
      line_top (page.extend _) rule top, extend_extend]
    rfl

end Writes

/-! ### Lines that pass the check -/

theorem flat_indent {text : String} (flat : Flat text.toList) (depth : Nat) :
    Flat (Page.indent depth text).toList := by
  rw [Page.indent, String.toList_append, String.toList_ofList]
  refine Flat.append (fun c member => ?_) flat
  rw [List.eq_of_mem_replicate member]
  decide

structure Tidy (cs : List Char) : Prop where
  flat : Flat cs
  passes : ∀ number, scan number none [] cs = .ok []

namespace Tidy

theorem ofClean {cs : List Char} (clean : Clean cs) : Tidy cs where
  flat := clean.flat
  passes := by
    intro number
    have := clean.passes number [] []
    rwa [List.append_nil, scan] at this

theorem comment {cs : List Char} (flat : Flat cs) : Tidy ('/' :: '/' :: cs) where
  flat := by
    intro c member
    rcases List.mem_cons.1 member with rfl | member
    · simp
    · rcases List.mem_cons.1 member with rfl | member
      · simp
      · exact flat c member
  passes := fun number => scan_comment number [] cs

theorem indent {text : String} (tidy : Tidy text.toList) (depth : Nat) :
    Tidy (Page.indent depth text).toList := by
  have blanks : Clean (List.replicate (4 * depth) ' ') := by
    refine Clean.ofPlain (List.all_eq_true.2 fun c member => ?_)
    rw [List.eq_of_mem_replicate member]
    decide
  constructor
  · exact flat_indent tidy.flat depth
  · intro number
    rw [Page.indent, String.toList_append, String.toList_ofList, blanks.passes, tidy.passes]

end Tidy

private theorem scanLines_of_tidy {lines : List (List Char)} (tidy : ∀ line ∈ lines, Tidy line)
    (number : Nat) : scanLines number [] lines = .ok [] := by
  induction lines generalizing number with
  | nil => rfl
  | cons line rest ih =>
    obtain ⟨here, later⟩ := List.forall_mem_cons.1 tidy
    rw [scanLines, here.passes]
    exact ih later _

/-! ### Scripts -/

section Layout

variable {text : String} {steps : List Step} {lines : List String}

private theorem layout_eq (nonempty : text ≠ "") (writes : Writes steps lines) :
    layout (.line text :: steps) = "\n".intercalate (text :: lines) ++ "\n" := by
  have first : Ends [text] := Ends.of_forall (by simpa using nonempty)
  have inked : (extend {} [text]).Inked := ⟨by simp [extend], first⟩
  rw [layout, writeAll, write, line_top {} nonempty rfl, writes.writes _ rfl inked, finish,
    trimmedLines_of_inked (inked.extend writes.ends)]
  rfl

private theorem lineChars_layout (nonempty : text ≠ "") (writes : Writes steps lines)
    (flat : ∀ line ∈ text :: lines, Flat line.toList) :
    Text.lineChars (layout (.line text :: steps)).toList = (text :: lines).map String.toList := by
  rw [layout_eq nonempty writes]
  exact lineChars_intercalate (by simp) flat

theorem lines_layout (nonempty : text ≠ "") (writes : Writes steps lines)
    (flat : ∀ line ∈ text :: lines, Flat line.toList) :
    Text.lines (layout (.line text :: steps)) = text :: lines := by
  rw [Text.lines, lineChars_layout nonempty writes flat]
  simp

private theorem infix_intercalate {line : String} {lines : List String} (member : line ∈ lines)
    (separator : String) : line.toList <:+: (separator.intercalate lines).toList := by
  induction lines with
  | nil => exact absurd member List.not_mem_nil
  | cons first rest ih =>
    cases rest with
    | nil =>
      rw [List.mem_singleton.1 member, String.intercalate_singleton]
    | cons next more =>
      rw [String.intercalate_cons_cons, String.toList_append, String.toList_append]
      rcases List.mem_cons.1 member with rfl | later
      · rw [List.append_assoc]
        exact (List.prefix_append _ _).isInfix
      · exact (ih later).trans (List.suffix_append _ _).isInfix

private theorem contains_layout (nonempty : text ≠ "") (writes : Writes steps lines)
    {word line : String}
    (member : line ∈ text :: lines) (within : word.toList <:+: line.toList) :
    Text.contains (layout (.line text :: steps)) word = true := by
  refine occursIn_of_infix (within.trans ?_)
  rw [layout_eq nonempty writes, String.toList_append]
  exact (infix_intercalate member "\n").trans (List.prefix_append _ _).isInfix

theorem checkStructure_layout (nonempty : text ≠ "") (writes : Writes steps lines)
    (tidy : ∀ line ∈ text :: lines, Tidy line.toList)
    (version : "//@version=".toList <:+: text.toList)
    (declaration : ∃ line ∈ lines, "strategy(".toList <:+: line.toList) :
    checkStructure (layout (.line text :: steps)) = .ok () := by
  obtain ⟨line, member, declares⟩ := declaration
  have versioned := contains_layout nonempty writes List.mem_cons_self version
  have declared := contains_layout nonempty writes (List.mem_cons_of_mem _ member) declares
  have scanned :
      scanLines 1 [] (Text.lineChars (layout (.line text :: steps)).toList) = .ok [] := by
    rw [lineChars_layout nonempty writes fun line member => (tidy line member).flat]
    refine scanLines_of_tidy (fun cs member => ?_) 1
    obtain ⟨line, inside, rfl⟩ := List.mem_map.1 member
    exact tidy line inside
  simp [checkStructure, versioned, declared, scanned]

end Layout

end StrategyCompiler.Script
