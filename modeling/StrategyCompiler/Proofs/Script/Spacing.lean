import Mathlib.Data.List.Chain
import Mathlib.Data.List.DropRight
import StrategyCompiler.Proofs.Script.Layout
/-!
Scripts as they stand on the page.  Whatever steps write a script and however deep they are nested,
empty lines stand alone and between other lines, and these show the texts of the steps in their
order, each behind the blanks of the blocks around it.
-/

set_option autoImplicit false

namespace StrategyCompiler.Script

open Page

mutual

/-- Whether what a step writes as it is stands on one line, where a line is not empty. -/
def Step.IsPlain : Step → Prop
  | .line text => text ≠ "" ∧ Flat text.toList
  | .blank => True
  | .comment _ => True
  | .banner title => Flat title.toList
  | .block condition body => Flat condition.toList ∧ ArePlain body

def Step.ArePlain : List Step → Prop
  | [] => True
  | step :: rest => step.IsPlain ∧ ArePlain rest

end

mutual

/-- The texts that a step writes, each with the number of blocks around it. -/
def Step.texts (depth : Nat) : Step → List (Nat × String)
  | .line text => [(depth, text)]
  | .blank => []
  | .comment text => [(depth, commentLine text)]
  | .banner title => (bannerLines title).map fun text => (depth, text)
  | .block condition body => (depth, "if " ++ condition) :: textsOf (depth + 1) body

def Step.textsOf (depth : Nat) : List Step → List (Nat × String)
  | [] => []
  | step :: rest => step.texts depth ++ textsOf depth rest

end

/-- The lines that texts stand on, with four blanks in front for each block around them. -/
def indented (texts : List (Nat × String)) : List String :=
  texts.map fun (depth, text) => String.ofList (List.replicate (4 * depth) ' ') ++ text

def Apart (above below : String) : Prop := above ≠ "" ∨ below ≠ ""

def inked (lines : List String) : List String := lines.filter fun line => line != ""

/-- A page that shows texts on lines of their own, where an empty line stands alone and behind
another line. -/
structure Page.Spaced (page : Page) (texts : List (Nat × String)) : Prop where
  flat : ∀ line ∈ page.lines, Flat line.toList
  first : page.lines.head? ≠ some ""
  apart : page.lines.IsChain Apart
  shown : inked page.lines = indented texts

/-! ### Lines -/

private theorem indent_ne {text : String} (nonempty : text ≠ "") (depth : Nat) :
    indent depth text ≠ "" := by
  rw [indent, Ne, String.append_eq_empty_iff]
  exact fun both => nonempty both.2

namespace Page

variable {page : Page} {texts : List (Nat × String)}

private theorem line_of_ne {text : String} (nonempty : text ≠ "") :
    page.line text = page.extend [indent page.depth text] := by
  simp [line, extend, nonempty]

theorem Spaced.extend {line : String} {more : List (Nat × String)} (spaced : page.Spaced texts)
    (flat : Flat line.toList) (front : page.lines = [] → line ≠ "")
    (behind : ∀ above ∈ page.lines.getLast?, Apart above line)
    (shown : inked [line] = indented more) : (page.extend [line]).Spaced (texts ++ more) where
  flat := List.forall_mem_append.2 ⟨spaced.flat, List.forall_mem_singleton.2 flat⟩
  first := by
    rw [Page.extend, List.head?_append]
    cases found : page.lines.head? with
    | none => simpa using front (List.head?_eq_none_iff.1 found)
    | some text => simpa [found] using spaced.first
  apart := by
    refine List.isChain_append.2 ⟨spaced.apart, List.isChain_singleton _, ?_⟩
    rintro above last _ ⟨⟩
    exact behind above last
  shown := by
    have both : inked (page.extend [line]).lines = inked page.lines ++ inked [line] :=
      List.filter_append _ _
    rw [both, spaced.shown, shown, indented, indented, indented, List.map_append]

theorem Spaced.line {text : String} (spaced : page.Spaced texts) (nonempty : text ≠ "")
    (flat : Flat text.toList) : (page.line text).Spaced (texts ++ [(page.depth, text)]) := by
  have ink := indent_ne nonempty page.depth
  rw [line_of_ne nonempty]
  refine spaced.extend (flat_indent flat page.depth) (fun _ => ink) (fun _ _ => .inr ink) ?_
  have kept : (indent page.depth text != "") = true := bne_iff_ne.2 ink
  exact List.filter_cons_of_pos kept

theorem Spaced.blank (spaced : page.Spaced texts) : page.blank.Spaced texts := by
  unfold Page.blank
  split
  · exact spaced
  · exact spaced
  · rename_i last ink found
    rw [← List.append_nil texts]
    refine spaced.extend (by decide) (fun none => ?_) (fun above member => ?_) rfl
    · exact absurd found (by simp [none])
    · rw [found] at member
      exact .inl (Option.some.inj member ▸ ink)

theorem Spaced.deeper (spaced : page.Spaced texts) : page.deeper.Spaced texts :=
  ⟨spaced.flat, spaced.first, spaced.apart, spaced.shown⟩

theorem Spaced.shallower (spaced : page.Spaced texts) : page.shallower.Spaced texts :=
  ⟨spaced.flat, spaced.first, spaced.apart, spaced.shown⟩

end Page

/-! ### Titles -/

private theorem toNat_ofNat_of_isValidChar {code : Nat} (valid : code.isValidChar) :
    (Char.ofNat code).toNat = code := by
  rw [Char.ofNat, dif_pos valid]
  rfl

private theorem ofNat_ne_lineBreak {code : Nat} (above : 13 < code) :
    Char.ofNat code ≠ '\n' ∧ Char.ofNat code ≠ '\r' := by
  by_cases valid : code.isValidChar
  · have number := toNat_ofNat_of_isValidChar valid
    constructor
    · intro same
      rw [same] at number
      exact absurd above (number ▸ by decide)
    · intro same
      rw [same] at number
      exact absurd above (number ▸ by decide)
  · rw [Char.ofNat, dif_neg valid]
    decide

private theorem flat_upperChar {c : Char} (flat : c ≠ '\n' ∧ c ≠ '\r') : Flat
    (Text.upperChar c) := by
  have expansions : ∀ entry ∈ Text.upperExpansions, ∀ code ∈ entry.2, 13 < code := by decide
  have runs : ∀ run ∈ Text.upperRuns, 13 < run.first + run.shift := by decide +kernel
  unfold Text.upperChar
  dsimp only
  split
  · rename_i codes found
    refine List.forall_mem_map.2 fun code member => ofNat_ne_lineBreak ?_
    exact expansions _ (List.mem_of_find?_eq_some found) code member
  · split
    · rename_i run found
      have low := runs run (List.mem_of_find?_eq_some found)
      have within := List.find?_some found
      simp only [Text.UpperRun.contains, Bool.and_eq_true, decide_eq_true_eq] at within
      refine List.forall_mem_singleton.2 (ofNat_ne_lineBreak ?_)
      omega
    · exact List.forall_mem_singleton.2 flat

private theorem flat_upper {text : String} (flat : Flat text.toList) : Flat
    (Text.upper text).toList := by
  rw [Text.upper, String.toList_ofList]
  intro c member
  obtain ⟨d, inside, within⟩ := List.mem_flatMap.1 member
  exact flat_upperChar (flat d inside) c within

/-! ### Steps -/

private theorem Page.depth_blank (page : Page) : page.blank.depth = page.depth := by
  unfold Page.blank
  split <;> rfl

mutual

private theorem Step.depth_write (page : Page) : ∀ step : Step, (write page step).depth = page.depth
  | .line _ => rfl
  | .blank => page.depth_blank
  | .comment _ => rfl
  | .banner _ => page.depth_blank
  | .block _ body => by
    rw [write, shallower, Step.depth_writeAll _ body]
    rfl

private theorem Step.depth_writeAll (page : Page) :
    ∀ steps : List Step, (writeAll page steps).depth = page.depth
  | [] => by rw [writeAll]
  | step :: rest => by
    rw [writeAll, Step.depth_writeAll _ rest, Step.depth_write page step]

end

private theorem flat_commentLine (text : String) : Flat (commentLine text).toList := by
  rw [commentLine, String.toList_append]
  exact Flat.append (by decide) (flat_flatten text)

theorem Page.Spaced.banner {page : Page} {texts : List (Nat × String)}
    (spaced : page.Spaced texts) {title : String} (flat : Flat title.toList) :
    (page.banner title).Spaced (texts ++ (Step.banner title).texts page.depth) := by
  have rule : bannerRule ≠ "" ∧ Flat bannerRule.toList := ⟨by decide, by decide⟩
  have titled : "// " ++ Text.upper title ≠ "" := by simp
  have heading : Flat ("// " ++ Text.upper title).toList := by
    rw [String.toList_append]
    exact Flat.append (by decide) (flat_upper flat)
  have whole := ((spaced.blank.line rule.1 rule.2).line titled heading).line rule.1 rule.2
  simpa [Page.banner, Step.texts, bannerLines, Page.line, depth_blank] using whole

mutual

private theorem Step.spaced_write {page : Page} {texts : List (Nat × String)}
    (spaced : page.Spaced texts) : ∀ step : Step, step.IsPlain →
      (write page step).Spaced (texts ++ step.texts page.depth)
  | .line text, plain => by
    rw [Step.IsPlain] at plain
    exact spaced.line plain.1 plain.2
  | .blank, _ => by
    rw [write, Step.texts, List.append_nil]
    exact spaced.blank
  | .comment text, _ => spaced.line (commentLine_ne text) (flat_commentLine text)
  | .banner title, plain => by
    rw [Step.IsPlain] at plain
    exact spaced.banner plain
  | .block condition body, plain => by
    rw [Step.IsPlain] at plain
    have guard : Flat ("if " ++ condition).toList := by
      rw [String.toList_append]
      exact Flat.append (by decide) plain.1
    have inside := Step.spaced_writeAll (spaced.line (by simp) guard).deeper body
      plain.2
    have shape : (Step.block condition body).texts page.depth =
        [(page.depth, "if " ++ condition)] ++ Step.textsOf (page.depth + 1) body := by
      rw [Step.texts]
      rfl
    rw [write, shape, ← List.append_assoc]
    exact inside.shallower

private theorem Step.spaced_writeAll {page : Page} {texts : List (Nat × String)}
    (spaced : page.Spaced texts) : ∀ steps : List Step, Step.ArePlain steps →
      (writeAll page steps).Spaced (texts ++ Step.textsOf page.depth steps)
  | [], _ => by
    rw [writeAll, Step.textsOf, List.append_nil]
    exact spaced
  | step :: rest, plain => by
    rw [Step.ArePlain] at plain
    rw [writeAll, Step.textsOf, ← List.append_assoc]
    have later := Step.spaced_writeAll (Step.spaced_write spaced step plain.1) rest plain.2
    rwa [Step.depth_write] at later

end

/-! ### Finished texts -/

/-- A text that shows texts line by line: its lines are ended by a line feed each, no two of them in
a row are empty, and the first or the last is empty only where there is nothing to show. -/
structure LaidOut (code : String) (texts : List (Nat × String)) : Prop where
  ended : code.toList = (Text.lines code).flatMap fun line => line.toList ++ ['\n']
  flat : ∀ line ∈ Text.lines code, Flat line.toList
  first : (Text.lines code).head? = some "" ↔ texts = []
  last : (Text.lines code).getLast? = some "" ↔ texts = []
  apart : (Text.lines code).IsChain Apart
  shown : inked (Text.lines code) = indented texts

private theorem laidOut_nil : LaidOut "\n" [] where
  ended := by decide
  flat := by decide
  first := by decide
  last := by decide
  apart := List.isChain_singleton _
  shown := by decide

private theorem toList_intercalate_lineFeed {lines : List String} (nonempty : lines ≠ []) :
    ("\n".intercalate lines ++ "\n").toList =
      lines.flatMap fun line => line.toList ++ ['\n'] := by
  induction lines with
  | nil => exact absurd rfl nonempty
  | cons line lines ih =>
    cases lines with
    | nil => simp
    | cons next more =>
      have later := ih (List.cons_ne_nil next more)
      rw [String.toList_append] at later
      rw [String.intercalate_cons_cons, List.flatMap_cons, ← later]
      simp

private theorem laidOut_intercalate {lines : List String} {texts : List (Nat × String)}
    (nonempty : lines ≠ []) (flat : ∀ line ∈ lines, Flat line.toList)
    (first : lines.head? ≠ some "") (last : lines.getLast? ≠ some "")
    (apart : lines.IsChain Apart) (shown : inked lines = indented texts) :
    LaidOut ("\n".intercalate lines ++ "\n") texts := by
  have read : Text.lines ("\n".intercalate lines ++ "\n") = lines := by
    rw [Text.lines, lineChars_intercalate nonempty flat]
    simp
  have some : texts ≠ [] := by
    rintro rfl
    obtain ⟨line, more, rfl⟩ := List.exists_cons_of_ne_nil nonempty
    have ink : line ≠ "" := fun empty => first (congrArg _ empty)
    simp [inked, indented, ink] at shown
  constructor
  · rw [read, toList_intercalate_lineFeed nonempty]
  · rwa [read]
  · rw [read]
    exact iff_of_false first some
  · rw [read]
    exact iff_of_false last some
  · rwa [read]
  · rwa [read]

namespace Page

variable {page : Page} {texts : List (Nat × String)}

private theorem trimmedLines_prefix (page : Page) : page.trimmedLines <+: page.lines :=
  List.rdropWhile_prefix _ _

private theorem getLast?_trimmedLines (page : Page) : page.trimmedLines.getLast? ≠ some "" := by
  intro last
  have nonempty : page.trimmedLines ≠ [] := by
    rintro none
    rw [none] at last
    exact absurd last (by simp)
  refine List.rdropWhile_last_not _ _ nonempty ?_
  rw [List.getLast?_eq_some_getLast nonempty] at last
  exact beq_iff_eq.2 (Option.some.inj last)

private theorem inked_trimmedLines (page : Page) : inked page.trimmedLines = inked page.lines := by
  have cut : page.trimmedLines ++ page.lines.rtakeWhile (fun line => line == "") = page.lines :=
    List.rdropWhile_append_rtakeWhile
  have left : inked (page.lines.rtakeWhile fun line => line == "") = [] := by
    refine List.filter_eq_nil_iff.2 fun line member => ?_
    simpa using List.mem_rtakeWhile_imp member
  calc inked page.trimmedLines
      = inked page.trimmedLines ++ inked (page.lines.rtakeWhile fun line => line == "") := by
        rw [left, List.append_nil]
    _ = inked (page.trimmedLines ++ page.lines.rtakeWhile fun line => line == "") :=
        (List.filter_append _ _).symm
    _ = inked page.lines := by rw [cut]

private theorem Spaced.laidOut (spaced : page.Spaced texts) : LaidOut page.finish texts := by
  have shown := page.inked_trimmedLines.trans spaced.shown
  unfold finish
  by_cases none : page.trimmedLines = []
  · rw [none] at shown ⊢
    obtain rfl : texts = [] := List.map_eq_nil_iff.1 shown.symm
    exact laidOut_nil
  · have front := page.trimmedLines_prefix
    have first : page.trimmedLines.head? ≠ some "" := by
      obtain ⟨tail, cut⟩ := front
      have whole := spaced.first
      rwa [← cut, List.head?_append_of_ne_nil _ none] at whole
    have flat : ∀ line ∈ page.trimmedLines, Flat line.toList := fun line member =>
      spaced.flat line (front.subset member)
    have apart : page.trimmedLines.IsChain Apart := List.IsChain.prefix spaced.apart front
    exact laidOut_intercalate none flat first page.getLast?_trimmedLines apart shown

end Page

private theorem spaced_empty : Page.Spaced {} [] where
  flat := by simp
  first := by simp
  apart := .nil
  shown := rfl

/-- Plain steps are laid out as a text that shows what each of them writes, and behind a block the
depth is the one in front of it. -/
theorem layout_laidOut {steps : List Step} (plain : Step.ArePlain steps) :
    LaidOut (layout steps) (Step.textsOf 0 steps) ∧
      ∀ page condition body, (write page (.block condition body)).depth = page.depth := by
  refine ⟨?_, fun page condition body => Step.depth_write page _⟩
  exact (Step.spaced_writeAll spaced_empty steps plain).laidOut

/-- Steps with blanks at both ends and in a row, and with a block in a block. -/
def guardedEntry : List Step :=
  [.blank, .line "x = 1", .blank, .blank, .banner "Logic",
    .block "x > 0" [.blank, .comment "long\nonly", .block "y > x" [.line "buy()", .blank]], .blank]

theorem layout_laidOut_guardedEntry :
    Step.ArePlain guardedEntry ∧
      LaidOut (layout guardedEntry)
        [(0, "x = 1"), (0, bannerRule), (0, "// LOGIC"), (0, bannerRule), (0, "if x > 0"),
          (1, "// long only"), (1, "if y > x"), (2, "buy()")] ∧
      (write {} (.block "x > 0" guardedEntry)).depth = 0 := by
  have plain : Step.ArePlain guardedEntry := by
    simp only [guardedEntry, Step.ArePlain, Step.IsPlain]
    decide
  have texts : Step.textsOf 0 guardedEntry =
      [(0, "x = 1"), (0, bannerRule), (0, "// LOGIC"), (0, bannerRule), (0, "if x > 0"),
        (1, "// long only"), (1, "if y > x"), (2, "buy()")] := by decide
  obtain ⟨laidOut, depth⟩ := layout_laidOut plain
  exact ⟨plain, texts ▸ laidOut, depth {} "x > 0" guardedEntry⟩

/-- A condition is written with the line breaks that it has, and without any steps there is a single
line, which is empty. -/
theorem not_apart_brokenCondition :
    ¬ (Text.lines (layout [.block "a\n\n\nb" []])).IsChain Apart ∧
      (Text.lines (layout [])).getLast? = some "" := by
  have lines : Text.lines (layout [.block "a\n\n\nb" []]) = ["if a", "", "", "b"] := by decide
  refine ⟨?_, by decide⟩
  rw [lines]
  simp [Apart]

end StrategyCompiler.Script
