import StrategyCompiler.Proofs.Compilation.Lines
import StrategyCompiler.Proofs.Script.Render
/-!
Lines that read only what is known, and that the check of a script reads over.  What a line assigns
is known from the next line on.
-/

set_option autoImplicit false

namespace StrategyCompiler.Compilation

open Script (Call Clean CleanWords Expr Statement Tidy isPlain)

/-- Every line reads only what is known in front of it. -/
def Scoped (known : String → Prop) : List Line → Prop
  | [] => True
  | line :: rest =>
    (∀ name ∈ line.reads, known name) ∧
      Scoped (fun name => known name ∨ name ∈ line.assigned) rest

def assignedIn (lines : List Line) : List String := lines.flatMap Line.assigned

variable {known other : String → Prop} {lines more : List Line}

theorem Scoped.mono (implies : ∀ name, known name → other name) (inOrder : Scoped known lines) :
    Scoped other lines := by
  induction lines generalizing known other with
  | nil => trivial
  | cons line rest ih =>
    obtain ⟨here, later⟩ := inOrder
    exact ⟨fun name member => implies name (here name member),
      ih (fun name => Or.imp_left (implies name)) later⟩

theorem Scoped.append (inOrder : Scoped known lines)
    (later : Scoped (fun name => known name ∨ name ∈ assignedIn lines) more) :
    Scoped known (lines ++ more) := by
  induction lines generalizing known with
  | nil =>
    refine later.mono fun name reason => ?_
    simpa [assignedIn] using reason
  | cons line rest ih =>
    refine ⟨inOrder.1, ih inOrder.2 (later.mono fun name reason => ?_)⟩
    simp only [assignedIn, List.flatMap_cons, List.mem_append] at reason ⊢
    tauto

theorem Scoped.of_forall (all : ∀ line ∈ lines, ∀ name ∈ line.reads, known name) :
    Scoped known lines := by
  induction lines generalizing known with
  | nil => trivial
  | cons line rest ih =>
    obtain ⟨here, later⟩ := List.forall_mem_cons.1 all
    exact ⟨here, ih fun line member name read => .inl (later line member name read)⟩

theorem Scoped.split {before after : List Line} {line : Line}
    (inOrder : Scoped known (before ++ line :: after)) {name : String}
    (read : name ∈ line.reads) : known name ∨ ∃ earlier ∈ before, name ∈ earlier.assigned := by
  induction before generalizing known with
  | nil => exact .inl (inOrder.1 name read)
  | cons first rest ih =>
    rcases ih inOrder.2 with (old | own) | ⟨earlier, member, assigns⟩
    · exact .inl old
    · exact .inr ⟨first, List.mem_cons_self, own⟩
    · exact .inr ⟨earlier, List.mem_cons_of_mem _ member, assigns⟩

/-! ### Tidy lines -/

theorem tidy_statement {statement : Statement} (words : CleanWords statement.words) :
    Tidy (Line.statement statement).render.toList :=
  Tidy.ofClean (Script.Statement.clean_render words)

theorem tidy_order {call : Call} (words : CleanWords call.words) :
    Tidy (Line.order call).render.toList :=
  (Tidy.ofClean (Script.Call.clean_render words)).indent 1

theorem tidy_comment (text : String) : Tidy (Line.comment text).render.toList := by
  have flat : Script.Flat (' ' :: (Script.Page.flatten text).toList) := by
    rw [Script.Flat, List.forall_mem_cons]
    exact ⟨by decide, Script.Page.flat_flatten text⟩
  have tidy := Tidy.comment flat
  simpa [Line.comment, Line.render, Script.commentLine] using tidy

theorem tidy_guard {condition : String} (clean : Clean condition.toList) :
    Tidy (Line.guard condition).render.toList := by
  have start : Clean "if ".toList := Clean.ofPlain (by decide)
  rw [Line.render, String.toList_append]
  exact Tidy.ofClean (start.append clean)

theorem tidy_empty : Tidy Line.empty.render.toList := Tidy.ofClean Clean.nil

theorem tidy_banner {title : String} (plain : (Text.upper title).toList.all isPlain = true) :
    ∀ line ∈ Line.banner title, Tidy line.render.toList := by
  have rule : Tidy Script.Page.bannerRule.toList :=
    Tidy.comment (Clean.ofPlain (by decide)).flat
  have flat : Script.Flat (' ' :: (Text.upper title).toList) := by
    rw [Script.Flat, List.forall_mem_cons]
    exact ⟨by decide, (Clean.ofPlain plain).flat⟩
  have titled := Tidy.comment flat
  simp only [Line.banner, Script.bannerLines, List.map_cons, List.map_nil, List.forall_mem_cons,
    List.not_mem_nil, false_implies, implies_true, and_true, Line.render]
  exact ⟨tidy_empty, rule, by simpa using titled, rule⟩

/-! ### Sound lines -/

/-- Lines that the check of a script reads over, and that read only what is known. -/
structure Sound (known : String → Prop) (lines : List Line) : Prop where
  inOrder : Scoped known lines
  tidy : ∀ line ∈ lines, Tidy line.render.toList

namespace Sound

theorem nil : Sound known [] := ⟨trivial, by simp⟩

theorem mono (implies : ∀ name, known name → other name) (sound : Sound known lines) :
    Sound other lines :=
  ⟨sound.inOrder.mono implies, sound.tidy⟩

theorem append (sound : Sound known lines)
    (later : Sound (fun name => known name ∨ name ∈ assignedIn lines) more) :
    Sound known (lines ++ more) :=
  ⟨sound.inOrder.append later.inOrder, List.forall_mem_append.2 ⟨sound.tidy, later.tidy⟩⟩

theorem of_forall (reads : ∀ line ∈ lines, ∀ name ∈ line.reads, known name)
    (tidy : ∀ line ∈ lines, Tidy line.render.toList) : Sound known lines :=
  ⟨Scoped.of_forall reads, tidy⟩

theorem statements {statements : List Statement}
    (reads : ∀ statement ∈ statements, ∀ name ∈ statement.reads, known name)
    (words : ∀ statement ∈ statements, CleanWords statement.words) :
    Sound known (statements.map Line.statement) :=
  of_forall (by simpa [Line.reads] using reads)
    (List.forall_mem_map.2 fun statement member => tidy_statement (words statement member))

theorem statement {statement : Statement} (reads : ∀ name ∈ statement.reads, known name)
    (words : CleanWords statement.words) : Sound known [.statement statement] :=
  of_forall (List.forall_mem_singleton.2 reads)
    (List.forall_mem_singleton.2 (tidy_statement words))

theorem comment (text : String) : Sound known [.comment text] :=
  of_forall (by simp [Line.comment, Line.reads]) (by simpa using tidy_comment text)

theorem banner {title : String} (plain : (Text.upper title).toList.all isPlain = true) :
    Sound known (Line.banner title) :=
  of_forall (by simp [Line.banner, Line.reads]) (tidy_banner plain)

theorem orComment (sound : Sound known lines) (text : String) :
    Sound known (Line.orComment text lines) := by
  unfold Line.orComment
  split
  · exact comment text
  · exact sound

end Sound

end StrategyCompiler.Compilation
