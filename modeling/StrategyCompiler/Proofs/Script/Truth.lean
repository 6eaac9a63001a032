import StrategyCompiler.Proofs.Script.Reading
/-!
The truth of what is read.  A tree of names, negations and chains has a truth value as soon as its
names have one; the text of a conjunction or disjunction of names reads as a tree with the value of
all or of any of them.
-/

set_option autoImplicit false

namespace StrategyCompiler.Script

namespace Tree

mutual

/-- The truth value of a tree when its names have one; what is neither a name nor put together by
negations and chains has none. -/
def holds? (truth : String → Bool) : Tree → Option Bool
  | name text => some (truth text)
  | bool value => some value
  | not operand => (operand.holds? truth).map Bool.not
  | and terms => (holdEach? truth terms).map fun values => values.all id
  | or terms => (holdEach? truth terms).map fun values => values.any id
  | number _ | string _ | call _ _ | compare _ _ _ | arith _ _ _ => none

def holdEach? (truth : String → Bool) : List Tree → Option (List Bool)
  | [] => some []
  | term :: rest =>
    (term.holds? truth).bind fun value =>
      (holdEach? truth rest).map fun values => value :: values

end

mutual

def names : Tree → List String
  | name text => [text]
  | number _ | bool _ | string _ => []
  | call _ arguments => namesOf arguments
  | compare _ left right | arith _ left right => left.names ++ right.names
  | not operand => operand.names
  | and terms | or terms => namesOf terms

def namesOf : List Tree → List String
  | [] => []
  | term :: rest => term.names ++ namesOf rest

end

private theorem holdEach?_names (truth : String → Bool) (names : List String) :
    holdEach? truth (names.map name) = some (names.map truth) := by
  induction names with
  | nil => rw [List.map_nil, holdEach?, List.map_nil]
  | cons own rest ih => rw [List.map_cons, holdEach?, holds?, ih]; rfl

private theorem namesOf_names (names : List String) : namesOf (names.map name) = names := by
  induction names with
  | nil => rw [List.map_nil, namesOf]
  | cons own rest ih => rw [List.map_cons, namesOf, Tree.names, ih]; rfl

end Tree

private theorem Expr.treesOf_names (names : List String) :
    Expr.treesOf (names.map Expr.name) = names.map Tree.name := by
  rw [Expr.treesOf_eq_map, List.map_map]
  refine List.map_congr_left fun own _ => ?_
  rw [Function.comp_apply, Expr.tree]

/-- A text that reads as a tree with these names, from left to right, and a truth value. -/
def ReadsAs (text : String) (names : List String) (value : (String → Bool) → Bool) : Prop :=
  ∃ tree, parse? text = some tree ∧ tree.names = names ∧
    ∀ truth, tree.holds? truth = some (value truth)

private theorem readsAs_name {name : String} (dotted : isDotted name = true) :
    ReadsAs (Expr.name name).render [name] fun truth => truth name := by
  have own : (Expr.name name).WellFormed := by rwa [Expr.WellFormed]
  refine ⟨_, Expr.parse?_render own, ?_, fun truth => ?_⟩
  · rw [Expr.tree, Tree.names]
  · rw [Expr.tree, Tree.holds?]

section Names

variable {names : List String} (dotted : ∀ name ∈ names, isDotted name = true)
include dotted

private theorem wellFormed_names : Expr.AllWellFormed (names.map Expr.name) := by
  rw [Expr.allWellFormed_iff, List.forall_mem_map]
  intro name member
  rw [Expr.WellFormed]
  exact dotted name member

private theorem readsAs_and (several : 2 ≤ names.length) :
    ReadsAs (Expr.and (names.map Expr.name)).render names fun truth => names.all truth := by
  have own : (Expr.and (names.map Expr.name)).WellFormed := by
    rw [Expr.WellFormed, List.length_map]
    exact ⟨several, wellFormed_names dotted⟩
  refine ⟨_, Expr.parse?_render own, ?_, fun truth => ?_⟩
  · rw [Expr.tree, Expr.treesOf_names, Tree.names, Tree.namesOf_names]
  · rw [Expr.tree, Expr.treesOf_names, Tree.holds?, Tree.holdEach?_names, Option.map_some,
      List.all_map]
    rfl

private theorem readsAs_or (several : 2 ≤ names.length) :
    ReadsAs (Expr.or (names.map Expr.name)).render names fun truth => names.any truth := by
  have own : (Expr.or (names.map Expr.name)).WellFormed := by
    rw [Expr.WellFormed, List.length_map]
    exact ⟨several, wellFormed_names dotted⟩
  refine ⟨_, Expr.parse?_render own, ?_, fun truth => ?_⟩
  · rw [Expr.tree, Expr.treesOf_names, Tree.names, Tree.namesOf_names]
  · rw [Expr.tree, Expr.treesOf_names, Tree.holds?, Tree.holdEach?_names, Option.map_some,
      List.any_map]
    rfl

theorem readsAs_all (some : names ≠ []) :
    ReadsAs (Expr.all (names.map Expr.name)).render names fun truth => names.all truth := by
  match names, some, dotted with
  | [name], _, dotted =>
    have single := readsAs_name (dotted name List.mem_cons_self)
    simpa [Expr.all] using single
  | first :: second :: others, _, dotted =>
    have chain : Expr.all ((first :: second :: others).map Expr.name) =
        .and ((first :: second :: others).map Expr.name) := rfl
    rw [chain]
    exact readsAs_and dotted (by simp)

theorem readsAs_any (some : names ≠ []) :
    ReadsAs (Expr.any (names.map Expr.name)).render names fun truth => names.any truth := by
  match names, some, dotted with
  | [name], _, dotted =>
    have single := readsAs_name (dotted name List.mem_cons_self)
    simpa [Expr.any] using single
  | first :: second :: others, _, dotted =>
    have chain : Expr.any ((first :: second :: others).map Expr.name) =
        .or ((first :: second :: others).map Expr.name) := rfl
    rw [chain]
    exact readsAs_or dotted (by simp)

end Names

end StrategyCompiler.Script
