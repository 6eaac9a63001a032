import StrategyCompiler.Json.Value
/-!
The entries of objects after changes.  An object answers for a key with the first field of this key;
changes to other keys leave the answer as it is.
-/

set_option autoImplicit false

namespace StrategyCompiler.Json.Object

private theorem get?_cons (field : String × Value) (rest : Object) (key : String) :
    get? (field :: rest) key = if field.1 = key then some field.2 else get? rest key := by
  by_cases same : field.1 = key
  · simp [get?, same]
  · simp [get?, same]

theorem get?_insert (entered : String) (value : Value) (fields : Object) (key : String) :
    get? (insert entered value fields) key =
      if entered = key then some value else get? fields key := by
  induction fields with
  | nil => rw [insert, get?_cons]
  | cons field rest ih =>
    rw [insert]
    split
    · rw [get?_cons]
    · split
      · rename_i same
        rw [get?_cons, get?_cons, ← beq_iff_eq.1 same]
        by_cases own : entered = key
        · rw [if_pos own, if_pos own]
        · rw [if_neg own, if_neg own, if_neg own]
      · rename_i other
        rw [get?_cons, get?_cons, ih]
        by_cases own : field.1 = key
        · have apart : entered ≠ key := fun same => other (beq_iff_eq.2 (same.trans own.symm))
          rw [if_pos own, if_neg apart, if_pos own]
        · rw [if_neg own, if_neg own]

private theorem get?_filter (kept : String → Bool) (fields : Object) (key : String) :
    get? (fields.filter fun field => kept field.1) key =
      if kept key then get? fields key else none := by
  induction fields with
  | nil => exact (ite_self _).symm
  | cons field rest ih =>
    rw [List.filter_cons, get?_cons]
    by_cases same : field.1 = key
    · subst same
      cases keeps : kept field.1 with
      | false =>
        rw [keeps] at ih
        exact ih
      | true => rw [if_pos rfl, get?_cons, if_pos rfl, if_pos rfl, if_pos rfl]
    · rw [if_neg same]
      split
      · rw [get?_cons, if_neg same, ih]
      · exact ih

def erase (fields : Object) (key : String) : Object :=
  fields.filter fun field => field.1 != key

theorem get?_erase (fields : Object) (erased key : String) :
    get? (erase fields erased) key = if key = erased then none else get? fields key := by
  rw [erase, get?_filter (· != erased)]
  by_cases same : key = erased
  · rw [if_pos same, same, bne_self_eq_false, if_neg Bool.false_ne_true]
  · rw [if_neg same, if_pos (bne_iff_ne.2 same)]

def withoutNulls (fields : Object) : Object :=
  fields.filter fun field => !(get? fields field.1).any Value.isNull

theorem get?_withoutNulls (fields : Object) (key : String) :
    get? (withoutNulls fields) key = (get? fields key).filter fun value => !value.isNull := by
  rw [withoutNulls, get?_filter fun key => !(get? fields key).any Value.isNull]
  cases get? fields key with
  | none => rfl
  | some value => cases value <;> rfl

end StrategyCompiler.Json.Object
