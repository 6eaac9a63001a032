import StrategyCompiler.Proofs.Script.Reading
/-!
Where a phrase has its minus signs.  Outside of literals a minus sign belongs to a numeral, with a
digit behind it, or it stands between blanks; so nothing else that starts with a minus sign can be
a part of a phrase.
-/

set_option autoImplicit false

namespace StrategyCompiler.Script

open Number (IsDecimal IsUnsigned)

/-- Whether outside of literals a blank or a digit follows on each minus sign.  The scan starts
inside of a literal or outside. -/
def minusFits : Bool → List Char → Bool
  | _, [] => true
  | false, '-' :: rest => rest.head?.any (fun c => c == ' ' || c.isDigit) && minusFits false rest
  | false, c :: rest => minusFits (c == '"') rest
  | true, '\\' :: _ :: rest => minusFits true rest
  | true, c :: rest => minusFits (c != '"') rest

/-- A text that can stand anywhere outside of literals without a change for what follows. -/
def MinusFits (cs : List Char) : Prop := ∀ rest, minusFits false (cs ++ rest) = minusFits false rest

namespace MinusFits

private theorem append {left right : List Char} (front : MinusFits left) (back : MinusFits right) :
    MinusFits (left ++ right) := by
  intro rest
  rw [List.append_assoc, front, back]

theorem appendText {left right : String} (front : MinusFits left.toList)
    (back : MinusFits right.toList) : MinusFits (left ++ right).toList := by
  rw [String.toList_append]
  exact front.append back

private theorem cons {c : Char} {cs : List Char} (minus : c ≠ '-') (quote : c ≠ '"')
    (more : MinusFits cs) : MinusFits (c :: cs) := by
  intro rest
  rw [List.cons_append, minusFits, beq_false_of_ne quote, more]
  exact minus

theorem of_all {own : Char → Bool} {cs : List Char} (each : cs.all own = true)
    (minus : own '-' = false) (quote : own '"' = false) : MinusFits cs := by
  induction cs with
  | nil => exact fun _ => rfl
  | cons c cs ih =>
    rw [List.all_cons, Bool.and_eq_true] at each
    refine cons ?_ ?_ (ih each.2)
    · rintro rfl
      exact absurd each.1 (by simp [minus])
    · rintro rfl
      exact absurd each.1 (by simp [quote])

private theorem word {text : String} (own : isWord text = true) : MinusFits text.toList :=
  of_all own (by decide) (by decide)

private theorem intercalate {separator : String} (between : MinusFits separator.toList)
    {texts : List String} (each : ∀ text ∈ texts, MinusFits text.toList) :
    MinusFits (separator.intercalate texts).toList := by
  induction texts with
  | nil => exact fun _ => rfl
  | cons text rest ih =>
    obtain ⟨here, later⟩ := List.forall_mem_cons.1 each
    cases rest with
    | nil => rwa [String.intercalate_singleton]
    | cons next more =>
      rw [String.intercalate_cons_cons]
      exact (here.appendText between).appendText (ih later)

/-! ### Numerals and literals -/

private theorem unsigned {cs : List Char} (own : IsUnsigned cs) : MinusFits cs := by
  have digits {cs : List Char} (own : Number.isDigits cs = true) : MinusFits cs := by
    rw [Number.isDigits, Bool.and_eq_true] at own
    exact of_all own.2 (by decide) (by decide)
  cases own with
  | whole own => exact digits own
  | fraction first second =>
    exact (digits first).append (cons (by decide) (by decide) (digits second))

private theorem decimal {text : String} (own : IsDecimal text) : MinusFits text.toList := by
  cases own with
  | positive own =>
    rw [String.toList_ofList]
    exact unsigned own
  | negative own =>
    intro rest
    obtain ⟨d, more, rfl, digit⟩ := exists_isDigit_of_isUnsigned own
    have behind := unsigned own rest
    rw [List.cons_append] at behind
    rw [String.toList_ofList, List.cons_append, List.cons_append, minusFits, behind]
    simp [digit]

private theorem minusFits_inside {inside : List Char} (ends : isLiteralEnd inside = true)
    (rest : List Char) : minusFits true (inside ++ rest) = minusFits false rest := by
  induction inside using isLiteralEnd.induct with
  | case1 => exact absurd ends (by decide)
  | case2 c inside ih =>
    rw [isLiteralEnd, Bool.and_eq_true] at ends
    rw [List.cons_append, List.cons_append, minusFits, ih ends.2]
  | case3 inside =>
    rw [isLiteralEnd, List.isEmpty_iff] at ends
    subst ends
    rfl
  | case4 c inside escape quote ih =>
    rw [isLiteralEnd] at ends
    · simp only [Bool.and_eq_true, bne_iff_ne] at ends
      have other : (c != '"') = true := bne_iff_ne.2 quote
      rw [List.cons_append, minusFits, other, ih ends.2]
      exact fun _ _ same _ => ends.1.1.1 same
    · exact escape
    · exact quote

private theorem literal {text : String} (own : isLiteral text = true) : MinusFits text.toList := by
  intro rest
  unfold isLiteral at own
  split at own
  · rename_i inside shape
    rw [shape, List.cons_append]
    exact minusFits_inside own rest
  · exact absurd own Bool.false_ne_true

/-! ### Phrases -/

private theorem blanks {sign left right : String} (between : MinusFits (" " ++ sign ++ " ").toList)
    (front : MinusFits left.toList) (back : MinusFits right.toList) :
    MinusFits (left ++ " " ++ sign ++ " " ++ right).toList := by
  have shape : left ++ " " ++ sign ++ " " ++ right = left ++ (" " ++ sign ++ " ") ++ right := by
    simp [String.append_assoc]
  rw [shape]
  exact (front.appendText between).appendText back

theorem of_phrase {strength : Nat} {text : String} (own : Phrase IsDecimal strength text) :
    MinusFits text.toList := by
  have plain (text : String) (each : (text.toList.all fun c => c != '-' && c != '"') = true) :
      MinusFits text.toList := of_all each (by decide) (by decide)
  induction own with
  | loosen _ _ ih => exact ih
  | named ident _ ih =>
    exact ((word (isWord_of_isDotted (isDotted_of_isIdent ident))).appendText
      (plain "=" (by decide))).appendText ih
  | or _ _ ih => exact intercalate (plain " or " (by decide)) ih
  | and _ _ ih => exact intercalate (plain " and " (by decide)) ih
  | not _ ih => exact (plain "not " (by decide)).appendText ih
  | compare sign _ _ first second =>
    have each : ∀ sign ∈ [">", "<", "==", "!="],
        ((" " ++ sign ++ " ").toList.all fun c => c != '-' && c != '"') = true := by decide
    exact blanks (plain _ (each _ sign)) first second
  | sum sign _ _ first second =>
    refine blanks ?_ first second
    rcases List.mem_pair.1 sign with rfl | rfl
    · exact plain " + " (by decide)
    · exact fun _ => rfl
  | product sign _ _ first second =>
    have each : ∀ sign ∈ ["*", "/"],
        ((" " ++ sign ++ " ").toList.all fun c => c != '-' && c != '"') = true := by decide
    exact blanks (plain _ (each _ sign)) first second
  | word dotted => exact word (isWord_of_isDotted dotted)
  | @truth text member =>
    have each : ∀ text ∈ ["true", "false"], isWord text = true := by decide
    exact word (each text member)
  | numeral own => exact decimal own
  | literal own => exact literal own
  | call dotted _ ih =>
    exact (((word (isWord_of_isDotted dotted)).appendText (plain "(" (by decide))).appendText
      (intercalate (plain ", " (by decide)) ih)).appendText (plain ")" (by decide))
  | list _ ih =>
    exact ((plain "[" (by decide)).appendText
      (intercalate (plain ", " (by decide)) ih)).appendText (plain "]" (by decide))
  | group _ ih => exact ((plain "(" (by decide)).appendText ih).appendText (plain ")" (by decide))

end MinusFits

end StrategyCompiler.Script
