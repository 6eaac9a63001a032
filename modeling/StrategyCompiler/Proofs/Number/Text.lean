import StrategyCompiler.Number.Text
import StrategyCompiler.Proofs.Naming.Fresh
import StrategyCompiler.Proofs.Script.Scan
/-!
The written forms of numbers hold no bracket, quote or slash.
-/

set_option autoImplicit false

namespace StrategyCompiler.Number

open Script (Clean)

private theorem clean_of_subset_toDigits {cs : List Char} {number : Nat}
    (subset : cs ⊆ Nat.toDigits 10 number) : Clean cs :=
  Clean.ofPlain (List.all_eq_true.2 fun _ member =>
    Script.isPlain_of_isDigit (Naming.isDigit_of_mem_toDigits (subset member)))

private theorem clean_zeros (n : Nat) : Clean (zeros n) := by
  refine Clean.ofPlain (List.all_eq_true.2 fun c member => ?_)
  rw [List.eq_of_mem_replicate member]
  decide

private theorem Numeral.clean_positional (n : Numeral) : Clean n.positional := by
  unfold positional
  dsimp only
  split
  · exact (clean_of_subset_toDigits fun _ member => member).append (clean_zeros _)
  · split
    · refine (clean_of_subset_toDigits (List.take_subset _ _)).append (Clean.cons (by decide) ?_)
      exact clean_of_subset_toDigits (List.drop_subset _ _)
    · refine (Clean.cons (by decide) (Clean.cons (by decide) (clean_zeros _))).append ?_
      exact clean_of_subset_toDigits fun _ member => member

private theorem Double.clean_withSign {text : List Char} (negative : Bool) (clean : Clean text) :
    Clean (Double.withSign negative text).toList := by
  rw [Double.withSign, String.toList_ofList]
  split
  · exact clean.cons (by decide)
  · exact clean

private theorem Double.clean_plain (x : Double) : Clean x.plain.toList := by
  cases x with
  | nan => exact Clean.ofPlain (by decide)
  | infinite negative => exact clean_withSign negative (Clean.ofPlain (by decide))
  | finite negative units fits =>
    refine clean_withSign negative ?_
    split
    · exact Clean.ofPlain (by decide)
    · exact Numeral.clean_positional _

theorem Double.clean_literal (x : Double) : Clean x.literal.toList := by
  unfold Double.literal
  split
  · rw [String.toList_append]
    exact x.clean_plain.append (Clean.ofPlain (by decide))
  · exact x.clean_plain

theorem clean_toString_nat (value : Nat) : Clean (toString value).toList := by
  rw [Nat.toString_eq_ofList_toDigits, String.toList_ofList]
  exact clean_of_subset_toDigits fun _ member => member

theorem clean_toString_int (value : Int) : Clean (toString value).toList := by
  cases value with
  | ofNat value => exact clean_toString_nat value
  | negSucc value =>
    change Clean ("-" ++ toString (value + 1)).toList
    rw [String.toList_append]
    exact Clean.cons (by decide) (clean_toString_nat _)

theorem Double.clean_typed (x : Double) : Clean x.typed.toList := by
  unfold Double.typed
  split
  · exact clean_toString_int _
  · exact x.clean_plain

end StrategyCompiler.Number
