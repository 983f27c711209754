import CoinSpend.Proofs.Funding
import CoinSpend.Validation.Sanity

/-!
# Totals in words

A running total is kept in a word of 64 bits, and a sum that does not fit is refused like one that
is more than all the money there is.  Nothing negative is added, so no sum falls below the words,
and one that lies above them is too much anyway: the totals are those of exact numbers.
-/

namespace CoinSpend

/-- Add to a total.  There is no sum if it does not fit, or if it is more than all the money. -/
def addMoney? (total value : Int) : Option Int :=
  match fitted? (total + value) with
  | some sum => if sum ≤ Limits.maxMoney then some sum else none
  | none => none

theorem addMoney?_eq {total value : Int} (start : 0 ≤ total) (nonneg : 0 ≤ value) :
    addMoney? total value =
      if Limits.maxMoney < total + value then none else some (total + value) := by
  have small : Limits.maxMoney ≤ 0x7fffffffffffffff := by decide
  rw [addMoney?, fitted?]
  by_cases large : Limits.maxMoney < total + value
  · rw [if_pos large]
    split
    · rename_i sum same
      split_ifs at same
      cases same
      exact if_neg (Int.not_le.mpr large)
    · rfl
  · rw [if_neg large, if_pos ⟨by omega, by omega⟩]
    exact if_pos (Int.not_lt.mp large)

namespace Sanity

/-- `outputFault?` with the total in a word. -/
def outputFaultByWord? (total : Int) : List Output → Option SanityFault
  | [] => none
  | output :: rest =>
      if output.value.toInt < 0 then some .negativeOutput
      else if Limits.maxMoney < output.value.toInt then some .outputTooLarge
      else
        match addMoney? total output.value.toInt with
        | some sum => outputFaultByWord? sum rest
        | none => some .outputTotalTooLarge

theorem outputFaultByWord?_eq {total : Int} (start : 0 ≤ total) (outputs : List Output) :
    outputFaultByWord? total outputs = outputFault? total outputs := by
  induction outputs generalizing total with
  | nil => rfl
  | cons output rest ih =>
      rw [outputFaultByWord?, outputFault?]
      split_ifs with negative large tooMuch
      · rfl
      · rfl
      · rw [addMoney?_eq start (Int.not_lt.mp negative), if_pos tooMuch]
      · rw [addMoney?_eq start (Int.not_lt.mp negative), if_neg tooMuch]
        exact ih (by omega)

end Sanity

namespace InputCheck

/-- `outputTotal` with the total in a word. -/
def outputTotalByWord (total : Int) : List Output → Except InputFault Int
  | [] => .ok total
  | output :: rest =>
      if !isMoney output.value.toInt then .error .outputValueRange
      else
        match addMoney? total output.value.toInt with
        | some sum => outputTotalByWord sum rest
        | none => .error .outputTotalTooLarge

/-- `inputTotal` with the total in a word. -/
def inputTotalByWord (view : CoinView) (height : Int) (total : Int) :
    List Input → Except InputFault Int
  | [] => .ok total
  | input :: rest =>
      match view.get? input.previous with
      | none => .error .missingCoin
      | some coin =>
          if coin.isImmature height then .error .immatureCoinbase
          else if !isMoney coin.value.toInt then .error .inputValueRange
          else
            match addMoney? total coin.value.toInt with
            | some sum => inputTotalByWord view height sum rest
            | none => .error .inputValueRange

theorem nonneg_of_isMoney_add {total value : Int} (start : 0 ≤ total)
    (money : ¬ (!isMoney value) = true) : 0 ≤ value ∧ 0 ≤ total + value := by
  rw [Bool.not_eq_true', Bool.not_eq_false, isMoney_iff] at money
  omega

theorem outputTotalByWord_eq {total : Int} (start : 0 ≤ total) (outputs : List Output) :
    outputTotalByWord total outputs = outputTotal total outputs := by
  induction outputs generalizing total with
  | nil => rfl
  | cons output rest ih =>
      rw [outputTotalByWord, outputTotal]
      split_ifs with outside tooMuch
      · rfl
      · rw [addMoney?_eq start (nonneg_of_isMoney_add start outside).1, if_pos tooMuch]
      · obtain ⟨nonneg, next⟩ := nonneg_of_isMoney_add start outside
        rw [addMoney?_eq start nonneg, if_neg tooMuch]
        exact ih next

theorem inputTotalByWord_eq {view : CoinView} {height total : Int} (start : 0 ≤ total)
    (inputs : List Input) :
    inputTotalByWord view height total inputs = inputTotal view height total inputs := by
  induction inputs generalizing total with
  | nil => rfl
  | cons input rest ih =>
      rw [inputTotalByWord, inputTotal]
      cases view.get? input.previous with
      | none => rfl
      | some coin =>
          dsimp only
          split_ifs with young outside tooMuch
          · rfl
          · rfl
          · rw [addMoney?_eq start (nonneg_of_isMoney_add start outside).1, if_pos tooMuch]
          · obtain ⟨nonneg, next⟩ := nonneg_of_isMoney_add start outside
            rw [addMoney?_eq start nonneg, if_neg tooMuch]
            exact ih next

end InputCheck

end CoinSpend
