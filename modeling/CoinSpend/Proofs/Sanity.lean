import CoinSpend.Proofs.Funding
import CoinSpend.Validation.Sanity

/-!
# Sane transactions

The rules of sanity are checked one after the other, and the values of the outputs with a
running total.  A transaction is sane exactly if all of them hold, and the last total
speaks for the ones before it.
-/

namespace CoinSpend

namespace Sanity

/-- The running total of outputs stays in range if the last one does. -/
theorem outputFault?_eq_none_iff {total : Int} {outputs : List Output}
    (within : total ≤ Limits.maxMoney) :
    outputFault? total outputs = none ↔
      (∀ output ∈ outputs, isMoney output.value.toInt = true) ∧
        total + Output.sumOfValues outputs ≤ Limits.maxMoney := by
  induction outputs generalizing total with
  | nil =>
      rw [Output.sumOfValues_nil, Int.add_zero]
      exact ⟨fun _ => ⟨nofun, within⟩, fun _ => rfl⟩
  | cons output rest ih =>
      rw [outputFault?, List.forall_mem_cons, Output.sumOfValues_cons, ← Int.add_assoc,
        isMoney_iff]
      split_ifs with negative large totalLarge
      · exact ⟨nofun, fun valid => absurd valid.1.1.1 (Int.not_le.mpr negative)⟩
      · exact ⟨nofun, fun valid => absurd valid.1.1.2 (Int.not_le.mpr large)⟩
      · constructor
        · exact nofun
        · rintro ⟨⟨-, restMoney⟩, lastFits⟩
          have grows := Output.sumOfValues_nonneg restMoney
          omega
      · rw [ih (Int.not_lt.mp totalLarge)]
        simp only [Int.not_lt.mp negative, Int.not_lt.mp large, true_and]

theorem hasRepeat_eq_false_iff {outPoints : List OutPoint} :
    hasRepeat outPoints = false ↔ outPoints.Nodup := by
  induction outPoints with
  | nil => exact ⟨fun _ => .nil, fun _ => rfl⟩
  | cons outPoint rest ih =>
      rw [hasRepeat, Bool.or_eq_false_iff, ih, List.nodup_cons, ← Bool.not_eq_true,
        List.contains_iff_mem]

end Sanity

namespace Transaction

/-- All rules of sanity at once. -/
structure Sane (transaction : Transaction) : Prop where
  hasInputs : transaction.inputs ≠ []
  hasOutputs : transaction.outputs ≠ []
  small : transaction.baseSize ≤ Limits.maxTransactionSize
  money : ∀ output ∈ transaction.outputs, isMoney output.value.toInt = true
  inRange : Output.sumOfValues transaction.outputs ≤ Limits.maxMoney
  distinct : (transaction.inputs.map Input.previous).Nodup
  coinbase : Sanity.coinbaseFault? transaction = none

variable {transaction : Transaction}

theorem isSane_iff : transaction.isSane = true ↔ transaction.Sane := by
  have values : Sanity.outputFault? 0 transaction.outputs = none ↔ _ :=
    Sanity.outputFault?_eq_none_iff (by decide)
  rw [Int.zero_add] at values
  rw [isSane, Option.isNone_iff_eq_none, sanityFault?]
  constructor
  · intro faultless
    split_ifs at faultless with noInputs noOutputs large repeats
    · split at faultless <;> cases faultless
    · split at faultless
      · cases faultless
      · rename_i valuesPass
        obtain ⟨money, inRange⟩ := values.mp valuesPass
        rw [List.isEmpty_iff] at noInputs noOutputs
        rw [Bool.not_eq_true] at repeats
        exact ⟨noInputs, noOutputs, Nat.not_lt.mp large, money, inRange,
          Sanity.hasRepeat_eq_false_iff.mp repeats, faultless⟩
  · intro sane
    rw [List.isEmpty_eq_false_iff.mpr sane.hasInputs, if_neg Bool.false_ne_true,
      List.isEmpty_eq_false_iff.mpr sane.hasOutputs, if_neg Bool.false_ne_true,
      if_neg (Nat.not_lt.mpr sane.small), values.mpr ⟨sane.money, sane.inRange⟩]
    dsimp only
    rw [Sanity.hasRepeat_eq_false_iff.mpr sane.distinct, if_neg Bool.false_ne_true]
    exact sane.coinbase

theorem Sane.length_outputs_lt (sane : transaction.Sane) :
    transaction.outputs.length < UInt32.size := by
  have counted : transaction.outputs.length ≤ sumOf Output.size transaction.outputs := by
    refine length_le_sumOf _ (fun output => ?_) _
    rw [Output.size]
    omega
  have within : sumOf Output.size transaction.outputs ≤ transaction.baseSize := by
    rw [baseSize]
    omega
  have small : transaction.baseSize < UInt32.size :=
    Nat.lt_of_le_of_lt sane.small (by decide)
  omega

end Transaction

end CoinSpend
