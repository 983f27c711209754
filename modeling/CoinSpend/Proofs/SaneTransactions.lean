import CoinSpend.Proofs.CheckedTotals
import CoinSpend.Proofs.Sanity
import CoinSpend.Proofs.Sizes

/-!
# Sanity does not depend on order

Sanity is found out by scans that stop at the first fault, and some of them carry a total or what
was seen before.  Together they say something about inputs and outputs as a whole, and look at no
more of an input than what it spends and how it unlocks it.
-/

namespace CoinSpend

theorem OutPoint.isNull_iff {outPoint : OutPoint} :
    outPoint.isNull = true ↔ outPoint = .null := by
  obtain ⟨hash, index⟩ := outPoint
  rw [isNull, Bool.and_eq_true, beq_iff_eq, beq_iff_eq, null, OutPoint.mk.injEq, and_comm]

namespace Transaction

variable {transaction other : Transaction}

theorem isCoinbase_iff :
    transaction.isCoinbase = true ↔
      ∃ input, transaction.inputs = [input] ∧ input.previous = .null := by
  rw [isCoinbase]
  split
  · rename_i input single
    rw [OutPoint.isNull_iff, single]
    simp
  · rename_i several
    exact iff_of_false Bool.false_ne_true fun ⟨input, single, _⟩ => several input single

/-- A transaction is a coinbase with a script of an allowed length, or names no place-holder. -/
theorem coinbaseFault?_eq_none_iff :
    Sanity.coinbaseFault? transaction = none ↔
      (∃ input, transaction.inputs = [input] ∧ input.previous = .null ∧
        2 ≤ input.unlocking.length ∧ input.unlocking.length ≤ 100) ∨
      ∀ input ∈ transaction.inputs, input.previous ≠ .null := by
  rw [Sanity.coinbaseFault?]
  by_cases coinbase : transaction.isCoinbase = true
  · obtain ⟨input, single, isNull⟩ := isCoinbase_iff.mp coinbase
    rw [if_pos coinbase, single]
    simp [isNull]
  · rw [if_neg coinbase]
    have someNull : (transaction.inputs.any fun input => input.previous.isNull) = true ↔
        ¬ ∀ input ∈ transaction.inputs, input.previous ≠ .null := by
      simp [OutPoint.isNull_iff]
    by_cases free : ∀ input ∈ transaction.inputs, input.previous ≠ .null
    · rw [if_neg (someNull.not.mpr (not_not_intro free))]
      exact iff_of_true rfl (.inr free)
    · rw [if_pos (someNull.mpr free)]
      refine iff_of_false nofun ?_
      rintro (⟨input, single, isNull, -⟩ | noNull)
      · exact coinbase (isCoinbase_iff.mpr ⟨input, single, isNull⟩)
      · exact free noNull

end Transaction

/-! ## Other orders -/

/-- What sanity looks at in an input. -/
def Input.spending (input : Input) : OutPoint × Script :=
  (input.previous, input.unlocking)

namespace Transaction

variable {transaction other : Transaction}

section Reordered

variable (inputs : (other.inputs.map Input.spending).Perm (transaction.inputs.map Input.spending))

include inputs

theorem exists_spending {input : Input} (member : input ∈ other.inputs) :
    ∃ same ∈ transaction.inputs, same.previous = input.previous ∧
      same.unlocking = input.unlocking := by
  have found := inputs.mem_iff.mp (List.mem_map_of_mem member)
  obtain ⟨same, isMember, spends⟩ := List.mem_map.mp found
  exact ⟨same, isMember, congrArg Prod.fst spends, congrArg Prod.snd spends⟩

theorem coinbaseFault?_of_reordered (faultless : Sanity.coinbaseFault? transaction = none) :
    Sanity.coinbaseFault? other = none := by
  rw [coinbaseFault?_eq_none_iff] at faultless ⊢
  rcases faultless with ⟨input, single, isNull, least, most⟩ | noNull
  · rw [single, List.map_singleton, List.perm_singleton, List.map_eq_singleton_iff] at inputs
    obtain ⟨only, isOnly, spends⟩ := inputs
    have sameScript : only.unlocking = input.unlocking := congrArg Prod.snd spends
    have sameOutPoint : only.previous = input.previous := congrArg Prod.fst spends
    refine .inl ⟨only, isOnly, sameOutPoint.trans isNull, ?_, ?_⟩
    · rwa [sameScript]
    · rwa [sameScript]
  · refine .inr fun input member => ?_
    obtain ⟨same, isMember, sameOutPoint, -⟩ := exists_spending inputs member
    rw [← sameOutPoint]
    exact noNull same isMember

theorem baseSize_of_reordered (outputs : other.outputs.Perm transaction.outputs) :
    other.baseSize = transaction.baseSize := by
  have inputSizes : sumOf Input.size other.inputs = sumOf Input.size transaction.inputs := by
    have sizes := sumOf_perm
      (fun spending : OutPoint × Script => 32 + 4 + Wire.lengthPrefixedSize spending.2.length + 4)
      inputs
    rw [sumOf_map, sumOf_map] at sizes
    exact sizes
  have inputCount := inputs.length_eq
  rw [List.length_map, List.length_map] at inputCount
  rw [baseSize, baseSize, inputSizes, inputCount, outputs.length_eq, sumOf_perm _ outputs]

/-- Reordered inputs and outputs are as sane as before, whatever else is different. -/
theorem Sane.of_reordered (outputs : other.outputs.Perm transaction.outputs)
    (sane : transaction.Sane) : other.Sane where
  hasInputs := by
    intro noInputs
    rw [noInputs, List.map_nil, List.nil_perm, List.map_eq_nil_iff] at inputs
    exact sane.hasInputs inputs
  hasOutputs := by
    intro noOutputs
    rw [noOutputs, List.nil_perm] at outputs
    exact sane.hasOutputs outputs
  small := by
    rw [baseSize_of_reordered inputs outputs]
    exact sane.small
  money := fun output member => sane.money output (outputs.mem_iff.mp member)
  inRange := by
    have total : Output.sumOfValues other.outputs = Output.sumOfValues transaction.outputs :=
      totalOf_perm _ outputs
    rw [total]
    exact sane.inRange
  distinct := by
    have outPoints := inputs.map Prod.fst
    rw [List.map_map, List.map_map] at outPoints
    exact outPoints.nodup_iff.mpr sane.distinct
  coinbase := coinbaseFault?_of_reordered inputs sane.coinbase

end Reordered

/-- A transaction is sane exactly if a number of things hold of its inputs and outputs in no
order.  So neither another order nor anything else about it changes that.  The totals may be kept
in words. -/
theorem sanity_is_free_of_order (transaction : Transaction) :
    (transaction.isSane = true ↔
      transaction.inputs ≠ [] ∧ transaction.outputs ≠ [] ∧
      transaction.encodeBase.length ≤ 1000000 ∧
      (∀ output ∈ transaction.outputs,
        0 ≤ output.value.toInt ∧ output.value.toInt ≤ 2100000000000000) ∧
      Output.sumOfValues transaction.outputs ≤ 2100000000000000 ∧
      (transaction.inputs.map Input.previous).Nodup ∧
      ((∃ input, transaction.inputs = [input] ∧ input.previous = .null ∧
          2 ≤ input.unlocking.length ∧ input.unlocking.length ≤ 100) ∨
        ∀ input ∈ transaction.inputs, input.previous ≠ .null)) ∧
    (∀ other : Transaction,
      (other.inputs.map Input.spending).Perm (transaction.inputs.map Input.spending) →
      other.outputs.Perm transaction.outputs → other.isSane = transaction.isSane) ∧
    Sanity.outputFaultByWord? 0 transaction.outputs =
      Sanity.outputFault? 0 transaction.outputs := by
  refine ⟨?_, fun other inputs outputs => ?_,
    Sanity.outputFaultByWord?_eq (Int.le_refl 0) transaction.outputs⟩
  · rw [isSane_iff, length_encodeBase, ← coinbaseFault?_eq_none_iff]
    constructor
    · intro sane
      exact ⟨sane.hasInputs, sane.hasOutputs, sane.small,
        fun output member => isMoney_iff.mp (sane.money output member), sane.inRange,
        sane.distinct, sane.coinbase⟩
    · rintro ⟨hasInputs, hasOutputs, small, money, inRange, distinct, coinbase⟩
      exact ⟨hasInputs, hasOutputs, small,
        fun output member => isMoney_iff.mpr (money output member), inRange, distinct, coinbase⟩
  · rw [Bool.eq_iff_iff, isSane_iff, isSane_iff]
    exact ⟨Sane.of_reordered inputs.symm outputs.symm, Sane.of_reordered inputs outputs⟩

def allTheMoney : Transaction where
  version := 1
  inputs := [⟨⟨.zero 32, 0⟩, ⟨[0x51]⟩, [[1]], 0⟩, ⟨⟨.zero 32, 1⟩, .empty, [], 0xffffffff⟩]
  outputs := [⟨2099999999999999, .empty⟩, ⟨1, ⟨[0x51]⟩⟩]
  lockTime := 0
  witnessFlag := true

/-- The same in the other order, with other witnesses, sequence numbers, version and lock time. -/
def allTheMoneyReordered : Transaction where
  version := -7
  inputs := [⟨⟨.zero 32, 1⟩, .empty, [[], [2]], 5⟩, ⟨⟨.zero 32, 0⟩, ⟨[0x51]⟩, [], 6⟩]
  outputs := [⟨1, ⟨[0x51]⟩⟩, ⟨2099999999999999, .empty⟩]
  lockTime := 9
  witnessFlag := false

theorem all_the_money_is_sane_in_any_order :
    (allTheMoneyReordered.inputs.map Input.spending).Perm (allTheMoney.inputs.map Input.spending) ∧
      allTheMoneyReordered.outputs.Perm allTheMoney.outputs ∧
      allTheMoneyReordered.isSane = allTheMoney.isSane ∧ allTheMoney.isSane = true := by
  obtain ⟨whenSane, reordered, -⟩ := sanity_is_free_of_order allTheMoney
  have inputs : (allTheMoneyReordered.inputs.map Input.spending).Perm
      (allTheMoney.inputs.map Input.spending) := .swap _ _ _
  have outputs : allTheMoneyReordered.outputs.Perm allTheMoney.outputs := .swap _ _ _
  refine ⟨inputs, outputs, reordered _ inputs outputs, whenSane.mpr ?_⟩
  refine ⟨List.cons_ne_nil _ _, List.cons_ne_nil _ _, ?_, by decide, by decide, by decide,
    .inr (by decide)⟩
  rw [length_encodeBase]
  decide

end Transaction

end CoinSpend
