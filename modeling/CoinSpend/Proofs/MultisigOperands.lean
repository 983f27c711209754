import CoinSpend.Interpreter.Multisig
import CoinSpend.Proofs.Outcome

/-!
# Where the operands of a multiple check lie

The operands are read from the top of a stack down: the number of keys, the keys, the number
of signatures, the signatures, and an element that is not used.
-/

namespace CoinSpend

namespace MultisigOperands

/-- The operands lie on top of a stack, in their order. -/
structure LieOn (operands : MultisigOperands) (stack : Stack) : Prop where
  split : ∃ keyCount signatureCount, stack = keyCount :: (operands.keys ++
    signatureCount :: (operands.signatures ++ operands.extra :: operands.rest))
  enough : operands.signatures.length ≤ operands.keys.length

theorem LieOn.split_at_signatures {operands : MultisigOperands} {stack : Stack}
    (lie : operands.LieOn stack) :
    ∃ passed : List Bytes, passed.length = operands.keys.length + 2 ∧
      stack = passed ++ (operands.signatures ++ operands.extra :: operands.rest) := by
  obtain ⟨⟨keyCount, signatureCount, rfl⟩, -⟩ := lie
  refine ⟨keyCount :: (operands.keys ++ [signatureCount]), ?_, ?_⟩
  · rw [List.length_cons, List.length_append, List.length_singleton]
  · rw [List.cons_append, List.append_assoc]
    rfl

theorem LieOn.rest_subset {operands : MultisigOperands} {stack : Stack}
    (lie : operands.LieOn stack) : operands.rest ⊆ stack := by
  obtain ⟨⟨keyCount, signatureCount, rfl⟩, -⟩ := lie
  intro element member
  have below := List.mem_cons_of_mem operands.extra member
  have above := List.mem_append_right operands.signatures below
  have higher := List.mem_append_right operands.keys (List.mem_cons_of_mem signatureCount above)
  exact List.mem_cons_of_mem keyCount higher

section Drop

variable {stack below : Stack} {depth : Nat} {element : Bytes}
  (split : stack.drop depth = element :: below)

include split in
theorem length_of_drop_eq_cons : stack.length = depth + below.length + 1 := by
  have length := congrArg List.length split
  rw [List.length_drop, List.length_cons] at length
  omega

include split in
theorem length_take_of_drop_eq_cons : (stack.take depth).length = depth := by
  have length := length_of_drop_eq_cons split
  exact List.length_take_of_le (by omega)

end Drop

section Read

variable {requireMinimal : Bool} {most count : Nat} {error : ScriptError} {stack rest : Stack}

theorem of_readCount_eq_ok
    (read : readCount requireMinimal most error stack = .ok (count, rest)) :
    count ≤ most ∧
      ∃ top, stack = top :: rest ∧ Stack.operand requireMinimal top = .ok (count : Int) := by
  cases stack with
  | nil => cases read
  | cons top below =>
      obtain ⟨number, isNumber, read⟩ := Except.bind_eq_ok_iff.mp read
      split at read
      · rename_i bounds
        cases read
        refine ⟨Int.toNat_le.mpr bounds.2, top, rfl, ?_⟩
        rw [isNumber, Int.toNat_of_nonneg bounds.1]
      · cases read

theorem readCount_of_operand {top : Bytes} (within : count ≤ most)
    (isCount : Stack.operand requireMinimal top = .ok (count : Int)) :
    readCount requireMinimal most error (top :: rest) = .ok (count, rest) := by
  have bounds : (0 : Int) ≤ count ∧ (count : Int) ≤ most := by omega
  refine Except.bind_eq_ok_iff.mpr ⟨count, isCount, ?_⟩
  rw [if_pos bounds, Int.toNat_natCast]

end Read

/-- The operands lie on top of a stack, below counts that are read as their numbers. -/
structure LaidOut (operands : MultisigOperands) (requireMinimal : Bool) (stack : Stack) :
    Prop where
  split : ∃ keyCount signatureCount,
    stack = keyCount :: (operands.keys ++
      signatureCount :: (operands.signatures ++ operands.extra :: operands.rest)) ∧
    Stack.operand requireMinimal keyCount = .ok (operands.keys.length : Int) ∧
    Stack.operand requireMinimal signatureCount = .ok (operands.signatures.length : Int)
  enough : operands.signatures.length ≤ operands.keys.length
  few : operands.keys.length ≤ Limits.maxMultisigKeys

theorem LaidOut.lieOn {operands : MultisigOperands} {requireMinimal : Bool} {stack : Stack}
    (laid : operands.LaidOut requireMinimal stack) : operands.LieOn stack := by
  obtain ⟨⟨keyCount, signatureCount, split, -⟩, enough, -⟩ := laid
  exact ⟨⟨keyCount, signatureCount, split⟩, enough⟩

end MultisigOperands

namespace Context

variable {context : Context} {state counted : State} {operands : MultisigOperands}

/-- Operands that are read are laid out on the stack, and their keys are counted. -/
theorem laidOut_of_multisigOperands
    (read : context.multisigOperands state = .ok (operands, counted)) :
    operands.LaidOut context.requireMinimal state.stack ∧
      state.countOperations operands.keys.length = .ok counted := by
  obtain ⟨⟨keyCount, below⟩, readKeys, read⟩ := Except.bind_eq_ok_iff.mp read
  obtain ⟨most, top, isTop, isKeyCount⟩ := MultisigOperands.of_readCount_eq_ok readKeys
  obtain ⟨afterKeys, counts, read⟩ := Except.bind_eq_ok_iff.mp read
  obtain ⟨⟨signatureCount, afterCounts⟩, readSignatures, read⟩ := Except.bind_eq_ok_iff.mp read
  obtain ⟨enough, second, isSecond, isSignatureCount⟩ :=
    MultisigOperands.of_readCount_eq_ok readSignatures
  dsimp only at read counts isSecond enough
  split at read
  · rename_i extra rest isExtra
    cases read
    have keys := MultisigOperands.length_take_of_drop_eq_cons isSecond
    have signatures := MultisigOperands.length_take_of_drop_eq_cons isExtra
    refine ⟨⟨⟨top, second, ?_, ?_, ?_⟩, ?_, ?_⟩, ?_⟩
    · rw [isTop, ← isExtra, List.take_append_drop, ← isSecond, List.take_append_drop]
    · rw [keys]
      exact isKeyCount
    · rw [signatures]
      exact isSignatureCount
    · rw [keys, signatures]
      exact enough
    · rw [keys]
      exact most
    · rw [keys]
      exact counts
  · cases read

theorem multisigOperands_of_laidOut
    (laid : operands.LaidOut context.requireMinimal state.stack)
    (counts : state.countOperations operands.keys.length = .ok counted) :
    context.multisigOperands state = .ok (operands, counted) := by
  obtain ⟨⟨keyCount, signatureCount, split, isKeyCount, isSignatureCount⟩, enough, few⟩ := laid
  rw [multisigOperands, split]
  refine Except.bind_eq_ok_iff.mpr
    ⟨_, MultisigOperands.readCount_of_operand few isKeyCount, ?_⟩
  refine Except.bind_eq_ok_iff.mpr ⟨counted, counts, ?_⟩
  dsimp only
  rw [List.drop_left, List.take_left]
  refine Except.bind_eq_ok_iff.mpr
    ⟨_, MultisigOperands.readCount_of_operand enough isSignatureCount, ?_⟩
  dsimp only
  rw [List.drop_left, List.take_left]

/-- Operands that are read lie on the stack, and their keys are counted and at most 20. -/
theorem of_multisigOperands_eq_ok
    (read : context.multisigOperands state = .ok (operands, counted)) :
    operands.LieOn state.stack ∧
      (∃ top below, state.stack = top :: below ∧
        Stack.operand context.requireMinimal top = .ok (operands.keys.length : Int)) ∧
      operands.keys.length ≤ Limits.maxMultisigKeys ∧
      state.countOperations operands.keys.length = .ok counted := by
  obtain ⟨laid, counts⟩ := laidOut_of_multisigOperands read
  obtain ⟨keyCount, signatureCount, split, isKeyCount, -⟩ := laid.split
  exact ⟨laid.lieOn, ⟨keyCount, _, split, isKeyCount⟩, laid.few, counts⟩

end Context

end CoinSpend
