import CoinSpend.Proofs.Commitment

/-!
# Inputs are verified apart from each other

What one input offers to open its lock plays no part in the verification of another: no
digest covers it and no lock time looks at it.  So the inputs of a transaction can be signed
and checked in any order.
-/

namespace CoinSpend

namespace Transaction

/-- Two transactions agree on all but what the inputs other than the one with an index offer:
their unlocking scripts, their witnesses, and the witness flag. -/
structure AgreeApartFromOthers (index : Nat) (left right : Transaction) : Prop where
  version : left.version = right.version
  lockTime : left.lockTime = right.lockTime
  outputs : left.outputs = right.outputs
  own : left.inputs[index]? = right.inputs[index]?
  previous : left.inputs.map Input.previous = right.inputs.map Input.previous
  sequences : left.inputs.map Input.sequence = right.inputs.map Input.sequence

namespace AgreeApartFromOthers

variable {index : Nat} {left right : Transaction} (agree : AgreeApartFromOthers index left right)

include agree

theorem length_inputs_eq : left.inputs.length = right.inputs.length := by
  simpa using congrArg List.length agree.previous

theorem agreeFor {input : Input} (found : left.inputs[index]? = some input)
    (hashType : HashType) : AgreeFor index hashType left right where
  version := agree.version
  lockTime := agree.lockTime
  own := ⟨input, input, found, agree.own ▸ found, rfl, rfl⟩
  previous := fun _ => agree.previous
  sequences := fun _ _ => agree.sequences
  outputs := fun _ => agree.outputs
  output := fun _ => by rw [agree.outputs]

theorem signatureDigest_eq (script : Script) (value : Int64) (hashType : HashType)
    (version : SignatureVersion) :
    left.signatureDigest left.midstate index script value hashType version =
      right.signatureDigest right.midstate index script value hashType version := by
  cases found : left.inputs[index]? with
  | none =>
      have outside := List.getElem?_eq_none_iff.mp found
      rw [signatureDigest_of_le _ _ _ _ _ outside,
        signatureDigest_of_le _ _ _ _ _ (agree.length_inputs_eq ▸ outside),
        agree.length_inputs_eq]
  | some input =>
      obtain ⟨digest, signed, same⟩ :=
        (agree.agreeFor found hashType).signatureDigest_eq script value version
      rw [signed, same]

/-- Every question about the spending transaction gets the same answer. -/
theorem checker_eq (value : Int64) :
    (SpendingInput.mk left left.midstate index value).checker =
      (SpendingInput.mk right right.midstate index value).checker := by
  have signatures : (SpendingInput.mk left left.midstate index value).checkSignature =
      (SpendingInput.mk right right.midstate index value).checkSignature := by
    funext signature key script version
    simp only [SpendingInput.checkSignature, agree.signatureDigest_eq]
  have lockTimes : (SpendingInput.mk left left.midstate index value).checkLockTime =
      (SpendingInput.mk right right.midstate index value).checkLockTime := by
    funext operand
    simp only [SpendingInput.checkLockTime, SpendingInput.input?, agree.own, agree.lockTime]
  have sequences : (SpendingInput.mk left left.midstate index value).checkSequence =
      (SpendingInput.mk right right.midstate index value).checkSequence := by
    funext operand
    simp only [SpendingInput.checkSequence, SpendingInput.input?, agree.own, agree.version]
  rw [SpendingInput.checker, SpendingInput.checker, signatures, lockTimes, sequences]

theorem verifyInput_eq (coin : Coin) (flags : Flags) :
    left.verifyInput left.midstate index coin flags =
      right.verifyInput right.midstate index coin flags := by
  rw [verifyInput, verifyInput, agree.own]
  cases right.inputs[index]? with
  | none => rfl
  | some input =>
      dsimp only
      rw [SpendingInput.spend, SpendingInput.spend, agree.checker_eq]

end AgreeApartFromOthers

/-- The transaction with other offers, by position, in place of those of all inputs but one,
and with any witness flag. -/
def replaceOthers (transaction : Transaction) (kept : Nat) (offers : Nat → Script × Witness)
    (witnessFlag : Bool) : Transaction :=
  { transaction with
    inputs := transaction.inputs.mapIdx fun position input =>
      if position = kept then
        input
      else
        { input with unlocking := (offers position).1, witness := (offers position).2 }
    witnessFlag := witnessFlag }

theorem map_inputs_replaceOthers {α : Type} (field : Input → α)
    (apart : ∀ input unlocking witness,
      field { input with unlocking := unlocking, witness := witness } = field input)
    (transaction : Transaction) (kept : Nat) (offers : Nat → Script × Witness)
    (witnessFlag : Bool) :
    (transaction.replaceOthers kept offers witnessFlag).inputs.map field =
      transaction.inputs.map field := by
  apply List.ext_getElem
  · simp [replaceOthers]
  · intro position replaced inside
    simp only [replaceOthers, List.getElem_map, List.getElem_mapIdx]
    split
    · rfl
    · exact apart _ _ _

theorem agreeApartFromOthers_replaceOthers (transaction : Transaction) (index : Nat)
    (offers : Nat → Script × Witness) (witnessFlag : Bool) :
    AgreeApartFromOthers index transaction
      (transaction.replaceOthers index offers witnessFlag) where
  version := rfl
  lockTime := rfl
  outputs := rfl
  own := by simp [replaceOthers, List.getElem?_mapIdx]
  previous := (map_inputs_replaceOthers _ (fun _ _ _ => rfl) _ _ _ _).symm
  sequences := (map_inputs_replaceOthers _ (fun _ _ _ => rfl) _ _ _ _).symm

end Transaction

/-- Whatever the other inputs offer, an input is verified with the same result and the same
questions. -/
theorem verification_ignores_offers_of_other_inputs (transaction : Transaction) (index : Nat)
    (coin : Coin) (flags : Flags) (offers : Nat → Script × Witness) (witnessFlag : Bool) :
    ((MemoTransaction.fresh (transaction.replaceOthers index offers witnessFlag)).verifyInput
        index coin flags).1 =
      ((MemoTransaction.fresh transaction).verifyInput index coin flags).1 :=
  ((transaction.agreeApartFromOthers_replaceOthers index offers witnessFlag).verifyInput_eq
    coin flags).symm

end CoinSpend
