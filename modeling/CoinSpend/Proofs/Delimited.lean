import CoinSpend.Proofs.Decoding

/-!
# Forms that end by themselves

Where no form of a value begins the form of another one, bytes that are put together
from forms can be cut apart again in only one way.  Everything that the wire can be read
from has this property, and longer scripts than the reader accepts have it too, as long
as their lengths fit a count.
-/

namespace CoinSpend

namespace Wire

variable {α : Type}

/-- Among the values of a class, a form tells the value and where it ends. -/
def Delimited (valid : α → Prop) (form : α → Bytes) : Prop :=
  ∀ ⦃left right : α⦄, valid left → valid right →
    ∀ ⦃leftRest rightRest : Bytes⦄, form left ++ leftRest = form right ++ rightRest →
      left = right ∧ leftRest = rightRest

/-- What can be read ends by itself, as one byte string is read in one way. -/
theorem Decoder.Reads.delimited {decoder : Decoder α} {valid : α → Prop} {form : α → Bytes}
    (reads : decoder.Reads valid form) : Delimited valid form := by
  intro left right leftValid rightValid leftRest rightRest same
  have leftRead := (reads _ _ _).mpr ⟨leftValid, Reader.takes_append _ leftRest 0⟩
  have rightRead := (reads _ _ _).mpr ⟨rightValid, Reader.takes_append _ rightRest 0⟩
  rw [same, rightRead] at leftRead
  obtain ⟨sameValue, sameReader⟩ := Prod.mk.inj leftRead
  exact ⟨(Except.ok.inj sameValue).symm, (Reader.mk.inj sameReader).1.symm⟩

theorem Delimited.eq_of_form_eq {valid : α → Prop} {form : α → Bytes}
    (delimited : Delimited valid form) {left right : α} (leftValid : valid left)
    (rightValid : valid right) (same : form left = form right) : left = right :=
  (delimited leftValid rightValid (congrArg (· ++ []) same)).1

theorem uint32_delimited : Delimited (fun _ => True) uint32 :=
  Decoder.uint32_reads.delimited

theorem int32_delimited : Delimited (fun _ => True) int32 :=
  Decoder.int32_reads.delimited

theorem int64_delimited : Delimited (fun _ => True) int64 :=
  Decoder.int64_reads.delimited

theorem digest_delimited (size : Nat) : Delimited (fun _ => True) (@Digest.bytes size) :=
  (Decoder.fixed_reads size).delimited

theorem outPoint_delimited : Delimited (fun _ => True) OutPoint.encode :=
  Decoder.outPoint_reads.delimited

theorem compactSize_delimited : Delimited (fun number => number < 2 ^ 64) compactSize :=
  Decoder.count_reads.delimited

/-- A byte string after its length ends by itself, however long it is, if a count can say
how long. -/
theorem lengthPrefixed_delimited :
    Delimited (fun bytes => bytes.length < 2 ^ 64) lengthPrefixed := by
  intro left right leftShort rightShort leftRest rightRest same
  rw [lengthPrefixed, lengthPrefixed, List.append_assoc, List.append_assoc] at same
  obtain ⟨sameLength, same⟩ := compactSize_delimited leftShort rightShort same
  exact List.append_inj same sameLength

section Sequences

variable {valid : α → Prop} {form : α → Bytes} (delimited : Delimited valid form)

include delimited

theorem Delimited.flatMap {left right : List α} (sameLength : left.length = right.length)
    (leftValid : ∀ item ∈ left, valid item) (rightValid : ∀ item ∈ right, valid item)
    {leftRest rightRest : Bytes}
    (same : left.flatMap form ++ leftRest = right.flatMap form ++ rightRest) :
    left = right ∧ leftRest = rightRest := by
  induction left generalizing right with
  | nil =>
      cases List.length_eq_zero_iff.mp sameLength.symm
      exact ⟨rfl, same⟩
  | cons first left ih =>
      cases right with
      | nil => cases sameLength
      | cons other right =>
          obtain ⟨firstValid, leftValid⟩ := List.forall_mem_cons.mp leftValid
          obtain ⟨otherValid, rightValid⟩ := List.forall_mem_cons.mp rightValid
          rw [List.flatMap_cons, List.flatMap_cons, List.append_assoc, List.append_assoc] at same
          obtain ⟨sameFirst, same⟩ := delimited firstValid otherValid same
          obtain ⟨sameLater, sameRest⟩ := ih (Nat.succ.inj sameLength) leftValid rightValid same
          exact ⟨congrArg₂ List.cons sameFirst sameLater, sameRest⟩

theorem Delimited.counted :
    Delimited (fun items => items.length < 2 ^ 64 ∧ ∀ item ∈ items, valid item)
      (counted form) := by
  rintro left right ⟨leftCount, leftValid⟩ ⟨rightCount, rightValid⟩ leftRest rightRest same
  rw [Wire.counted, Wire.counted, List.append_assoc, List.append_assoc] at same
  obtain ⟨sameLength, same⟩ := compactSize_delimited leftCount rightCount same
  exact delimited.flatMap sameLength leftValid rightValid same

end Sequences

theorem input_delimited :
    Delimited (fun input => input.witness = [] ∧ input.unlocking.length < 2 ^ 64)
      Input.encode := by
  rintro left right ⟨leftBare, leftShort⟩ ⟨rightBare, rightShort⟩ leftRest rightRest same
  obtain ⟨leftPrevious, ⟨leftUnlocking⟩, leftWitness, leftSequence⟩ := left
  obtain ⟨rightPrevious, ⟨rightUnlocking⟩, rightWitness, rightSequence⟩ := right
  dsimp only at leftBare rightBare
  subst leftBare rightBare
  simp only [Input.encode, List.append_assoc] at same
  obtain ⟨samePrevious, same⟩ := outPoint_delimited trivial trivial same
  obtain ⟨sameUnlocking, same⟩ := lengthPrefixed_delimited leftShort rightShort same
  obtain ⟨sameSequence, sameRest⟩ := uint32_delimited trivial trivial same
  refine ⟨?_, sameRest⟩
  rw [Input.mk.injEq, Script.mk.injEq]
  exact ⟨samePrevious, sameUnlocking, rfl, sameSequence⟩

theorem output_delimited :
    Delimited (fun output => output.locking.length < 2 ^ 64) Output.encode := by
  intro left right leftShort rightShort leftRest rightRest same
  obtain ⟨leftValue, ⟨leftLocking⟩⟩ := left
  obtain ⟨rightValue, ⟨rightLocking⟩⟩ := right
  simp only [Output.encode, List.append_assoc] at same
  obtain ⟨sameValue, same⟩ := int64_delimited trivial trivial same
  obtain ⟨sameLocking, sameRest⟩ := lengthPrefixed_delimited leftShort rightShort same
  refine ⟨?_, sameRest⟩
  rw [Output.mk.injEq, Script.mk.injEq]
  exact ⟨sameValue, sameLocking⟩

end Wire

namespace Transaction

open Wire

/-- Counts and lengths that the wire form can hold, whether they can be read or not. -/
structure IsCountable (transaction : Transaction) : Prop where
  inputCount : transaction.inputs.length < 2 ^ 64
  outputCount : transaction.outputs.length < 2 ^ 64
  unlocking : ∀ input ∈ transaction.inputs, input.unlocking.length < 2 ^ 64
  locking : ∀ output ∈ transaction.outputs, output.locking.length < 2 ^ 64

/-- The wire form without witnesses says everything that is no witness, and where it
ends. -/
theorem withoutWitness_eq_of_encodeBase_append {left right : Transaction}
    (leftCounts : left.IsCountable) (rightCounts : right.IsCountable)
    {leftRest rightRest : Bytes}
    (same : left.encodeBase ++ leftRest = right.encodeBase ++ rightRest) :
    left.withoutWitness = right.withoutWitness ∧ leftRest = rightRest := by
  have bareInputs (transaction : Transaction) (counts : transaction.IsCountable) :
      (transaction.inputs.map Input.bare).length < 2 ^ 64 ∧
        ∀ input ∈ transaction.inputs.map Input.bare,
          input.witness = [] ∧ input.unlocking.length < 2 ^ 64 := by
    rw [List.length_map, List.forall_mem_map]
    exact ⟨counts.inputCount, fun input member => ⟨rfl, counts.unlocking input member⟩⟩
  rw [encodeBase, encodeBase, encodeWith_eq, encodeWith_eq, encodeBody, encodeBody,
    ← Input.counted_encode_bare left.inputs, ← Input.counted_encode_bare right.inputs] at same
  simp only [opening, Bool.false_eq_true, if_false, List.nil_append, List.append_assoc] at same
  obtain ⟨sameVersion, same⟩ := int32_delimited trivial trivial same
  obtain ⟨sameInputs, same⟩ := input_delimited.counted (bareInputs left leftCounts)
    (bareInputs right rightCounts) same
  obtain ⟨sameOutputs, same⟩ := output_delimited.counted
    ⟨leftCounts.outputCount, leftCounts.locking⟩
    ⟨rightCounts.outputCount, rightCounts.locking⟩ same
  obtain ⟨sameLockTime, same⟩ := uint32_delimited trivial trivial same
  refine ⟨?_, same⟩
  change Transaction.mk left.version (left.inputs.map Input.bare) left.outputs left.lockTime
      false =
    Transaction.mk right.version (right.inputs.map Input.bare) right.outputs right.lockTime false
  rw [sameVersion, sameInputs, sameOutputs, sameLockTime]

end Transaction

end CoinSpend
