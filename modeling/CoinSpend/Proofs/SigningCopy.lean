import CoinSpend.Signature.Digest
import Mathlib.Data.List.Basic

/-!
# The transaction that a signature covers

The base version hashes a transaction that is never built.  Here it is built, by
editing a copy step by step, and its wire form is what is hashed.
-/

namespace CoinSpend

namespace Transaction

/-! ## Editing a copy -/

/-- The signed input gets the script, the other inputs lose theirs. -/
def blankScripts (transaction : Transaction) (index : Nat) (script : Script) : Transaction :=
  { transaction with
    inputs := transaction.inputs.mapIdx fun position input =>
      { input with unlocking := if position = index then script else .empty } }

def dropOutputs (transaction : Transaction) : Transaction :=
  { transaction with outputs := [] }

/-- Nothing stays after the output with the index of the input, and nothing of what is
before it but the count. -/
def cutOutputs (transaction : Transaction) (index : Nat) : Transaction :=
  { transaction with
    outputs := (transaction.outputs.take (index + 1)).mapIdx fun position output =>
      if position < index then ⟨-1, .empty⟩ else output }

def zeroSequences (transaction : Transaction) (index : Nat) : Transaction :=
  { transaction with
    inputs := transaction.inputs.mapIdx fun position input =>
      if position = index then input else { input with sequence := 0 } }

def keepInput (transaction : Transaction) (index : Nat) : Transaction :=
  { transaction with inputs := transaction.inputs[index]?.toList }

def scopedCopy (transaction : Transaction) (index : Nat) (script : Script)
    (hashType : HashType) : Transaction :=
  let blanked := transaction.blankScripts index script
  if hashType &&& 0x1f = 2 then blanked.dropOutputs.zeroSequences index
  else if hashType &&& 0x1f = 3 then (blanked.cutOutputs index).zeroSequences index
  else blanked

/-- What a signature of the base version covers, as a transaction. -/
def signingCopy (transaction : Transaction) (index : Nat) (script : Script)
    (hashType : HashType) : Transaction :=
  if hashType &&& 0x80 = 0 then
    transaction.scopedCopy index script hashType
  else
    (transaction.scopedCopy index script hashType).keepInput index

/-! ## Inputs of the copy -/

def coveredInput (scope : HashType.Scope) (index : Nat) (script : Script) (position : Nat)
    (input : Input) : Input :=
  if position = index then
    { input with unlocking := script }
  else
    { input with
      unlocking := .empty
      sequence := if scope = .all then input.sequence else 0 }

theorem encode_coveredInput (scope : HashType.Scope) (index : Nat) (script : Script)
    (position : Nat) (input : Input) :
    (coveredInput scope index script position input).encode =
      if position = index then signedInput input script else unsignedInput scope input := by
  unfold coveredInput
  split
  · rfl
  · rfl

theorem blankScripts_inputs (transaction : Transaction) (index : Nat) (script : Script) :
    (transaction.blankScripts index script).inputs =
      transaction.inputs.mapIdx (coveredInput .all index script) := by
  apply List.mapIdx_eq_mapIdx_iff.mpr
  intro position inside
  unfold coveredInput
  by_cases own : position = index
  · rw [if_pos own, if_pos own]
  · rw [if_neg own, if_neg own, if_pos rfl]

theorem zeroSequences_blankScripts_inputs (transaction : Transaction) (index : Nat)
    (script : Script) {scope : HashType.Scope} (limited : scope ≠ .all) :
    ((transaction.blankScripts index script).zeroSequences index).inputs =
      transaction.inputs.mapIdx (coveredInput scope index script) := by
  rw [zeroSequences, blankScripts_inputs, List.mapIdx_mapIdx]
  apply List.mapIdx_eq_mapIdx_iff.mpr
  intro position inside
  unfold coveredInput
  by_cases own : position = index
  · rw [Function.comp_apply, if_pos own, if_pos own, if_pos own]
  · rw [Function.comp_apply, if_neg own, if_neg own, if_neg own, if_neg limited]

theorem scopedCopy_inputs (transaction : Transaction) (index : Nat) (script : Script)
    (hashType : HashType) :
    (transaction.scopedCopy index script hashType).inputs =
      transaction.inputs.mapIdx (coveredInput hashType.scope index script) := by
  unfold scopedCopy HashType.scope
  split
  · exact zeroSequences_blankScripts_inputs transaction index script (by decide)
  · split
    · exact zeroSequences_blankScripts_inputs transaction index script (by decide)
    · exact blankScripts_inputs transaction index script

theorem counted_inputs_signingCopy (transaction : Transaction) (index : Nat) (input : Input)
    (script : Script) (hashType : HashType) (present : transaction.inputs[index]? = some input) :
    Wire.counted Input.encode (transaction.signingCopy index script hashType).inputs =
      signedInputs transaction index input script hashType := by
  unfold signingCopy signedInputs HashType.ownInputOnly
  by_cases shared : hashType &&& 0x80 = 0
  · rw [if_pos shared, shared, scopedCopy_inputs, Wire.counted, List.length_mapIdx,
      List.mapIdx_eq_zipIdx_map, List.flatMap_map]
    simp only [encode_coveredInput]
    rfl
  · have alone : (transaction.scopedCopy index script hashType).inputs[index]? =
        some { input with unlocking := script } := by
      rw [scopedCopy_inputs, List.getElem?_mapIdx, present, Option.map_some, coveredInput,
        if_pos rfl]
    rw [if_neg shared, if_pos (bne_iff_ne.mpr shared), keepInput, alone]
    exact congrArg _ (List.append_nil _)

/-! ## Outputs of the copy -/

theorem mapIdx_take_eq {outputs : List Output} {index : Nat} {output : Output}
    (blank : Output) (present : outputs[index]? = some output) :
    ((outputs.take (index + 1)).mapIdx fun position item =>
        if position < index then blank else item) =
      List.replicate index blank ++ [output] := by
  induction index generalizing outputs with
  | zero =>
      cases outputs with
      | nil => cases present
      | cons first rest =>
          cases present
          rfl
  | succ index ih =>
      cases outputs with
      | nil => cases present
      | cons first rest =>
          rw [List.getElem?_cons_succ] at present
          rw [List.take_succ_cons, List.mapIdx_cons, if_pos (Nat.succ_pos index),
            List.replicate_succ, List.cons_append, ← ih present]
          simp only [Nat.add_lt_add_iff_right]

theorem signingCopy_outputs (transaction : Transaction) (index : Nat) (script : Script)
    (hashType : HashType) :
    (transaction.signingCopy index script hashType).outputs =
      (transaction.scopedCopy index script hashType).outputs := by
  unfold signingCopy
  split
  · rfl
  · rfl

/-- Writing stand-ins for the outputs is writing the outputs of the copy. -/
theorem counted_outputs_signingCopy (transaction : Transaction) (index : Nat)
    (script : Script) (hashType : HashType)
    (present : signsMissingOutput transaction index hashType = false) :
    Wire.counted Output.encode (transaction.signingCopy index script hashType).outputs =
      signedOutputs transaction index hashType := by
  rw [signingCopy_outputs]
  unfold signsMissingOutput at present
  unfold scopedCopy signedOutputs
  unfold HashType.scope at present ⊢
  by_cases isNone : hashType &&& 0x1f = 2
  · rw [if_pos isNone, if_pos isNone]
    exact List.append_nil _
  · rw [if_neg isNone] at present ⊢
    rw [if_neg isNone]
    by_cases isSingle : hashType &&& 0x1f = 3
    · rw [if_pos isSingle] at present ⊢
      rw [if_pos isSingle]
      have inRange : index < transaction.outputs.length := by
        simpa using present
      have found := List.getElem?_eq_getElem inRange
      have outputsEq : (((transaction.blankScripts index script).cutOutputs index).zeroSequences
          index).outputs = List.replicate index unsignedOutput ++ [transaction.outputs[index]] :=
        mapIdx_take_eq unsignedOutput found
      rw [outputsEq, found, Wire.counted, List.length_append, List.length_replicate,
        List.length_singleton, List.flatMap_append, List.flatMap_singleton]
      rfl
    · rw [if_neg isSingle, if_neg isSingle]
      rfl

/-! ## The digest -/

theorem signingCopy_version (transaction : Transaction) (index : Nat) (script : Script)
    (hashType : HashType) :
    (transaction.signingCopy index script hashType).version = transaction.version := by
  unfold signingCopy scopedCopy
  split_ifs <;> rfl

theorem signingCopy_lockTime (transaction : Transaction) (index : Nat) (script : Script)
    (hashType : HashType) :
    (transaction.signingCopy index script hashType).lockTime = transaction.lockTime := by
  unfold signingCopy scopedCopy
  split_ifs <;> rfl

theorem encodeBase_signingCopy (transaction : Transaction) (index : Nat) (input : Input)
    (script : Script) (hashType : HashType) (present : transaction.inputs[index]? = some input)
    (covered : signsMissingOutput transaction index hashType = false) :
    (transaction.signingCopy index script hashType).encodeBase ++ Wire.uint32 hashType =
      basePreimage transaction index input script hashType := by
  have inputsEq := counted_inputs_signingCopy transaction index input script hashType present
  have outputsEq := counted_outputs_signingCopy transaction index script hashType covered
  rw [encodeBase, encodeWith, inputsEq, outputsEq, signingCopy_version, signingCopy_lockTime,
    if_neg Bool.false_ne_true, if_neg Bool.false_ne_true, basePreimage]
  simp only [List.nil_append, List.append_assoc]

theorem scope_eq_single_iff (hashType : HashType) :
    hashType.scope = .single ↔ hashType &&& 0x1f = 3 := by
  unfold HashType.scope
  split
  · rename_i isNone
    rw [isNone]
    decide
  · split
    · rename_i isSingle
      exact iff_of_true rfl isSingle
    · rename_i notSingle
      exact iff_of_false nofun notSingle

theorem signsMissingOutput_eq_true_iff (transaction : Transaction) (index : Nat)
    (hashType : HashType) :
    signsMissingOutput transaction index hashType = true ↔
      hashType &&& 0x1f = 3 ∧ transaction.outputs.length ≤ index := by
  rw [signsMissingOutput, Bool.and_eq_true, beq_iff_eq, decide_eq_true_iff, scope_eq_single_iff]

/-- The hash types that name no scope of their own edit the copy as the type for all
outputs does. -/
theorem signingCopy_of_all (transaction : Transaction) (index : Nat) (script : Script)
    {hashType : HashType} (notNone : hashType &&& 0x1f ≠ 2) (notSingle : hashType &&& 0x1f ≠ 3) :
    transaction.signingCopy index script hashType =
      transaction.signingCopy index script (if hashType &&& 0x80 = 0 then 0x01 else 0x81) := by
  by_cases shared : hashType &&& 0x80 = 0
  · rw [if_pos shared, signingCopy, if_pos shared, scopedCopy, if_neg notNone, if_neg notSingle]
    rfl
  · rw [if_neg shared, signingCopy, if_neg shared, scopedCopy, if_neg notNone, if_neg notSingle]
    rfl

/-- The base version hashes the wire form of the copy without witnesses, and the hash
type after it.  Only where a single output is to be signed that does not exist, the
digest is a constant.  Every hash type that is neither for no output nor for a single
one is for all. -/
theorem base_digest_hashes_signing_copy (transaction : Transaction) (shared : Midstate)
    (index : Nat) (script : Script) (value : Int64) (hashType : HashType)
    (inRange : index < transaction.inputs.length) :
    transaction.signatureDigest shared index script value hashType .base =
        .ok (if hashType &&& 0x1f = 3 ∧ transaction.outputs.length ≤ index then
            missingOutputDigest
          else
            doubleSha256 ((transaction.signingCopy index script hashType).encodeBase ++
              Wire.uint32 hashType)) ∧
      (hashType &&& 0x1f ≠ 2 → hashType &&& 0x1f ≠ 3 →
        transaction.signatureDigest shared index script value hashType .base =
          .ok (doubleSha256
            ((transaction.signingCopy index script
                (if hashType &&& 0x80 = 0 then 0x01 else 0x81)).encodeBase ++
              Wire.uint32 hashType))) := by
  have found := List.getElem?_eq_getElem inRange
  have digestEq : transaction.signatureDigest shared index script value hashType .base =
      .ok (if hashType &&& 0x1f = 3 ∧ transaction.outputs.length ≤ index then
          missingOutputDigest
        else
          doubleSha256 ((transaction.signingCopy index script hashType).encodeBase ++
            Wire.uint32 hashType)) := by
    rw [signatureDigest, found]
    dsimp only
    rw [baseDigest]
    by_cases missing : hashType &&& 0x1f = 3 ∧ transaction.outputs.length ≤ index
    · rw [if_pos missing, if_pos ((signsMissingOutput_eq_true_iff _ _ _).mpr missing)]
    · have covered : signsMissingOutput transaction index hashType = false :=
        Bool.eq_false_iff.mpr (mt (signsMissingOutput_eq_true_iff _ _ _).mp missing)
      rw [if_neg missing, covered, if_neg Bool.false_ne_true,
        encodeBase_signingCopy transaction index _ script hashType found covered]
  refine ⟨digestEq, ?_⟩
  intro notNone notSingle
  rw [digestEq, if_neg (fun missing => notSingle missing.1),
    signingCopy_of_all transaction index script notNone notSingle]

def twoByTwo : Transaction where
  version := 2
  inputs := [⟨⟨.zero 32, 0⟩, ⟨[0x51]⟩, [], 10⟩, ⟨⟨.zero 32, 1⟩, ⟨[0x52]⟩, [], 11⟩]
  outputs := [⟨5, ⟨[0x53]⟩⟩, ⟨6, ⟨[0x54]⟩⟩]
  lockTime := 9
  witnessFlag := false

/-- For a single output the second input replaces the first output and clears the other
sequence number.  A hash type of zero is for all. -/
theorem digests_of_twoByTwo :
    let script : Script := ⟨[0xac]⟩
    let shared := twoByTwo.midstate
    1 < twoByTwo.inputs.length ∧
      twoByTwo.signatureDigest shared 1 script 0 0x03 .base =
        .ok (doubleSha256 (encodeBase
          { twoByTwo with
            inputs := [⟨⟨.zero 32, 0⟩, .empty, [], 0⟩, ⟨⟨.zero 32, 1⟩, script, [], 11⟩]
            outputs := [⟨-1, .empty⟩, ⟨6, ⟨[0x54]⟩⟩] } ++ Wire.uint32 0x03)) ∧
      twoByTwo.signatureDigest shared 1 script 0 0 .base =
        .ok (doubleSha256 (encodeBase
          { twoByTwo with
            inputs := [⟨⟨.zero 32, 0⟩, .empty, [], 10⟩, ⟨⟨.zero 32, 1⟩, script, [], 11⟩] } ++
          Wire.uint32 0)) := by
  intro script shared
  have inRange : 1 < twoByTwo.inputs.length := by decide
  have single := (base_digest_hashes_signing_copy twoByTwo shared 1 script 0 0x03 inRange).1
  have all := (base_digest_hashes_signing_copy twoByTwo shared 1 script 0 0 inRange).2
  rw [if_neg (by decide)] at single
  exact ⟨inRange, single, all (by decide) (by decide)⟩

end Transaction

end CoinSpend
