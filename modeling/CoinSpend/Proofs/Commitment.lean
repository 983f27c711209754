import CoinSpend.Proofs.Delimited
import CoinSpend.Proofs.SigningCopy
import CoinSpend.Transaction.Memo

/-!
# What a signature covers and what it leaves open

The digest that is signed depends on certain fields of the transaction, which hash type
and index select, and on no others.  In the other direction the bytes that are hashed
give these fields back: no two selections share a preimage.
-/

namespace CoinSpend

theorem Midstate.eq_of_fields {left right : Midstate} (previous : left.previous = right.previous)
    (sequences : left.sequences = right.sequences) (outputs : left.outputs = right.outputs) :
    left = right := by
  cases left
  cases right
  cases previous
  cases sequences
  cases outputs
  rfl

namespace Transaction

/-! ## What is left open -/

/-- Two transactions agree on all that a signature of the input with an index covers. -/
structure AgreeFor (index : Nat) (hashType : HashType) (left right : Transaction) :
    Prop where
  version : left.version = right.version
  lockTime : left.lockTime = right.lockTime
  /-- The signed input is there in both, and only its scripts may differ. -/
  own : ∃ leftInput rightInput,
    left.inputs[index]? = some leftInput ∧ right.inputs[index]? = some rightInput ∧
      leftInput.previous = rightInput.previous ∧ leftInput.sequence = rightInput.sequence
  previous : hashType.ownInputOnly = false →
    left.inputs.map Input.previous = right.inputs.map Input.previous
  sequences : hashType.ownInputOnly = false → hashType.scope = .all →
    left.inputs.map Input.sequence = right.inputs.map Input.sequence
  outputs : hashType.scope = .all → left.outputs = right.outputs
  /-- A single output may be missing, but then in both. -/
  output : hashType.scope = .single → left.outputs[index]? = right.outputs[index]?

theorem flatMap_zipIdx_congr {α : Type} {form : α × Nat → Bytes} {left right : List α}
    (sameLength : left.length = right.length)
    (alike : ∀ position leftItem rightItem, left[position]? = some leftItem →
      right[position]? = some rightItem →
        form (leftItem, position) = form (rightItem, position)) :
    left.zipIdx.flatMap form = right.zipIdx.flatMap form := by
  rw [List.flatMap_def, List.flatMap_def]
  congr 1
  apply List.ext_getElem
  · simp only [List.length_map, List.length_zipIdx, sameLength]
  · intro position leftInside rightInside
    rw [List.length_map, List.length_zipIdx] at leftInside rightInside
    rw [List.getElem_map, List.getElem_map, List.getElem_zipIdx, List.getElem_zipIdx,
      Nat.zero_add]
    exact alike position _ _ (List.getElem?_eq_getElem leftInside)
      (List.getElem?_eq_getElem rightInside)

theorem field_eq_of_map_eq {α β : Type} {field : α → β} {left right : List α}
    (same : left.map field = right.map field) {position : Nat} {leftItem rightItem : α}
    (leftFound : left[position]? = some leftItem)
    (rightFound : right[position]? = some rightItem) : field leftItem = field rightItem := by
  have sameAt : (left.map field)[position]? = (right.map field)[position]? := by rw [same]
  rw [List.getElem?_map, List.getElem?_map, leftFound, rightFound] at sameAt
  exact Option.some.inj sameAt

/-! The digests that all inputs share, each as a function of one field. -/

theorem midstate_previous (transaction : Transaction) :
    transaction.midstate.previous =
      doubleSha256 ((transaction.inputs.map Input.previous).flatMap OutPoint.encode) := by
  rw [midstate, List.flatMap_map]

theorem midstate_sequences (transaction : Transaction) :
    transaction.midstate.sequences =
      doubleSha256 ((transaction.inputs.map Input.sequence).flatMap Wire.uint32) := by
  rw [midstate, List.flatMap_map]

theorem midstate_outputs (transaction : Transaction) :
    transaction.midstate.outputs = doubleSha256 (transaction.outputs.flatMap Output.encode) := by
  rw [midstate]

theorem signedInput_congr {left right : Input} (samePrevious : left.previous = right.previous)
    (sameSequence : left.sequence = right.sequence) (script : Script) :
    signedInput left script = signedInput right script := by
  rw [signedInput, signedInput, samePrevious, sameSequence]

theorem unsignedInput_congr {scope : HashType.Scope} {left right : Input}
    (samePrevious : left.previous = right.previous)
    (sameSequence : scope = .all → left.sequence = right.sequence) :
    unsignedInput scope left = unsignedInput scope right := by
  rw [unsignedInput, unsignedInput, samePrevious]
  by_cases whole : scope = .all
  · rw [if_pos whole, if_pos whole, sameSequence whole]
  · rw [if_neg whole, if_neg whole]

namespace AgreeFor

variable {index : Nat} {hashType : HashType} {left right : Transaction}
  (agree : AgreeFor index hashType left right)

include agree

theorem signsMissingOutput_eq :
    signsMissingOutput left index hashType = signsMissingOutput right index hashType := by
  unfold signsMissingOutput
  cases known : hashType.scope with
  | all => rfl
  | none => rfl
  | single =>
      have sameOutput := agree.output known
      have missing : left.outputs.length ≤ index ↔ right.outputs.length ≤ index := by
        rw [← List.getElem?_eq_none_iff, ← List.getElem?_eq_none_iff, sameOutput]
      simp only [missing]

theorem signedOutputs_eq : signedOutputs left index hashType = signedOutputs right index hashType := by
  unfold signedOutputs
  cases known : hashType.scope with
  | all => dsimp only; rw [agree.outputs known]
  | none => rfl
  | single => dsimp only; rw [agree.output known]

section Inputs

variable {leftInput rightInput : Input} (leftFound : left.inputs[index]? = some leftInput)
  (rightFound : right.inputs[index]? = some rightInput)

include leftFound rightFound

theorem own_eq :
    leftInput.previous = rightInput.previous ∧ leftInput.sequence = rightInput.sequence := by
  obtain ⟨leftOwn, rightOwn, leftSame, rightSame, samePrevious, sameSequence⟩ := agree.own
  rw [leftFound] at leftSame
  rw [rightFound] at rightSame
  cases leftSame
  cases rightSame
  exact ⟨samePrevious, sameSequence⟩

theorem signedInputs_eq (script : Script) :
    signedInputs left index leftInput script hashType =
      signedInputs right index rightInput script hashType := by
  obtain ⟨ownPrevious, ownSequence⟩ := agree.own_eq leftFound rightFound
  unfold signedInputs
  cases shared : hashType.ownInputOnly with
  | true => rw [if_pos rfl, if_pos rfl, signedInput_congr ownPrevious ownSequence]
  | false =>
      have samePrevious := agree.previous shared
      have sameCount : left.inputs.length = right.inputs.length := by
        rw [← List.length_map Input.previous, samePrevious, List.length_map]
      rw [if_neg Bool.false_ne_true, if_neg Bool.false_ne_true, sameCount]
      congr 1
      apply flatMap_zipIdx_congr sameCount
      intro position leftItem rightItem leftAt rightAt
      dsimp only
      have previousEq := field_eq_of_map_eq samePrevious leftAt rightAt
      by_cases own : position = index
      · rw [if_pos own, if_pos own]
        subst own
        exact signedInput_congr previousEq (agree.own_eq leftAt rightAt).2 script
      · rw [if_neg own, if_neg own]
        exact unsignedInput_congr previousEq fun whole =>
          field_eq_of_map_eq (agree.sequences shared whole) leftAt rightAt

theorem baseDigest_eq (script : Script) :
    baseDigest left index leftInput script hashType =
      baseDigest right index rightInput script hashType := by
  rw [baseDigest, baseDigest, basePreimage, basePreimage, agree.signsMissingOutput_eq,
    agree.signedInputs_eq leftFound rightFound, agree.signedOutputs_eq, agree.version,
    agree.lockTime]

end Inputs

/-- The digests that are shared by all inputs enter only where they cover what both
agree on. -/
theorem witnessParts_eq :
    witnessParts left left.midstate index hashType =
      witnessParts right right.midstate index hashType := by
  rw [witnessParts, witnessParts, Midstate.mk.injEq]
  refine ⟨?_, ?_, ?_⟩
  · cases shared : hashType.ownInputOnly with
    | true => rw [if_pos rfl, if_pos rfl]
    | false =>
        rw [if_neg Bool.false_ne_true, if_neg Bool.false_ne_true, midstate_previous,
          midstate_previous, agree.previous shared]
  · by_cases dropped : hashType.ownInputOnly = true ∨ hashType.scope ≠ .all
    · rw [if_pos dropped, if_pos dropped]
    · rw [if_neg dropped, if_neg dropped]
      rw [not_or, Bool.not_eq_true, not_not] at dropped
      rw [midstate_sequences, midstate_sequences, agree.sequences dropped.1 dropped.2]
  · cases known : hashType.scope with
    | all => dsimp only; rw [midstate_outputs, midstate_outputs, agree.outputs known]
    | none => dsimp only
    | single => dsimp only; rw [agree.output known]

theorem witnessPreimage_eq {leftInput rightInput : Input}
    (leftFound : left.inputs[index]? = some leftInput)
    (rightFound : right.inputs[index]? = some rightInput) (parts : Midstate) (script : Script)
    (value : Int64) :
    witnessPreimage left parts leftInput script value hashType =
      witnessPreimage right parts rightInput script value hashType := by
  obtain ⟨samePrevious, sameSequence⟩ := agree.own_eq leftFound rightFound
  rw [witnessPreimage, witnessPreimage, agree.version, agree.lockTime, samePrevious, sameSequence]

theorem signatureDigest_eq (script : Script) (value : Int64) (version : SignatureVersion) :
    ∃ digest,
      left.signatureDigest left.midstate index script value hashType version = .ok digest ∧
      right.signatureDigest right.midstate index script value hashType version = .ok digest := by
  obtain ⟨leftInput, rightInput, leftFound, rightFound, -, -⟩ := agree.own
  unfold signatureDigest
  rw [leftFound, rightFound]
  cases version with
  | base =>
      refine ⟨_, rfl, ?_⟩
      exact congrArg Except.ok (agree.baseDigest_eq leftFound rightFound script).symm
  | witnessV0 =>
      refine ⟨_, rfl, ?_⟩
      dsimp only
      rw [agree.witnessParts_eq, agree.witnessPreimage_eq leftFound rightFound]

end AgreeFor

/-- The transaction without its unlocking scripts and without any trace of witnesses. -/
def withoutScripts (transaction : Transaction) : Transaction :=
  { transaction with
    inputs := transaction.inputs.map fun input =>
      { input with unlocking := .empty, witness := [] }
    witnessFlag := false }

theorem agreeFor_withoutScripts (transaction : Transaction) {index : Nat}
    (inRange : index < transaction.inputs.length) (hashType : HashType) :
    AgreeFor index hashType transaction transaction.withoutScripts where
  version := rfl
  lockTime := rfl
  own := by
    have found := List.getElem?_eq_getElem inRange
    have foundOther : transaction.withoutScripts.inputs[index]? =
        some { transaction.inputs[index] with unlocking := .empty, witness := [] } := by
      rw [withoutScripts, List.getElem?_map, found, Option.map_some]
    exact ⟨_, _, found, foundOther, rfl, rfl⟩
  previous := by
    intro _
    rw [withoutScripts, List.map_map]
    rfl
  sequences := by
    intro _ _
    rw [withoutScripts, List.map_map]
    rfl
  outputs := fun _ => rfl
  output := fun _ => rfl

theorem signatureDigest_of_le {transaction : Transaction} (shared : Midstate) {index : Nat}
    (script : Script) (value : Int64) (hashType : HashType) (version : SignatureVersion)
    (outside : transaction.inputs.length ≤ index) :
    transaction.signatureDigest shared index script value hashType version =
      .error ⟨index, transaction.inputs.length⟩ := by
  rw [signatureDigest, List.getElem?_eq_none outside]

/-- A digest of either version depends on nothing but what the hash type and the index
select.  No unlocking script, no witness and no witness flag is ever selected, and the
base version does not look at the value. -/
theorem digest_depends_on_covered_fields :
    (∀ (left right : Transaction) (index : Nat) (script : Script) (value : Int64)
        (hashType : HashType) (version : SignatureVersion), AgreeFor index hashType left right →
      ∃ digest,
        ((MemoTransaction.fresh left).signatureDigest index script value hashType version).1 =
            .ok digest ∧
          ((MemoTransaction.fresh right).signatureDigest index script value hashType
            version).1 = .ok digest) ∧
      (∀ (transaction : Transaction) (index : Nat) (script : Script) (value : Int64)
          (hashType : HashType) (version : SignatureVersion),
        ((MemoTransaction.fresh transaction).signatureDigest index script value hashType
            version).1 =
          ((MemoTransaction.fresh transaction.withoutScripts).signatureDigest index script value
            hashType version).1) ∧
      (∀ (transaction : Transaction) (index : Nat) (script : Script) (value other : Int64)
          (hashType : HashType),
        ((MemoTransaction.fresh transaction).signatureDigest index script value hashType
            .base).1 =
          ((MemoTransaction.fresh transaction).signatureDigest index script other hashType
            .base).1) := by
  refine ⟨?_, ?_, ?_⟩
  · intro left right index script value hashType version agree
    exact agree.signatureDigest_eq script value version
  · intro transaction index script value hashType version
    by_cases inRange : index < transaction.inputs.length
    · obtain ⟨digest, signed, same⟩ :=
        (agreeFor_withoutScripts transaction inRange hashType).signatureDigest_eq script value
          version
      exact signed.trans same.symm
    · have sameCount : transaction.withoutScripts.inputs.length = transaction.inputs.length :=
        List.length_map _
      have outside := Nat.le_of_not_lt inRange
      have refused := signatureDigest_of_le transaction.midstate script value hashType version
        outside
      have refusedOther := signatureDigest_of_le transaction.withoutScripts.midstate script value
        hashType version (sameCount ▸ outside)
      rw [sameCount] at refusedOther
      exact refused.trans refusedOther.symm
  · intro transaction index script value other hashType
    rfl

/-- Like `twoByTwo` as far as a signature of the second input for a single output goes. -/
def twoByThree : Transaction where
  version := 2
  inputs := [⟨⟨.zero 32, 0⟩, .empty, [[7]], 99⟩, ⟨⟨.zero 32, 1⟩, ⟨[1, 5]⟩, [[8], []], 11⟩]
  outputs := [⟨7, .empty⟩, ⟨6, ⟨[0x54]⟩⟩, ⟨0, ⟨[0x6a]⟩⟩]
  lockTime := 9
  witnessFlag := true

/-- A witness signature for a single output covers neither the first output nor the first
sequence number. -/
theorem digest_of_twoByTwo_is_that_of_twoByThree :
    AgreeFor 1 0x03 twoByTwo twoByThree ∧
      ∃ digest,
        ((MemoTransaction.fresh twoByTwo).signatureDigest 1 ⟨[0xac]⟩ 5 0x03 .witnessV0).1 =
            .ok digest ∧
          ((MemoTransaction.fresh twoByThree).signatureDigest 1 ⟨[0xac]⟩ 5 0x03 .witnessV0).1 =
            .ok digest := by
  have agree : AgreeFor 1 0x03 twoByTwo twoByThree :=
    { version := rfl
      lockTime := rfl
      own := ⟨_, _, rfl, rfl, rfl, rfl⟩
      previous := fun _ => rfl
      sequences := fun _ whole => absurd whole (by decide)
      outputs := fun whole => absurd whole (by decide)
      output := fun _ => rfl }
  exact ⟨agree, digest_depends_on_covered_fields.1 _ _ _ _ _ _ _ agree⟩

/-! ## What is covered -/

/-- The counts and lengths that the base version writes fit a count on the wire. -/
structure IsMeasurable (transaction : Transaction) (script : Script) : Prop where
  inputCount : transaction.inputs.length < 2 ^ 64
  outputCount : transaction.outputs.length < 2 ^ 64
  locking : ∀ output ∈ transaction.outputs, output.locking.length < 2 ^ 64
  script : script.length < 2 ^ 64

section Copy

variable {transaction : Transaction} {script : Script}

theorem signingCopy_inputs (index : Nat) (hashType : HashType) :
    (transaction.signingCopy index script hashType).inputs.length ≤ transaction.inputs.length ∧
      ∀ input ∈ (transaction.signingCopy index script hashType).inputs,
        input.unlocking = script ∨ input.unlocking = .empty := by
  have ofScoped : ∀ input ∈ (transaction.scopedCopy index script hashType).inputs,
      input.unlocking = script ∨ input.unlocking = .empty := by
    rw [scopedCopy_inputs]
    intro input member
    obtain ⟨position, inside, rfl⟩ := List.mem_mapIdx.mp member
    unfold coveredInput
    split
    · exact Or.inl rfl
    · exact Or.inr rfl
  have sameCount : (transaction.scopedCopy index script hashType).inputs.length =
      transaction.inputs.length := by
    rw [scopedCopy_inputs, List.length_mapIdx]
  unfold signingCopy
  split
  · exact ⟨Nat.le_of_eq sameCount, ofScoped⟩
  · rw [keepInput, ← sameCount]
    cases found : (transaction.scopedCopy index script hashType).inputs[index]? with
    | none => exact ⟨Nat.zero_le _, fun _ member => absurd member List.not_mem_nil⟩
    | some input =>
        obtain ⟨inside, rfl⟩ := List.getElem?_eq_some_iff.mp found
        refine ⟨Nat.lt_of_le_of_lt (Nat.zero_le index) inside, ?_⟩
        intro other member
        rw [List.mem_singleton.mp member]
        exact ofScoped _ (List.getElem_mem inside)

/-- The copy has no more outputs than the transaction, and only those or blank ones. -/
theorem signingCopy_outputs_sub (index : Nat) (hashType : HashType) :
    (transaction.signingCopy index script hashType).outputs.length ≤ transaction.outputs.length ∧
      ∀ output ∈ (transaction.signingCopy index script hashType).outputs,
        output ∈ transaction.outputs ∨ output = unsignedOutput := by
  rw [signingCopy_outputs]
  unfold scopedCopy
  split
  · exact ⟨Nat.zero_le _, nofun⟩
  · split
    · constructor
      · rw [zeroSequences, cutOutputs, List.length_mapIdx]
        exact List.length_take_le' _ _
      · intro output member
        obtain ⟨position, inside, rfl⟩ := List.mem_mapIdx.mp member
        split
        · exact Or.inr rfl
        · exact Or.inl (List.mem_of_mem_take (List.getElem_mem inside))
    · exact ⟨Nat.le_refl _, fun output member => Or.inl member⟩

theorem IsMeasurable.isCountable_signingCopy (measurable : transaction.IsMeasurable script)
    (index : Nat) (hashType : HashType) :
    (transaction.signingCopy index script hashType).IsCountable where
  inputCount := Nat.lt_of_le_of_lt (signingCopy_inputs index hashType).1 measurable.inputCount
  outputCount :=
    Nat.lt_of_le_of_lt (signingCopy_outputs_sub index hashType).1 measurable.outputCount
  unlocking := by
    intro input member
    rcases (signingCopy_inputs index hashType).2 input member with same | same
    · rw [same]
      exact measurable.script
    · rw [same]
      exact Nat.two_pow_pos 64
  locking := by
    intro output member
    rcases (signingCopy_outputs_sub index hashType).2 output member with kept | rfl
    · exact measurable.locking output kept
    · exact Nat.two_pow_pos 64

end Copy

section Preimages

variable {left right : Transaction} {leftInput rightInput : Input}
  {leftScript rightScript : Script} {leftType rightType : HashType}

/-- The bytes of the base version give the hash type back, and the copy that was signed,
as far as it is written. -/
theorem basePreimage_inj {leftIndex rightIndex : Nat}
    (leftFound : left.inputs[leftIndex]? = some leftInput)
    (rightFound : right.inputs[rightIndex]? = some rightInput)
    (leftCovered : signsMissingOutput left leftIndex leftType = false)
    (rightCovered : signsMissingOutput right rightIndex rightType = false)
    (leftMeasurable : left.IsMeasurable leftScript)
    (rightMeasurable : right.IsMeasurable rightScript)
    (same : basePreimage left leftIndex leftInput leftScript leftType =
      basePreimage right rightIndex rightInput rightScript rightType) :
    leftType = rightType ∧
      (left.signingCopy leftIndex leftScript leftType).withoutWitness =
        (right.signingCopy rightIndex rightScript rightType).withoutWitness := by
  rw [← encodeBase_signingCopy left leftIndex leftInput leftScript leftType leftFound leftCovered,
    ← encodeBase_signingCopy right rightIndex rightInput rightScript rightType rightFound
      rightCovered] at same
  obtain ⟨sameCopy, sameType⟩ := withoutWitness_eq_of_encodeBase_append
    (leftMeasurable.isCountable_signingCopy leftIndex leftType)
    (rightMeasurable.isCountable_signingCopy rightIndex rightType) same
  exact ⟨Wire.uint32_delimited.eq_of_form_eq trivial trivial sameType, sameCopy⟩

theorem witnessPreimage_inj {leftParts rightParts : Midstate} {leftValue rightValue : Int64}
    (leftShort : leftScript.length < 2 ^ 64) (rightShort : rightScript.length < 2 ^ 64)
    (same : witnessPreimage left leftParts leftInput leftScript leftValue leftType =
      witnessPreimage right rightParts rightInput rightScript rightValue rightType) :
    leftType = rightType ∧ left.version = right.version ∧ leftParts = rightParts ∧
      leftInput.previous = rightInput.previous ∧ leftInput.sequence = rightInput.sequence ∧
      leftScript = rightScript ∧ leftValue = rightValue ∧ left.lockTime = right.lockTime := by
  unfold witnessPreimage at same
  obtain ⟨sameVersion, same⟩ := Wire.int32_delimited trivial trivial same
  obtain ⟨samePrevious, same⟩ := Wire.digest_delimited 32 trivial trivial same
  obtain ⟨sameSequences, same⟩ := Wire.digest_delimited 32 trivial trivial same
  obtain ⟨sameOutPoint, same⟩ := Wire.outPoint_delimited trivial trivial same
  obtain ⟨sameScript, same⟩ := Wire.lengthPrefixed_delimited leftShort rightShort same
  obtain ⟨sameValue, same⟩ := Wire.int64_delimited trivial trivial same
  obtain ⟨sameSequence, same⟩ := Wire.uint32_delimited trivial trivial same
  obtain ⟨sameOutputs, same⟩ := Wire.digest_delimited 32 trivial trivial same
  obtain ⟨sameLockTime, sameType⟩ := Wire.uint32_delimited trivial trivial same
  exact ⟨Wire.uint32_delimited.eq_of_form_eq trivial trivial sameType, sameVersion,
    Midstate.eq_of_fields samePrevious sameSequences sameOutputs, sameOutPoint, sameSequence,
    congrArg Script.mk sameScript, sameValue, sameLockTime⟩

end Preimages

end Transaction

namespace SpendingInput

open Transaction

def digest (spending : SpendingInput) (script : Script) (hashType : HashType)
    (version : SignatureVersion) : Except InputIndexFault Hash256 :=
  spending.transaction.signatureDigest spending.shared spending.index script spending.value
    hashType version

def parts (spending : SpendingInput) (hashType : HashType) : Midstate :=
  witnessParts spending.transaction spending.shared spending.index hashType

/-- The bytes that are hashed for a signature.  There are none without an input to sign,
and none where the digest is a constant. -/
def preimage? (spending : SpendingInput) (script : Script) (hashType : HashType)
    (version : SignatureVersion) : Option Bytes := do
  let input ← spending.input?
  match version with
  | .base =>
      if signsMissingOutput spending.transaction spending.index hashType then
        none
      else
        basePreimage spending.transaction spending.index input script hashType
  | .witnessV0 =>
      witnessPreimage spending.transaction (spending.parts hashType) input script
        spending.value hashType

theorem digest_of_preimage? {spending : SpendingInput} {script : Script} {hashType : HashType}
    {version : SignatureVersion} {bytes : Bytes}
    (hashed : spending.preimage? script hashType version = some bytes) :
    spending.digest script hashType version = .ok (doubleSha256 bytes) := by
  rw [preimage?, input?] at hashed
  rw [digest, signatureDigest]
  cases found : spending.transaction.inputs[spending.index]? with
  | none => rw [found] at hashed; cases hashed
  | some input =>
      rw [found] at hashed
      cases version with
      | base =>
          dsimp only [Option.bind_eq_bind, Option.bind_some] at hashed ⊢
          rw [baseDigest]
          split at hashed
          · cases hashed
          · rename_i covered
            cases hashed
            rw [if_neg covered]
      | witnessV0 =>
          cases hashed
          rfl

theorem preimage?_isSome {spending : SpendingInput} {hashType : HashType}
    {version : SignatureVersion}
    (inRange : spending.index < spending.transaction.inputs.length)
    (covered : version = .base →
      ¬(hashType &&& 0x1f = 3 ∧ spending.transaction.outputs.length ≤ spending.index))
    (script : Script) : ∃ bytes, spending.preimage? script hashType version = some bytes := by
  rw [preimage?, input?, List.getElem?_eq_getElem inRange]
  cases version with
  | base =>
      refine ⟨_, if_neg ?_⟩
      rw [signsMissingOutput_eq_true_iff]
      exact covered rfl
  | witnessV0 => exact ⟨_, rfl⟩

theorem preimage?_base_eq_some_iff {spending : SpendingInput} {script : Script}
    {hashType : HashType} {bytes : Bytes} :
    spending.preimage? script hashType .base = some bytes ↔
      ∃ input, spending.input? = some input ∧
        signsMissingOutput spending.transaction spending.index hashType = false ∧
        basePreimage spending.transaction spending.index input script hashType = bytes := by
  rw [preimage?]
  cases spending.input? with
  | none => simp
  | some input => simp

theorem preimage?_witness_eq_some_iff {spending : SpendingInput} {script : Script}
    {hashType : HashType} {bytes : Bytes} :
    spending.preimage? script hashType .witnessV0 = some bytes ↔
      ∃ input, spending.input? = some input ∧
        witnessPreimage spending.transaction (spending.parts hashType) input script
          spending.value hashType = bytes := by
  rw [preimage?]
  cases spending.input? with
  | none => simp
  | some input => simp

/-- What is hashed for a signature determines what the signature covers: the hash type, and
for the base version the edited copy of the transaction, for the witness version all fields
with the three digests among them. -/
theorem preimage_determines_covered_fields (left right : SpendingInput)
    (leftScript rightScript : Script) (leftType rightType : HashType)
    (version : SignatureVersion)
    (leftInRange : left.index < left.transaction.inputs.length)
    (rightInRange : right.index < right.transaction.inputs.length)
    (leftCovered : version = .base →
      ¬(leftType &&& 0x1f = 3 ∧ left.transaction.outputs.length ≤ left.index))
    (rightCovered : version = .base →
      ¬(rightType &&& 0x1f = 3 ∧ right.transaction.outputs.length ≤ right.index))
    (leftMeasurable : left.transaction.IsMeasurable leftScript)
    (rightMeasurable : right.transaction.IsMeasurable rightScript) :
    ∃ leftBytes rightBytes,
      left.preimage? leftScript leftType version = some leftBytes ∧
      right.preimage? rightScript rightType version = some rightBytes ∧
      left.digest leftScript leftType version = .ok (doubleSha256 leftBytes) ∧
      right.digest rightScript rightType version = .ok (doubleSha256 rightBytes) ∧
      (leftBytes = rightBytes →
        leftType = rightType ∧
        (version = .base →
          (left.transaction.signingCopy left.index leftScript leftType).withoutWitness =
            (right.transaction.signingCopy right.index rightScript rightType).withoutWitness) ∧
        (version = .witnessV0 →
          left.transaction.version = right.transaction.version ∧
          left.parts leftType = right.parts rightType ∧
          left.input?.map Input.previous = right.input?.map Input.previous ∧
          left.input?.map Input.sequence = right.input?.map Input.sequence ∧
          leftScript = rightScript ∧ left.value = right.value ∧
          left.transaction.lockTime = right.transaction.lockTime)) := by
  obtain ⟨leftBytes, leftHashed⟩ := preimage?_isSome leftInRange leftCovered leftScript
  obtain ⟨rightBytes, rightHashed⟩ := preimage?_isSome rightInRange rightCovered rightScript
  refine ⟨leftBytes, rightBytes, leftHashed, rightHashed, digest_of_preimage? leftHashed,
    digest_of_preimage? rightHashed, ?_⟩
  rintro rfl
  cases version with
  | base =>
      obtain ⟨leftInput, leftFound, leftPresent, leftForm⟩ :=
        preimage?_base_eq_some_iff.mp leftHashed
      obtain ⟨rightInput, rightFound, rightPresent, rightForm⟩ :=
        preimage?_base_eq_some_iff.mp rightHashed
      obtain ⟨sameType, sameCopy⟩ := basePreimage_inj leftFound rightFound leftPresent rightPresent
        leftMeasurable rightMeasurable (leftForm.trans rightForm.symm)
      exact ⟨sameType, fun _ => sameCopy, nofun⟩
  | witnessV0 =>
      obtain ⟨leftInput, leftFound, leftForm⟩ := preimage?_witness_eq_some_iff.mp leftHashed
      obtain ⟨rightInput, rightFound, rightForm⟩ := preimage?_witness_eq_some_iff.mp rightHashed
      obtain ⟨sameType, sameVersion, sameParts, samePrevious, sameSequence, rest⟩ :=
        witnessPreimage_inj leftMeasurable.script rightMeasurable.script
          (leftForm.trans rightForm.symm)
      refine ⟨sameType, nofun, fun _ => ⟨sameVersion, sameParts, ?_, ?_, rest⟩⟩
      · rw [leftFound, rightFound, Option.map_some, Option.map_some, samePrevious]
      · rw [leftFound, rightFound, Option.map_some, Option.map_some, sameSequence]

def secondOfTwo : SpendingInput :=
  ⟨twoByTwo, twoByTwo.midstate, 1, 5⟩

theorem isMeasurable_twoByTwo (script : Script) (short : script.length < 2 ^ 64) :
    twoByTwo.IsMeasurable script where
  inputCount := by decide
  outputCount := by decide
  locking := by decide
  script := short

/-- The base preimages of two hash types for the same input differ, though the copies for
the two types are the same. -/
theorem preimages_of_two_types_differ :
    let script : Script := ⟨[0xac]⟩
    1 < twoByTwo.inputs.length ∧ twoByTwo.IsMeasurable script ∧
      ¬((0x41 : HashType) &&& 0x1f = 3 ∧ twoByTwo.outputs.length ≤ 1) ∧
      ¬((0x01 : HashType) &&& 0x1f = 3 ∧ twoByTwo.outputs.length ≤ 1) ∧
      twoByTwo.signingCopy 1 script 0x41 = twoByTwo.signingCopy 1 script 0x01 ∧
      secondOfTwo.preimage? script 0x41 .base ≠ secondOfTwo.preimage? script 0x01 .base := by
  intro script
  have inRange : 1 < twoByTwo.inputs.length := by decide
  have measurable := isMeasurable_twoByTwo script (by decide)
  have covered : ¬((0x41 : HashType) &&& 0x1f = 3 ∧ twoByTwo.outputs.length ≤ 1) := by decide
  have otherCovered : ¬((0x01 : HashType) &&& 0x1f = 3 ∧ twoByTwo.outputs.length ≤ 1) := by decide
  refine ⟨inRange, measurable, covered, otherCovered, by decide, ?_⟩
  obtain ⟨bytes, otherBytes, hashed, otherHashed, -, -, determined⟩ :=
    preimage_determines_covered_fields secondOfTwo secondOfTwo script script 0x41 0x01 .base
      inRange inRange (fun _ => covered) (fun _ => otherCovered) measurable measurable
  rw [hashed, otherHashed]
  intro same
  exact absurd (determined (Option.some.inj same)).1 (by decide)

end SpendingInput

end CoinSpend
