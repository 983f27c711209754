import CoinSpend.Proofs.Decoding

/-!
# One wire form for each transaction

What a read takes is the wire form of what it gives, so that no two byte strings stand
for the same transaction and none begins another one.  In the other direction the wire
form is read back unless it is too large, or is taken for a form with witnesses.
-/

namespace CoinSpend

open Wire Wire.Decoder

namespace Transaction

/-! ## From bytes to a transaction and back -/

theorem decode_eq_ok_iff {bytes : Bytes} {transaction : Transaction} :
    decode bytes = .ok transaction ↔ transaction.IsReadable ∧ bytes = transaction.encode := by
  constructor
  · intro decoded
    rw [decode] at decoded
    split at decoded
    · cases decoded
    · rename_i value after read
      split at decoded
      · rename_i ended
        cases decoded
        obtain ⟨readable, taken⟩ := (transaction_reads _ _ _).mp read
        exact ⟨readable, (Reader.takes_all_iff.mp ⟨taken, ended⟩).1⟩
      · cases decoded
  · rintro ⟨readable, same⟩
    obtain ⟨taken, ended⟩ := Reader.takes_all_iff.mpr ⟨same, rfl⟩
    rw [decode, (transaction_reads _ _ _).mpr ⟨readable, taken⟩]
    exact if_pos ended

/-- Neither of two wire forms that can be read begins the other, unless they are the
same. -/
theorem eq_of_encode_append_eq {left right : Transaction} {leftRest rightRest : Bytes}
    (leftReadable : left.IsReadable) (rightReadable : right.IsReadable)
    (same : left.encode ++ leftRest = right.encode ++ rightRest) : left = right := by
  have leftRead := (transaction_reads _ _ _).mpr
    ⟨leftReadable, Reader.takes_append left.encode leftRest 0⟩
  have rightRead := (transaction_reads _ _ _).mpr
    ⟨rightReadable, Reader.takes_append right.encode rightRest 0⟩
  rw [same, rightRead] at leftRead
  exact (Except.ok.inj (Prod.mk.inj leftRead).1).symm

theorem eq_of_begins {bytes other : Bytes} {left right : Transaction}
    (decoded : decode bytes = .ok left) (otherDecoded : decode other = .ok right)
    (begins : other <+: bytes) : other = bytes := by
  obtain ⟨leftReadable, rfl⟩ := decode_eq_ok_iff.mp decoded
  obtain ⟨rightReadable, rfl⟩ := decode_eq_ok_iff.mp otherDecoded
  obtain ⟨rest, same⟩ := begins
  rw [← List.append_nil left.encode] at same
  rw [eq_of_encode_append_eq rightReadable leftReadable same]

/-- Decoding is strict and ends by itself: the bytes that are taken are the wire form of
the result, what follows them does not matter, and a byte string that can be decoded
neither begins nor continues another one. -/
theorem decoding_is_strict :
    (∀ (before after : Reader) (result : Transaction),
      transaction.runOn before = (.ok result, after) →
        before.rest = result.encode ++ after.rest ∧
          after.position = before.position + result.encode.length ∧
          ∀ other : Bytes,
            transaction.runOn ⟨result.encode ++ other, before.position⟩ =
              (.ok result, ⟨other, after.position⟩)) ∧
      (∀ (bytes : Bytes) (result : Transaction),
        decode bytes = .ok result → result.encode = bytes) ∧
      (∀ (bytes other : Bytes) (result : Transaction),
        decode bytes = .ok result → other ≠ bytes → (other <+: bytes ∨ bytes <+: other) →
          ∃ fault, decode other = .error fault) := by
  refine ⟨?_, ?_, ?_⟩
  · intro before after result read
    obtain ⟨readable, taken⟩ := (transaction_reads _ _ _).mp read
    refine ⟨taken.rest_eq, taken.position_eq, ?_⟩
    intro other
    rw [taken.position_eq]
    exact (transaction_reads _ _ _).mpr ⟨readable, Reader.takes_append _ _ _⟩
  · intro bytes result decoded
    exact (decode_eq_ok_iff.mp decoded).2.symm
  · intro bytes other result decoded different related
    cases otherDecoded : decode other with
    | error fault => exact ⟨fault, rfl⟩
    | ok otherResult =>
        rcases related with shorter | longer
        · exact absurd (eq_of_begins decoded otherDecoded shorter) different
        · exact absurd (eq_of_begins otherDecoded decoded longer).symm different

def roomForNothing : Transaction where
  version := 1
  inputs := [⟨⟨.zero 32, 7⟩, .empty, [], 5⟩]
  outputs := []
  lockTime := 0
  witnessFlag := true

theorem empty_envelope_is_read_strictly :
    decode roomForNothing.encode = .ok roomForNothing ∧
      envelope <+: roomForNothing.encode.drop 4 ∧
      (transaction.runOn ⟨roomForNothing.encode ++ [1, 2], 3⟩).2 = ⟨[1, 2], 57⟩ ∧
      (∃ fault, decode (roomForNothing.encode ++ [0]) = .error fault) := by
  have decoded : decode roomForNothing.encode = .ok roomForNothing := by decide +kernel
  have read : transaction.runOn ⟨roomForNothing.encode, 3⟩ =
      (.ok roomForNothing, ⟨[], 57⟩) := by
    decide +kernel
  refine ⟨decoded, ⟨_, rfl⟩, ?_, ?_⟩
  · have same := decoding_is_strict.1 _ _ _ read
    rw [same.2.2 [1, 2]]
  · refine decoding_is_strict.2.2 _ (roomForNothing.encode ++ [0]) _ decoded ?_
      (Or.inr (List.prefix_append _ _))
    decide +kernel

/-! ## From a transaction to bytes and back -/

theorem usesEnvelope_with_flag (transaction : Transaction) :
    usesEnvelope { transaction with witnessFlag := transaction.usesEnvelope } =
      transaction.usesEnvelope := by
  change ((transaction.witnessFlag || transaction.hasWitness) || transaction.hasWitness) = _
  rw [Bool.or_assoc, Bool.or_self]
  rfl

/-- The flag leaves a trace in the wire form only where there are no witnesses. -/
theorem encode_with_flag (transaction : Transaction) :
    encode { transaction with witnessFlag := transaction.usesEnvelope } =
      transaction.encode := by
  rw [encode, usesEnvelope_with_flag]
  rfl

theorem isReadable_with_flag_iff (transaction : Transaction) :
    IsReadable { transaction with witnessFlag := transaction.usesEnvelope } ↔
      transaction.FitsWire ∧ ¬transaction.IsMistaken := by
  have sameMistake :
      IsMistaken { transaction with witnessFlag := transaction.usesEnvelope } ↔
        transaction.IsMistaken := by
    unfold IsMistaken
    rw [usesEnvelope_with_flag]
  constructor
  · rintro ⟨fits, -, notMistaken⟩
    rw [fitsWire_iff] at fits
    exact ⟨(fitsWire_iff _).mpr fits, mt sameMistake.mpr notMistaken⟩
  · rintro ⟨fits, notMistaken⟩
    rw [fitsWire_iff] at fits
    exact ⟨(fitsWire_iff _).mpr fits, (usesEnvelope_with_flag transaction).symm,
      mt sameMistake.mp notMistaken⟩

/-- Where a plain form begins like an envelope, an envelope is read. -/
theorem witnessFlag_of_read_mistaken {transaction result : Transaction} {rest : Bytes}
    {position : Nat} {after : Reader} (mistaken : transaction.IsMistaken)
    (read : Decoder.transaction.runOn ⟨transaction.encode ++ rest, position⟩ =
      (.ok result, after)) : result.witnessFlag = true := by
  obtain ⟨readable, taken⟩ := (transaction_reads _ _ _).mp read
  obtain ⟨noInputs, someOutput, plain⟩ := mistaken
  have restEq := taken.rest_eq
  cases flagged : result.witnessFlag with
  | true => rfl
  | false =>
      have resultPlain : result.usesEnvelope = false := readable.flag_eq.symm.trans flagged
      dsimp only at restEq
      rw [encode, encode, plain, resultPlain, encodeWith_eq, encodeWith_eq,
        List.append_assoc, List.append_assoc (Wire.int32 result.version)] at restEq
      have sameBody : transaction.encodeBody false ++ rest =
          result.encodeBody false ++ after.rest :=
        (List.append_inj restEq rfl).2
      have looks := (looksEnveloped_encodeBody_iff transaction rest).mpr ⟨noInputs, someOutput⟩
      rw [sameBody, looksEnveloped_encodeBody_iff] at looks
      exact absurd ⟨looks.1, looks.2, resultPlain⟩ readable.notMistaken

/-- Decoding undoes encoding exactly for the transactions within the limits of the wire
that are not mistaken for another.  A mistaken one is never read back. -/
theorem decoding_undoes_encoding_iff :
    (∀ (original : Transaction) (rest : Bytes) (position : Nat),
      (∃ after, transaction.runOn ⟨original.encode ++ rest, position⟩ =
          (.ok { original with witnessFlag := original.usesEnvelope }, after) ∧
          after.rest = rest) ↔
        original.FitsWire ∧ ¬original.IsMistaken) ∧
      (∀ (original : Transaction) (rest : Bytes) (position : Nat), original.IsMistaken →
        (∃ fault after, transaction.runOn ⟨original.encode ++ rest, position⟩ =
          (.error fault, after)) ∨
        (∃ result after, transaction.runOn ⟨original.encode ++ rest, position⟩ =
          (.ok result, after) ∧ result.witnessFlag = true ∧ result ≠ original)) := by
  constructor
  · intro original rest position
    rw [← isReadable_with_flag_iff]
    constructor
    · rintro ⟨after, read, -⟩
      exact ((transaction_reads _ _ _).mp read).1
    · intro readable
      refine ⟨⟨rest, position + original.encode.length⟩, ?_, rfl⟩
      refine (transaction_reads _ _ _).mpr ⟨readable, ?_⟩
      rw [encode_with_flag]
      exact Reader.takes_append _ _ _
  · intro original rest position mistaken
    cases read : transaction.runOn ⟨original.encode ++ rest, position⟩ with
    | mk outcome after =>
        cases outcome with
        | error fault => exact Or.inl ⟨fault, after, rfl⟩
        | ok result =>
            have flagged := witnessFlag_of_read_mistaken mistaken read
            refine Or.inr ⟨result, after, rfl, flagged, ?_⟩
            rintro rfl
            have unflagged := (Bool.or_eq_false_iff.mp mistaken.2.2).1
            exact Bool.false_ne_true (unflagged.symm.trans flagged)

/-- No inputs and one output, whose count stands where the flag would. -/
def bareOutput : Transaction where
  version := 1
  inputs := []
  outputs := [⟨0, .empty⟩]
  lockTime := 0
  witnessFlag := false

theorem bareOutput_is_mistaken :
    bareOutput.IsMistaken ∧
      (∃ result after, transaction.runOn ⟨bareOutput.encode ++ [], 0⟩ = (.ok result, after) ∧
        result.witnessFlag = true ∧ result ≠ bareOutput) ∧
      (∃ after, transaction.runOn ⟨roomForNothing.encode ++ [1, 2], 3⟩ =
        (.ok { roomForNothing with witnessFlag := true }, after) ∧ after.rest = [1, 2]) := by
  have mistaken : bareOutput.IsMistaken := by decide +kernel
  have read : transaction.runOn ⟨bareOutput.encode ++ [], 0⟩ =
      (.ok ⟨1, [], [], 0, true⟩, ⟨List.replicate 7 0, 12⟩) := by
    decide +kernel
  have fits : roomForNothing.FitsWire ∧ ¬roomForNothing.IsMistaken := by decide +kernel
  refine ⟨mistaken, ?_, (decoding_undoes_encoding_iff.1 roomForNothing [1, 2] 3).mpr fits⟩
  rcases decoding_undoes_encoding_iff.2 bareOutput [] 0 mistaken with
    ⟨fault, after, failed⟩ | mistakenRead
  · rw [read] at failed
    cases failed
  · exact mistakenRead

end Transaction

end CoinSpend
