import CoinSpend.Proofs.Decoding
import CoinSpend.Transaction.Size

/-!
# Sizes are the lengths of the wire forms

Each size that is computed from counts and lengths is the length of what is written.
The form with witnesses is the form without them, with two pieces put in: marker and
flag after the version, and the witnesses before the lock time.
-/

namespace CoinSpend

namespace Wire

theorem length_counted {α : Type} {encode : α → Bytes} {measure : α → Nat}
    (length_encode : ∀ item, (encode item).length = measure item) (items : List α) :
    (counted encode items).length =
      compactSizeLength items.length + sumOf measure items := by
  rw [counted, List.length_append, length_compactSize,
    length_flatMap_eq_sumOf measure encode length_encode]

theorem length_witness (items : Witness) : (witness items).length = witnessSize items :=
  length_counted length_lengthPrefixed items

@[simp] theorem length_uint32 (value : UInt32) : (uint32 value).length = 4 :=
  Bytes.length_littleEndian 4 _

@[simp] theorem length_int32 (value : Int32) : (int32 value).length = 4 :=
  length_uint32 _

@[simp] theorem length_int64 (value : Int64) : (int64 value).length = 8 :=
  Bytes.length_littleEndian 8 _

end Wire

theorem OutPoint.length_encode (outPoint : OutPoint) : outPoint.encode.length = 32 + 4 := by
  rw [encode, List.length_append, Wire.length_uint32, outPoint.hash.length_bytes]

theorem Input.length_encode (input : Input) : input.encode.length = input.size := by
  rw [encode, List.length_append, List.length_append, OutPoint.length_encode,
    Wire.length_lengthPrefixed, Wire.length_uint32]
  rfl

theorem Output.length_encode (output : Output) : output.encode.length = output.size := by
  rw [encode, List.length_append, Wire.length_int64, Wire.length_lengthPrefixed]
  rfl

namespace Transaction

variable (transaction : Transaction)

/-- All witnesses in the order of their inputs. -/
def witnessBytes : Bytes :=
  transaction.inputs.flatMap fun input => Wire.witness input.witness

def countedParts : Bytes :=
  Wire.counted Input.encode transaction.inputs ++ Wire.counted Output.encode transaction.outputs

theorem length_witnessBytes :
    transaction.witnessBytes.length =
      sumOf (fun input => witnessSize input.witness) transaction.inputs :=
  length_flatMap_eq_sumOf _ _ (fun input : Input => Wire.length_witness input.witness) _

/-- The form without witnesses, cut after the version and before the lock time. -/
theorem encodeBase_eq :
    transaction.encodeBase =
      Wire.int32 transaction.version ++ transaction.countedParts ++
        Wire.uint32 transaction.lockTime := by
  simp [encodeBase, encodeWith, countedParts]

/-- The form with room for witnesses has two more pieces. -/
theorem encode_of_usesEnvelope (room : transaction.usesEnvelope = true) :
    transaction.encode =
      Wire.int32 transaction.version ++ envelope ++ transaction.countedParts ++
        transaction.witnessBytes ++ Wire.uint32 transaction.lockTime := by
  simp [encode, encodeWith, countedParts, witnessBytes, room]

theorem encode_of_not_usesEnvelope (bare : transaction.usesEnvelope = false) :
    transaction.encode = transaction.encodeBase := by
  rw [encode, bare, encodeBase]

theorem length_encodeBase : transaction.encodeBase.length = transaction.baseSize := by
  rw [encodeBase_eq, countedParts]
  simp only [List.length_append, Wire.length_int32, Wire.length_uint32,
    Wire.length_counted Input.length_encode, Wire.length_counted Output.length_encode, baseSize]
  omega

theorem length_encode : transaction.encode.length = transaction.size := by
  have base := transaction.length_encodeBase
  cases room : transaction.usesEnvelope with
  | false =>
      rw [encode_of_not_usesEnvelope transaction room, base, size, extraSize, room]
      rfl
  | true =>
      rw [encodeBase_eq, List.length_append, List.length_append] at base
      rw [encode_of_usesEnvelope transaction room, size, extraSize, room, if_pos rfl,
        ← transaction.length_witnessBytes, ← base]
      simp only [List.length_append, envelope, List.length_cons, List.length_nil]
      omega

/-- Without witnesses and without room for them nothing but the base is written. -/
theorem encode_withoutWitness : transaction.withoutWitness.encode = transaction.encodeBase := by
  have bare : transaction.withoutWitness.usesEnvelope = false := by
    simp [usesEnvelope, hasWitness, withoutWitness]
  rw [encode_of_not_usesEnvelope _ bare, encodeBase_eq, encodeBase_eq, countedParts, countedParts]
  exact congrArg (fun counted => Wire.int32 transaction.version ++
    (counted ++ Wire.counted Output.encode transaction.outputs) ++
      Wire.uint32 transaction.lockTime) (Input.counted_encode_bare transaction.inputs)

theorem weight_eq : transaction.weight = 3 * transaction.baseSize + transaction.size := by
  rw [weight, Nat.mul_comm]
  rfl

theorem baseSize_le_size : transaction.baseSize ≤ transaction.size :=
  Nat.le_add_right _ _

/-- The virtual size is the least number of which four times is at least the weight. -/
theorem virtualSize_le_iff (bound : Nat) :
    transaction.virtualSize ≤ bound ↔ transaction.weight ≤ 4 * bound := by
  rw [virtualSize, Limits.witnessScale, ← Nat.lt_succ_iff, Nat.div_lt_iff_lt_mul (by decide)]
  omega

/-- Sizes computed from lengths are the lengths of what is written.  The form with
witnesses puts marker and flag after the first four bytes of the base form, and the
witnesses before its last four. -/
theorem sizes_are_lengths_of_wire_forms :
    transaction.encodeBase.length = transaction.baseSize ∧
      transaction.encode.length = transaction.size ∧
      (∀ witness : Witness, (Wire.witness witness).length = witnessSize witness) ∧
      transaction.encodeBase = transaction.withoutWitness.encode ∧
      (∃ front middle back : Bytes, front.length = 4 ∧ back.length = 4 ∧
        transaction.encodeBase = front ++ middle ++ back ∧
        transaction.encode =
          if transaction.usesEnvelope then
            front ++ [0x00, 0x01] ++ middle ++
              transaction.inputs.flatMap (fun input => Wire.witness input.witness) ++ back
          else front ++ middle ++ back) ∧
      transaction.weight = 3 * transaction.baseSize + transaction.size ∧
      4 * transaction.baseSize ≤ transaction.weight ∧
      transaction.weight ≤ 4 * transaction.size ∧
      transaction.baseSize ≤ transaction.virtualSize ∧
      transaction.virtualSize ≤ transaction.size ∧
      ∀ bound, transaction.virtualSize ≤ bound ↔ transaction.weight ≤ 4 * bound := by
  have weight := transaction.weight_eq
  have base := transaction.baseSize_le_size
  have least := transaction.virtualSize_le_iff
  have covers := (least _).mp (Nat.le_refl _)
  refine ⟨transaction.length_encodeBase, transaction.length_encode, Wire.length_witness,
    transaction.encode_withoutWitness.symm, ?_, weight, by omega, by omega, by omega,
    (least _).mpr (by omega), least⟩
  refine ⟨Wire.int32 transaction.version, transaction.countedParts,
    Wire.uint32 transaction.lockTime, Wire.length_int32 _, Wire.length_uint32 _,
    transaction.encodeBase_eq, ?_⟩
  cases room : transaction.usesEnvelope with
  | false =>
      rw [encode_of_not_usesEnvelope transaction room, encodeBase_eq]
      rfl
  | true =>
      rw [encode_of_usesEnvelope transaction room]
      rfl

end Transaction

end CoinSpend
