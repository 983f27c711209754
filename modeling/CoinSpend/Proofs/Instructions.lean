import CoinSpend.Bytes.Lemmas
import CoinSpend.Script.Basic

/-!
# Instructions and their bytes

Decoding yields well-formed instructions only, and every sequence of them is decoded from
its bytes, whatever comes after.
-/

namespace CoinSpend

theorem Opcode.isSmallNumber_iff {opcode : Opcode} :
    opcode.isSmallNumber = true ↔ 0x51 ≤ opcode.byte.toNat ∧ opcode.byte.toNat ≤ 0x60 := by
  rw [isSmallNumber, Bool.and_eq_true, decide_eq_true_iff, decide_eq_true_iff,
    UInt8.le_iff_toNat_le, UInt8.le_iff_toNat_le]
  rfl

namespace PushForm

/-- The opcode of a push says which form it has. -/
theorem ofOpcode?_opcode {form : PushForm} {length : Nat} (fits : length ≤ form.maxLength) :
    ofOpcode? (form.opcode length) = some form := by
  cases form with
  | direct =>
      have small : UInt8.ofNat length ≤ 75 := by
        rw [UInt8.le_iff_toNat_le, UInt8.toNat_ofNat']
        exact Nat.le_trans (Nat.mod_le _ _) fits
      exact if_pos small
  | oneByte => rfl
  | twoBytes => rfl
  | fourBytes => rfl

theorem le_of_ofOpcode?_direct {opcode : Opcode} (begun : ofOpcode? opcode = some .direct) :
    opcode.byte ≤ 75 := by
  unfold ofOpcode? at begun
  split at begun
  · assumption
  · split_ifs at begun <;> cases begun

theorem maxLength_lt (form : PushForm) :
    form.maxLength < if form = .direct then 76 else 256 ^ form.lengthWidth := by
  cases form <;> decide

theorem opcode_not_isSmallNumber {form : PushForm} {length : Nat}
    (fits : length ≤ form.maxLength) : (form.opcode length).isSmallNumber = false := by
  cases form with
  | direct =>
      have small : (UInt8.ofNat length).toNat < 0x51 := by
        rw [UInt8.toNat_ofNat']
        have most : length ≤ 75 := fits
        omega
      rw [← Bool.not_eq_true, Opcode.isSmallNumber_iff]
      exact fun bounds => Nat.not_le_of_lt small bounds.1
  | oneByte => rfl
  | twoBytes => rfl
  | fourBytes => rfl

end PushForm

namespace Instruction

/-! ## Reading what was written -/

theorem readData?_append (form : PushForm) (data rest : Bytes) :
    readData? form data.length (data ++ rest) = some (push form data, rest) := by
  have enough : (data ++ rest).hasAtLeast data.length = true := by
    rw [Bytes.hasAtLeast_eq_true_iff, List.length_append]
    exact Nat.le_add_right _ _
  rw [readData?, if_pos enough, List.take_left, List.drop_left]

theorem readData?_of_field {form : PushForm} {length : Nat} (rest : Bytes)
    (fits : length < 256 ^ form.lengthWidth) :
    (if Bytes.hasAtLeast (Bytes.littleEndian form.lengthWidth length ++ rest)
        form.lengthWidth then
      readData? form
        (Bytes.toNat ((Bytes.littleEndian form.lengthWidth length ++ rest).take
          form.lengthWidth))
        ((Bytes.littleEndian form.lengthWidth length ++ rest).drop form.lengthWidth)
    else none) = readData? form length rest := by
  have width := Bytes.length_littleEndian form.lengthWidth length
  have enough : Bytes.hasAtLeast (Bytes.littleEndian form.lengthWidth length ++ rest)
      form.lengthWidth = true := by
    rw [Bytes.hasAtLeast_eq_true_iff, List.length_append, width]
    exact Nat.le_add_right _ _
  rw [if_pos enough, List.take_left' width, List.drop_left' width, Bytes.toNat_littleEndian,
    Nat.mod_eq_of_lt fits]

theorem read?_header_append {form : PushForm} {length : Nat} (fits : length ≤ form.maxLength)
    (rest : Bytes) : read? (form.header length ++ rest) = readData? form length rest := by
  have begun := PushForm.ofOpcode?_opcode fits
  have small := Nat.lt_of_le_of_lt fits form.maxLength_lt
  change read? ((form.opcode length).byte ::
    (Bytes.littleEndian form.lengthWidth length ++ rest)) = _
  rw [read?, begun]
  cases form with
  | direct =>
      have same : (UInt8.ofNat length).toNat = length :=
        UInt8.toNat_ofNat_of_lt' (Nat.lt_trans small (by decide))
      dsimp only [PushForm.opcode]
      rw [same]
      rfl
  | oneByte => exact readData?_of_field rest small
  | twoBytes => exact readData?_of_field rest small
  | fourBytes => exact readData?_of_field rest small

/-- A well-formed instruction is the first one of any bytes that begin with its own. -/
theorem read?_encode_append {instruction : Instruction} (wellFormed : instruction.WellFormed)
    (rest : Bytes) : read? (instruction.encode ++ rest) = some (instruction, rest) := by
  cases instruction with
  | op opcode =>
      change read? (opcode.byte :: rest) = _
      rw [read?, show PushForm.ofOpcode? ⟨opcode.byte⟩ = none from wellFormed]
  | push form data =>
      rw [encode, List.append_assoc, read?_header_append wellFormed, readData?_append]

/-- Well-formed instructions are decoded from their bytes, before those that follow. -/
theorem decode_flatMap_encode_append {instructions : List Instruction}
    (wellFormed : ∀ instruction ∈ instructions, instruction.WellFormed) (rest : Bytes) :
    decode (instructions.flatMap encode ++ rest) =
      (instructions ++ (decode rest).1, (decode rest).2) := by
  induction instructions with
  | nil => rfl
  | cons instruction later ih =>
      obtain ⟨first, wellFormed⟩ := List.forall_mem_cons.mp wellFormed
      rw [List.flatMap_cons, List.append_assoc,
        decode_eq_of_read?_some (read?_encode_append first _), ih wellFormed]
      rfl

/-! ## What is read -/

theorem wellFormed_of_readData? {form : PushForm} {length : Nat} {bytes rest : Bytes}
    {instruction : Instruction} (fits : length ≤ form.maxLength)
    (found : readData? form length bytes = some (instruction, rest)) :
    instruction.WellFormed := by
  unfold readData? at found
  split at found
  · cases found
    exact Nat.le_trans (List.length_take_le _ _) fits
  · cases found

theorem toNat_field_le {form : PushForm} {bytes : Bytes} (longer : form ≠ .direct)
    (enough : form.lengthWidth ≤ bytes.length) :
    Bytes.toNat (bytes.take form.lengthWidth) ≤ form.maxLength := by
  have bound := Bytes.toNat_lt (bytes.take form.lengthWidth)
  rw [List.length_take, Nat.min_eq_left enough] at bound
  cases form with
  | direct => exact absurd rfl longer
  | oneByte => exact Nat.le_of_lt_succ bound
  | twoBytes => exact Nat.le_of_lt_succ bound
  | fourBytes => exact Nat.le_of_lt_succ bound

theorem wellFormed_of_read? {bytes rest : Bytes} {instruction : Instruction}
    (found : read? bytes = some (instruction, rest)) : instruction.WellFormed := by
  unfold read? at found
  split at found
  · cases found
  · rename_i first tail
    split at found
    · rename_i single
      cases found
      exact single
    · rename_i begun
      exact wellFormed_of_readData?
        (UInt8.le_iff_toNat_le.mp (PushForm.le_of_ofOpcode?_direct begun)) found
    · rename_i form longer begun
      split at found
      · rename_i enough
        exact wellFormed_of_readData?
          (toNat_field_le longer ((Bytes.hasAtLeast_eq_true_iff _ _).mp enough)) found
      · cases found

theorem wellFormed_of_mem_decode {bytes : Bytes} {instruction : Instruction}
    (member : instruction ∈ (decode bytes).1) : instruction.WellFormed := by
  induction shorter : bytes.length using Nat.strongRecOn generalizing bytes with
  | ind length ih =>
      subst shorter
      cases found : read? bytes with
      | none =>
          rw [decode_eq_of_read?_none found] at member
          cases member
      | some split =>
          obtain ⟨first, rest⟩ := split
          rw [decode_eq_of_read?_some found] at member
          rcases List.mem_cons.mp member with rfl | later
          · exact wellFormed_of_read? found
          · exact ih rest.length (read?_length found) later rfl

end Instruction

namespace Script

theorem wellFormed_of_mem_instructions {script : Script} {instruction : Instruction}
    (member : instruction ∈ script.instructions) : instruction.WellFormed :=
  Instruction.wellFormed_of_mem_decode member

/-- A whole script is made of its instructions. -/
theorem ofInstructions_instructions {script : Script} (whole : script.isWhole = true) :
    ofInstructions script.instructions = script := by
  have noEnd : script.brokenEnd = [] := List.isEmpty_iff.mp whole
  have bytes := Instruction.flatMap_encode_decode script.bytes
  change script.instructions.flatMap Instruction.encode ++ script.brokenEnd = _ at bytes
  rw [noEnd, List.append_nil] at bytes
  rw [ofInstructions, bytes]

/-- A script made of well-formed instructions has these instructions. -/
theorem instructions_ofInstructions {instructions : List Instruction}
    (wellFormed : ∀ instruction ∈ instructions, instruction.WellFormed) :
    (ofInstructions instructions).instructions = instructions := by
  have decoded := Instruction.decode_flatMap_encode_append wellFormed []
  rw [List.append_nil, Instruction.decode_nil, List.append_nil] at decoded
  exact congrArg Prod.fst decoded

end Script

end CoinSpend
