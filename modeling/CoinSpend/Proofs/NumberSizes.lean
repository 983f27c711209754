import CoinSpend.Bytes.Lemmas
import CoinSpend.Interpreter.Stack

/-!
# How large script numbers are

A number that is read from so many bytes has a magnitude below the sign bit of that many
bytes, and a number below it is written in no more bytes than that.  So operands and
results of arithmetic stay far within 64 bits, and results take at most five bytes.
-/

namespace CoinSpend

namespace ScriptNumber

theorem signBit_succ (count : Nat) : signBit (count + 1) = 2 ^ (8 * count + 7) := by
  rw [signBit, Nat.add_sub_cancel, Nat.shiftLeft_eq, Nat.pow_add, Nat.mul_comm]

theorem pow_length_eq {bytes : Bytes} (nonempty : bytes ≠ []) :
    256 ^ bytes.length = 2 * signBit bytes.length := by
  obtain ⟨first, rest, rfl⟩ := List.exists_cons_of_ne_nil nonempty
  rw [List.length_cons, signBit_succ, ← Nat.pow_succ', show 256 = 2 ^ 8 from rfl, ← Nat.pow_mul]
  congr 1

theorem natAbs_value_lt {bytes : Bytes} (nonempty : bytes ≠ []) :
    (value bytes).natAbs < signBit bytes.length := by
  have bound := Bytes.toNat_lt bytes
  rw [pow_length_eq nonempty] at bound
  unfold value
  dsimp only
  split
  · omega
  · rename_i unsigned
    have small : ¬ signBit bytes.length ≤ Bytes.toNat bytes :=
      fun signed => unsigned ⟨nonempty, signed⟩
    omega

/-- A number of at most so many bytes has no more bits than they have without the sign. -/
theorem natAbs_value_lt_of_length_le {bytes : Bytes} {count : Nat}
    (fits : bytes.length ≤ count + 1) : (value bytes).natAbs < 2 ^ (8 * count + 7) := by
  cases bytes with
  | nil => exact Nat.two_pow_pos _
  | cons first rest =>
      have bound := natAbs_value_lt (List.cons_ne_nil first rest)
      rw [List.length_cons] at fits
      rw [List.length_cons, signBit_succ] at bound
      exact Nat.lt_of_lt_of_le bound (Nat.pow_le_pow_right (by decide) (by omega))

@[simp] theorem length_encode (number : Int) : (encode number).length = width number :=
  Bytes.length_littleEndian _ _

/-- A number with room for its sign in so many bytes is written in no more than that. -/
theorem length_encode_le {number : Int} {count : Nat}
    (small : number.natAbs < 2 ^ (8 * count + 7)) : (encode number).length ≤ count + 1 := by
  rw [length_encode, width]
  split
  · exact Nat.zero_le _
  · rename_i nonzero
    have bits := (Nat.log2_lt (Int.natAbs_ne_zero.mpr nonzero)).mpr small
    omega

theorem of_decode?_eq_some {bytes : Bytes} {requireMinimal : Bool} {maxLength : Nat}
    {number : Int} (read : decode? bytes requireMinimal maxLength = some number) :
    number = value bytes ∧ bytes.length ≤ maxLength := by
  unfold decode? at read
  split at read
  · cases read
  · rename_i short
    split at read
    · cases read
    · cases read
      exact ⟨rfl, Nat.not_lt.mp short⟩

end ScriptNumber

namespace Stack

variable {requireMinimal : Bool}

/-- A number that is read has the value of its element, which is short. -/
theorem of_number_eq_ok {maxLength : Nat} {element : Bytes} {read : Int}
    (succeeded : number requireMinimal maxLength element = .ok read) :
    read = ScriptNumber.value element ∧ element.length ≤ maxLength := by
  unfold number at succeeded
  split at succeeded
  · rename_i found
    cases succeeded
    exact ScriptNumber.of_decode?_eq_some found
  · cases succeeded

theorem eq_value_of_operand_eq_ok {element : Bytes} {read : Int}
    (succeeded : operand requireMinimal element = .ok read) :
    read = ScriptNumber.value element :=
  (of_number_eq_ok succeeded).1

/-- Operands of arithmetic have at most 31 bits. -/
theorem natAbs_lt_of_operand_eq_ok {element : Bytes} {read : Int}
    (succeeded : operand requireMinimal element = .ok read) : read.natAbs < 2 ^ 31 := by
  obtain ⟨rfl, short⟩ := of_number_eq_ok succeeded
  have fits : element.length ≤ 3 + 1 := short
  have bound := ScriptNumber.natAbs_value_lt_of_length_le fits
  exact bound

theorem natAbs_truth_le (value : Bool) : (truth value).natAbs ≤ 1 := by
  cases value <;> decide

theorem natAbs_unaryValue_le (operation : UnaryOperation) (number : Int) :
    (unaryValue operation number).natAbs ≤ number.natAbs + 1 := by
  have truthful := natAbs_truth_le
  cases operation with
  | increment => simp only [unaryValue]; omega
  | decrement => simp only [unaryValue]; omega
  | negate => simp only [unaryValue]; omega
  | absolute => simp only [unaryValue]; omega
  | not => exact Nat.le_trans (truthful _) (Nat.le_add_left _ _)
  | notZero => exact Nat.le_trans (truthful _) (Nat.le_add_left _ _)

theorem natAbs_binaryValue_le (operation : BinaryOperation) (left right : Int) :
    (binaryValue operation left right).natAbs ≤ left.natAbs + right.natAbs + 1 := by
  have truthful := natAbs_truth_le
  cases operation with
  | add => simp only [binaryValue]; omega
  | subtract => simp only [binaryValue]; omega
  | minimum => simp only [binaryValue]; omega
  | maximum => simp only [binaryValue]; omega
  | and | or | equal | notEqual | less | greater | lessOrEqual | greaterOrEqual =>
      exact Nat.le_trans (truthful _) (Nat.le_add_left _ _)

end Stack

end CoinSpend
