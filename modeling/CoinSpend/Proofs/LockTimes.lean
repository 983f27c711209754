import Mathlib.Data.Nat.Bitwise
import CoinSpend.Signature.SpendingInput

/-!
# Lock times

A relative lock time is compared as a word that keeps the type bit above the value, after the
types were found to be the same.  That compares the values, and no other bit of the operand
counts.  A lock time that has been reached stays so for smaller operands and for later
transactions, as long as both sides count heights or both count times.
-/

namespace CoinSpend

namespace SpendingInput

variable {spending : SpendingInput}

/-! ## Masked words -/

/-- The mask keeps the type bit and the sixteen bits of the value. -/
theorem and_sequenceMask (number : Nat) :
    number &&& 0x40ffff = 2 ^ 22 * (number.testBit 22).toNat + number % 2 ^ 16 := by
  have low : number % 2 ^ 16 < 2 ^ 22 := Nat.lt_trans (Nat.mod_lt _ (by decide)) (by decide)
  calc number &&& 0x40ffff
      = number &&& (2 ^ 22 ||| (2 ^ 16 - 1)) := rfl
    _ = (number &&& 2 ^ 22) ||| (number &&& (2 ^ 16 - 1)) := Nat.and_or_distrib_left ..
    _ = 2 ^ 22 * (number.testBit 22).toNat ||| number % 2 ^ 16 := by
        rw [Nat.and_two_pow, Nat.and_two_pow_sub_one_eq_mod, Nat.mul_comm]
    _ = _ := (Nat.two_pow_add_eq_or_of_lt low _).symm

/-- Masked words of the same type compare like their values. -/
theorem masked_reached_iff (own asked : Nat) :
    ((own &&& 0x40ffff < 0x400000 ↔ asked &&& 0x40ffff < 0x400000) ∧
        asked &&& 0x40ffff ≤ own &&& 0x40ffff) ↔
      asked.testBit 22 = own.testBit 22 ∧ asked % 2 ^ 16 ≤ own % 2 ^ 16 := by
  have ownLow : own % 2 ^ 16 < 2 ^ 16 := Nat.mod_lt _ (by decide)
  have askedLow : asked % 2 ^ 16 < 2 ^ 16 := Nat.mod_lt _ (by decide)
  rw [and_sequenceMask, and_sequenceMask]
  cases own.testBit 22 <;> cases asked.testBit 22 <;>
    simp only [Bool.toNat_true, Bool.toNat_false, reduceCtorEq, true_and, false_and, iff_false] <;>
    omega

theorem toNat_lowerHalf (operand : Int64) :
    (Int32.ofInt operand.toInt).toUInt32.toNat = operand.toBitVec.toNat % 2 ^ 32 := by
  rw [Int32.ofInt_int64ToInt, ← Int32.toNat_toBitVec, Int64.toBitVec_toInt32,
    BitVec.signExtend_eq_setWidth_of_le _ (by decide), BitVec.toNat_setWidth]

theorem isEnabled_iff (sequence : UInt32) :
    (sequence &&& Limits.sequenceDisableFlag == 0) = true ↔
      sequence.toBitVec.getLsbD 31 = false := by
  have flag : Limits.sequenceDisableFlag.toNat = 2 ^ 31 := rfl
  rw [beq_iff_eq, ← UInt32.toNat_inj, UInt32.toNat_and, flag, Nat.and_two_pow, BitVec.getLsbD,
    UInt32.toNat_toBitVec]
  cases sequence.toNat.testBit 31 <;> simp

theorem masked_half_reached_iff (sequence : UInt32) (operand : Int64) :
    ((decide (sequence &&& sequenceMask < Limits.sequenceTypeFlag) ==
          decide ((Int32.ofInt operand.toInt).toUInt32 &&& sequenceMask <
            Limits.sequenceTypeFlag)) = true ∧
        (Int32.ofInt operand.toInt).toUInt32 &&& sequenceMask ≤ sequence &&& sequenceMask) ↔
      operand.toBitVec.getLsbD 22 = sequence.toBitVec.getLsbD 22 ∧
        operand.toBitVec.setWidth 16 ≤ sequence.toBitVec.setWidth 16 := by
  have mask : sequenceMask.toNat = 0x40ffff := rfl
  have flag : Limits.sequenceTypeFlag.toNat = 0x400000 := rfl
  rw [beq_iff_eq, decide_eq_decide, UInt32.lt_iff_toNat_lt, UInt32.lt_iff_toNat_lt,
    UInt32.le_iff_toNat_le, UInt32.toNat_and, UInt32.toNat_and, mask, flag, toNat_lowerHalf,
    masked_reached_iff, Nat.testBit_mod_two_pow, Nat.mod_mod_of_dvd _ (by decide),
    BitVec.le_def, BitVec.toNat_setWidth, BitVec.toNat_setWidth]
  rfl

/-- A relative lock time has been reached exactly if there is an input, the version allows it, the
sequence number carries it, the types are the same, and the value asked for is no larger. -/
theorem checkSequence_eq_true_iff {operand : Int64} :
    spending.checkSequence operand.toInt = true ↔
      ∃ input, spending.input? = some input ∧ 2 ≤ spending.transaction.version.toUInt32 ∧
        input.sequence.toBitVec.getLsbD 31 = false ∧
        operand.toBitVec.getLsbD 22 = input.sequence.toBitVec.getLsbD 22 ∧
        operand.toBitVec.setWidth 16 ≤ input.sequence.toBitVec.setWidth 16 := by
  rw [checkSequence]
  cases spending.input? with
  | none => simp
  | some input =>
      simp only [Bool.and_eq_true, decide_eq_true_eq, and_assoc, isEnabled_iff,
        masked_half_reached_iff, Option.some.injEq, exists_eq_left']

/-! ## Words of 64 bits -/

/-- `checkSequence` with the operand and the sequence number in words of 64 bits. -/
def checkSequenceByWord (spending : SpendingInput) (operand : Int64) : Bool :=
  match spending.input? with
  | none => false
  | some input =>
      let own := input.sequence.toUInt64.toInt64
      let typeFlag := Limits.sequenceTypeFlag.toUInt64.toInt64
      let mask := sequenceMask.toUInt64.toInt64
      if spending.transaction.version.toUInt32 < 2 then false
      else if own &&& Limits.sequenceDisableFlag.toUInt64.toInt64 ≠ 0 then false
      else if decide (own &&& mask < typeFlag) ≠ decide (operand &&& mask < typeFlag) then false
      else operand &&& mask ≤ own &&& mask

def checkLockTimeByWord (spending : SpendingInput) (operand : Int64) : Bool :=
  match spending.input? with
  | none => false
  | some input =>
      let own := spending.transaction.lockTime.toUInt64.toInt64
      let threshold := Int64.ofNat Limits.lockTimeThreshold
      if decide (own < threshold) ≠ decide (operand < threshold) then false
      else if own < operand then false
      else input.sequence ≠ Limits.finalSequence

theorem toNat_toInt64 (word : UInt32) : word.toUInt64.toInt64.toBitVec.toNat = word.toNat :=
  rfl

theorem toInt_and_toInt64 (word : Int64) (mask : UInt32) :
    (word &&& mask.toUInt64.toInt64).toInt = (word.toBitVec.toNat &&& mask.toNat : Nat) := by
  have masked : (word &&& mask.toUInt64.toInt64).toBitVec.toNat =
      word.toBitVec.toNat &&& mask.toNat := rfl
  have small : word.toBitVec.toNat &&& mask.toNat < 2 ^ 32 :=
    Nat.lt_of_le_of_lt Nat.and_le_right mask.toNat_lt
  rw [← Int64.toInt_toBitVec, BitVec.toInt_eq_toNat_of_lt (by omega), masked]

theorem isEnabledByWord_iff (sequence : UInt32) :
    sequence.toUInt64.toInt64 &&& Limits.sequenceDisableFlag.toUInt64.toInt64 = 0 ↔
      sequence.toBitVec.getLsbD 31 = false := by
  rw [← isEnabled_iff, beq_iff_eq, ← Int64.toInt_inj, toInt_and_toInt64, ← UInt32.toNat_inj,
    UInt32.toNat_and, toNat_toInt64]
  exact Int.natCast_eq_zero

theorem masked_word_reached_iff (sequence : UInt32) (operand : Int64) :
    (decide (sequence.toUInt64.toInt64 &&& sequenceMask.toUInt64.toInt64 <
          Limits.sequenceTypeFlag.toUInt64.toInt64) =
        decide (operand &&& sequenceMask.toUInt64.toInt64 <
          Limits.sequenceTypeFlag.toUInt64.toInt64) ∧
      operand &&& sequenceMask.toUInt64.toInt64 ≤
        sequence.toUInt64.toInt64 &&& sequenceMask.toUInt64.toInt64) ↔
      operand.toBitVec.getLsbD 22 = sequence.toBitVec.getLsbD 22 ∧
        operand.toBitVec.setWidth 16 ≤ sequence.toBitVec.setWidth 16 := by
  have mask : sequenceMask.toNat = 0x40ffff := rfl
  have flag : Limits.sequenceTypeFlag.toUInt64.toInt64.toInt = (0x400000 : Nat) := rfl
  rw [decide_eq_decide, Int64.lt_iff_toInt_lt, Int64.lt_iff_toInt_lt, Int64.le_iff_toInt_le,
    toInt_and_toInt64, toInt_and_toInt64, flag, mask, toNat_toInt64, Int.ofNat_lt, Int.ofNat_lt,
    Int.ofNat_le, masked_reached_iff, BitVec.le_def, BitVec.toNat_setWidth, BitVec.toNat_setWidth]
  rfl

theorem checkSequenceByWord_eq (operand : Int64) :
    spending.checkSequenceByWord operand = spending.checkSequence operand.toInt := by
  rw [Bool.eq_iff_iff, checkSequence_eq_true_iff, checkSequenceByWord]
  cases spending.input? with
  | none => simp
  | some input =>
      simp only [Option.some.injEq, exists_eq_left', ← isEnabledByWord_iff,
        ← masked_word_reached_iff]
      split_ifs with old disabled different
      · simp [UInt32.not_le.mpr old]
      · simp [disabled]
      · simp [different]
      · simp only [UInt32.not_lt.mp old, not_not.mp disabled, not_not.mp different,
          decide_eq_true_eq, true_and]

theorem checkLockTimeByWord_eq (operand : Int64) :
    spending.checkLockTimeByWord operand = spending.checkLockTime operand.toInt := by
  have own : spending.transaction.lockTime.toUInt64.toInt64.toInt =
      (spending.transaction.lockTime.toNat : Int) := by
    have small := spending.transaction.lockTime.toNat_lt
    rw [← Int64.toInt_toBitVec, BitVec.toInt_eq_toNat_of_lt, toNat_toInt64]
    rw [toNat_toInt64]
    omega
  have threshold : (Int64.ofNat Limits.lockTimeThreshold).toInt =
      (Limits.lockTimeThreshold : Int) := rfl
  rw [Bool.eq_iff_iff, checkLockTimeByWord, checkLockTime]
  cases spending.input? with
  | none => simp
  | some input =>
      simp only [Int64.lt_iff_toInt_lt, own, threshold]
      split_ifs with different later
      · simp only [beq_eq_false_iff_ne.mpr different, Bool.false_and, Bool.false_eq_true]
      · simp [Int.not_le.mpr later]
      · rw [beq_iff_eq.mpr (not_not.mp different), decide_eq_true (Int.not_lt.mp later)]
        simp

/-! ## Operands on the same side -/

theorem checkLockTime_eq_true_iff {operand : Int} :
    spending.checkLockTime operand = true ↔
      ∃ input, spending.input? = some input ∧ input.sequence ≠ 0xffffffff ∧
        ((spending.transaction.lockTime.toNat : Int) < 500000000 ↔ operand < 500000000) ∧
        operand ≤ spending.transaction.lockTime.toNat := by
  have threshold : (Limits.lockTimeThreshold : Int) = 500000000 := rfl
  have final : Limits.finalSequence = 0xffffffff := rfl
  rw [checkLockTime]
  cases spending.input? with
  | none => simp
  | some input =>
      simp only [threshold, final, Bool.and_eq_true, beq_iff_eq, decide_eq_decide,
        decide_eq_true_eq, bne_iff_ne, Option.some.injEq, exists_eq_left']
      rw [and_comm]

/-- What a relative lock time is compared by, and which operands pass together with one that a
lock time reaches: the smaller ones on its side of the threshold, and it itself as the lock time
is raised on that side.  The comparisons may be made with words. -/
theorem lock_times_compare_type_and_value (spending : SpendingInput) :
    (∀ operand : Int64,
      (spending.checkSequence operand.toInt = true ↔
        ∃ input, spending.input? = some input ∧ 2 ≤ spending.transaction.version.toUInt32 ∧
          input.sequence.toBitVec.getLsbD 31 = false ∧
          operand.toBitVec.getLsbD 22 = input.sequence.toBitVec.getLsbD 22 ∧
          operand.toBitVec.setWidth 16 ≤ input.sequence.toBitVec.setWidth 16) ∧
      (∀ other : Int64,
        (∀ position, position < 16 ∨ position = 22 →
          other.toBitVec.getLsbD position = operand.toBitVec.getLsbD position) →
        spending.checkSequence other.toInt = spending.checkSequence operand.toInt) ∧
      spending.checkSequenceByWord operand = spending.checkSequence operand.toInt ∧
      spending.checkLockTimeByWord operand = spending.checkLockTime operand.toInt) ∧
    ∀ operand : Int, spending.checkLockTime operand = true →
      (∀ other ≤ operand, (other < 500000000 ↔ operand < 500000000) →
        spending.checkLockTime other = true) ∧
      (∀ other : Int, ¬ (other < 500000000 ↔ operand < 500000000) →
        spending.checkLockTime other = false) ∧
      ∀ lockTime : UInt32, spending.transaction.lockTime ≤ lockTime →
        (lockTime.toNat < 500000000 ↔ spending.transaction.lockTime.toNat < 500000000) →
        { spending with
          transaction := { spending.transaction with lockTime := lockTime } }.checkLockTime
            operand = true := by
  refine ⟨fun operand => ⟨checkSequence_eq_true_iff, ?_, checkSequenceByWord_eq operand,
    checkLockTimeByWord_eq operand⟩, fun operand accepted => ?_⟩
  · intro other same
    have sameType := same 22 (.inr rfl)
    have sameValue : other.toBitVec.setWidth 16 = operand.toBitVec.setWidth 16 := by
      apply BitVec.eq_of_getLsbD_eq
      intro position inside
      rw [BitVec.getLsbD_setWidth, BitVec.getLsbD_setWidth, same position (.inl inside)]
    rw [Bool.eq_iff_iff, checkSequence_eq_true_iff, checkSequence_eq_true_iff, sameType, sameValue]
  · obtain ⟨input, isInput, notFinal, sameSide, reached⟩ := checkLockTime_eq_true_iff.mp accepted
    refine ⟨fun other below sides => ?_, fun other sides => ?_, fun lockTime raised sides => ?_⟩
    · exact checkLockTime_eq_true_iff.mpr
        ⟨input, isInput, notFinal, sameSide.trans sides.symm, Int.le_trans below reached⟩
    · rw [← Bool.not_eq_true, checkLockTime_eq_true_iff]
      rintro ⟨-, -, -, otherSide, -⟩
      exact sides (otherSide.symm.trans sameSide)
    · have raised := UInt32.le_iff_toNat_le.mp raised
      refine checkLockTime_eq_true_iff.mpr ⟨input, isInput, notFinal, ?_, ?_⟩
      · dsimp only
        omega
      · dsimp only
        omega

def fiveUnits : SpendingInput where
  transaction := ⟨-1, [⟨⟨.zero 32, 0⟩, .empty, [], 0x00400005⟩], [], 7, false⟩
  shared := ⟨.zero 32, .zero 32, .zero 32⟩
  index := 0
  value := 0

/-- Bits above the type, the sign among them, and between type and value change nothing.  With the
height itself a negative one has been reached, and no time, and it is still reached when the lock
time is as late as a height can be. -/
theorem five_units_reach_negative_operands :
    fiveUnits.checkSequence (0x00400003 : Int64).toInt = true ∧
      fiveUnits.checkSequence (-0xffffaffffd : Int64).toInt = true ∧
      fiveUnits.checkLockTime 7 = true ∧ fiveUnits.checkLockTime (-7) = true ∧
      fiveUnits.checkLockTime 500000000 = false ∧
      { fiveUnits with
        transaction := { fiveUnits.transaction with lockTime := 499999999 } }.checkLockTime 7 =
          true := by
  obtain ⟨sequences, lockTimes⟩ := lock_times_compare_type_and_value fiveUnits
  obtain ⟨reached, others, -, -⟩ := sequences 0x00400003
  have plain : fiveUnits.checkSequence (0x00400003 : Int64).toInt = true :=
    reached.mpr ⟨_, rfl, by decide, rfl, rfl, by decide⟩
  have sameBits : ∀ position, position < 16 ∨ position = 22 →
      (-0xffffaffffd : Int64).toBitVec.getLsbD position =
        (0x00400003 : Int64).toBitVec.getLsbD position := by
    have low : ∀ position : Fin 16, (-0xffffaffffd : Int64).toBitVec.getLsbD position =
        (0x00400003 : Int64).toBitVec.getLsbD position := by
      decide
    rintro position (inside | rfl)
    · exact low ⟨position, inside⟩
    · rfl
  have height : fiveUnits.checkLockTime 7 = true := by decide
  obtain ⟨earlier, otherSide, raised⟩ := lockTimes 7 height
  exact ⟨plain, (others _ sameBits).trans plain, height, earlier _ (by decide) (by decide),
    otherSide _ (by decide), raised _ (by decide) (by decide)⟩

end SpendingInput

end CoinSpend
