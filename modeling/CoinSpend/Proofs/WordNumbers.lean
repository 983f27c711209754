import Mathlib.Tactic.Ring
import CoinSpend.Proofs.Checked
import CoinSpend.Proofs.NumberSizes

/-!
# Script numbers in words

A machine gathers the bytes of a number in a word of 64 bits, by shifts and bitwise
operations, and computes with such words.  Every result is checked to fit.  A shift that may
not lose bits has room for seven bytes, and one that may for eight; numbers of so many bytes are
read without a crash and with the value they stand for.
-/

namespace CoinSpend

/-! ## Checked words -/

namespace Word

/-- The word of a number, if it fits. -/
def fit (value : Int) : Checked Int64 :=
  if -2 ^ 63 ≤ value ∧ value < 2 ^ 63 then pure (Int64.ofInt value) else .crashed .overflow

def add (left right : Int64) : Checked Int64 :=
  fit (left.toInt + right.toInt)

def sub (left right : Int64) : Checked Int64 :=
  fit (left.toInt - right.toInt)

def neg (word : Int64) : Checked Int64 :=
  fit (-word.toInt)

def abs (word : Int64) : Checked Int64 :=
  fit word.toInt.natAbs

/-- Shift to the left, without losing bits. -/
def exactShift (word : Int64) (count : Nat) : Checked Int64 :=
  if count < 64 then fit (word.toInt * 2 ^ count) else .crashed .overflow

/-- Shift to the left; the bits that leave the word are lost. -/
def losingShift (word : Int64) (count : Nat) : Checked Int64 :=
  if count < 64 then pure (.ofBitVec (word.toBitVec <<< count)) else .crashed .overflow

theorem fit_of_natAbs_lt {value : Int} (small : value.natAbs < 2 ^ 63) :
    fit value = pure (Int64.ofInt value) :=
  if_pos (by omega)

theorem toInt_ofInt {value : Int} (small : value.natAbs < 2 ^ 63) :
    (Int64.ofInt value).toInt = value :=
  Int64.toInt_ofInt_of_le (by omega) (by omega)

section Small

variable {a b : Int} (smallA : a.natAbs < 2 ^ 63) (smallB : b.natAbs < 2 ^ 63)

include smallA smallB in
theorem ofInt_inj : Int64.ofInt a = Int64.ofInt b ↔ a = b := by
  rw [← Int64.toInt_inj, toInt_ofInt smallA, toInt_ofInt smallB]

include smallA smallB in
theorem ofInt_lt : Int64.ofInt a < Int64.ofInt b ↔ a < b := by
  rw [Int64.lt_iff_toInt_lt, toInt_ofInt smallA, toInt_ofInt smallB]

include smallA smallB in
theorem ofInt_le : Int64.ofInt a ≤ Int64.ofInt b ↔ a ≤ b := by
  rw [Int64.le_iff_toInt_le, toInt_ofInt smallA, toInt_ofInt smallB]

include smallA in
theorem eq_zero_iff : Int64.ofInt a = 0 ↔ a = 0 := by
  rw [← Int64.toInt_inj, toInt_ofInt smallA, Int64.toInt_zero]

include smallA in
theorem lt_zero_iff : Int64.ofInt a < 0 ↔ a < 0 := by
  rw [Int64.lt_iff_toInt_lt, toInt_ofInt smallA, Int64.toInt_zero]

end Small

theorem natAbs_lt_of_number {requireMinimal : Bool} {maxLength : Nat} (few : maxLength ≤ 7)
    {element : Bytes} {number : Int}
    (read : Stack.number requireMinimal maxLength element = .ok number) :
    number.natAbs < 2 ^ 63 := by
  obtain ⟨rfl, short⟩ := Stack.of_number_eq_ok read
  have fits : element.length ≤ 6 + 1 := Nat.le_trans short few
  have bound := ScriptNumber.natAbs_value_lt_of_length_le fits
  exact Nat.lt_trans bound (Nat.pow_lt_pow_right (by decide) (by decide))

theorem natAbs_lt_of_operand {requireMinimal : Bool} {element : Bytes} {number : Int}
    (read : Stack.operand requireMinimal element = .ok number) : number.natAbs < 2 ^ 63 :=
  natAbs_lt_of_number (by decide) read

theorem exactShift_ofNat {value count : Nat} (small : value * 2 ^ count < 2 ^ 63)
    (few : count < 64) :
    exactShift (Int64.ofNat value) count = pure (Int64.ofNat (value * 2 ^ count)) := by
  have below : value < 2 ^ 63 :=
    Nat.lt_of_le_of_lt (Nat.le_mul_of_pos_right value (Nat.two_pow_pos count)) small
  have asInt : (value : Int) * 2 ^ count = ((value * 2 ^ count : Nat) : Int) := by
    rw [Int.natCast_mul, Int.natCast_pow]
    rfl
  rw [exactShift, if_pos few, Int64.toInt_ofNat_of_lt below, asInt,
    fit_of_natAbs_lt (by rw [Int.natAbs_natCast]; exact small)]
  rfl

theorem losingShift_ofNat {count : Nat} (few : count < 64) (value : Nat) :
    losingShift (Int64.ofNat value) count = pure (Int64.ofNat (value * 2 ^ count)) := by
  have shifted : BitVec.ofNat 64 value <<< count = BitVec.ofNat 64 (value * 2 ^ count) := by
    apply BitVec.eq_of_toNat_eq
    rw [BitVec.toNat_shiftLeft, BitVec.toNat_ofNat, BitVec.toNat_ofNat, Nat.shiftLeft_eq,
      Nat.mod_mul_mod]
  rw [losingShift, if_pos few]
  exact congrArg (fun bits => pure (Int64.ofBitVec bits)) shifted

/-- A shift puts a byte into any of the first `places` places of a word. -/
structure PlacesBytes (shift : Int64 → Nat → Checked Int64) (places : Nat) : Prop where
  within : places ≤ 8
  puts : ∀ (byte : UInt8) {index : Nat}, index < places →
    shift (Int64.ofNat byte.toNat) (8 * index) =
      pure (Int64.ofNat (byte.toNat * 2 ^ (8 * index)))

theorem exactShift_placesBytes : PlacesBytes exactShift 7 where
  within := by decide
  puts := by
    intro byte index inside
    refine exactShift_ofNat ?_ (by omega)
    calc byte.toNat * 2 ^ (8 * index)
        < 2 ^ 8 * 2 ^ (8 * index) :=
          Nat.mul_lt_mul_of_pos_right byte.toNat_lt (Nat.two_pow_pos _)
      _ = 2 ^ (8 + 8 * index) := (Nat.pow_add _ _ _).symm
      _ ≤ 2 ^ 63 := Nat.pow_le_pow_right (by decide) (by omega)

theorem losingShift_placesBytes : PlacesBytes losingShift 8 where
  within := Nat.le_refl 8
  puts := fun byte _ inside => losingShift_ofNat (by omega) byte.toNat

theorem ofNat_or (left right : Nat) :
    Int64.ofNat left ||| Int64.ofNat right = Int64.ofNat (left ||| right) := by
  apply Int64.toBitVec_inj.mp
  rw [Int64.toBitVec_or]
  exact BitVec.ofNat_or.symm

/-- A bit that is set above the others is cleared by its complement. -/
theorem ofNat_and_not {position low : Nat} (below : low < 2 ^ position) :
    Int64.ofNat (2 ^ position + low) &&& ~~~Int64.ofNat (2 ^ position) = Int64.ofNat low := by
  have joined : 2 ^ position + low = 2 ^ position ||| low := by
    simpa only [Nat.mul_one] using Nat.two_pow_add_eq_or_of_lt below 1
  apply Int64.toBitVec_inj.mp
  rw [joined, Int64.toBitVec_and, Int64.toBitVec_not]
  change BitVec.ofNat 64 _ &&& ~~~BitVec.ofNat 64 _ = BitVec.ofNat 64 low
  apply BitVec.eq_of_getLsbD_eq
  intro index inside
  rw [BitVec.getLsbD_and, BitVec.getLsbD_not, BitVec.getLsbD_ofNat, BitVec.getLsbD_ofNat,
    BitVec.getLsbD_ofNat, Nat.testBit_or, Nat.testBit_two_pow]
  by_cases same : position = index
  · subst same
    rw [Nat.testBit_lt_two_pow below]
    simp
  · simp [same, inside]

end Word

namespace ScriptNumber

open Checked

/-! ## Reading by positions -/

/-- Whether no byte of a number could be left out, by the positions of its bytes. -/
def isMinimalByPosition (bytes : Bytes) : Checked Bool :=
  match bytes.getLast? with
  | none => pure true
  | some last =>
      if last &&& 0x7f = 0 then
        if 1 < bytes.length then do
          let position ← sub bytes.length 2
          let before ← getAt bytes position
          return before &&& 0x80 != 0
        else
          return false
      else
        return true

/-- Put bytes into a word, each above those before it. -/
def gather (shift : Int64 → Nat → Checked Int64) : Nat → Int64 → Bytes → Checked Int64
  | _, word, [] => pure word
  | index, word, byte :: rest => do
      let shifted ← shift (Int64.ofNat byte.toNat) (8 * index)
      gather shift (index + 1) (word ||| shifted) rest

/-- Gather the bytes of a number, and take the sign off the last one. -/
def wordOf (shift : Int64 → Nat → Checked Int64) (bytes : Bytes) : Checked Int64 :=
  if bytes.isEmpty then
    return 0
  else do
    let word ← gather shift 0 0 bytes
    let position ← sub bytes.length 1
    let last ← getAt bytes position
    if last &&& 0x80 ≠ 0 then
      let sign ← shift 0x80 (8 * position)
      Word.neg (word &&& ~~~sign)
    else
      return word

/-- Read a number of at most `maxLength` bytes into a word, without losing bits. -/
def readWord (requireMinimal : Bool) (maxLength : Nat) (bytes : Bytes) : Checked Int64 := do
  lift (Outcome.require (bytes.length ≤ maxLength) .unknown)
  let minimal ← (if requireMinimal then isMinimalByPosition bytes else pure true)
  lift (Outcome.require minimal .unknown)
  wordOf Word.exactShift bytes

/-! ## What is read -/

theorem toNat_reverse_cons (last : UInt8) (front : Bytes) :
    Bytes.toNat (last :: front).reverse =
      Bytes.toNat front.reverse + 256 ^ front.length * last.toNat := by
  rw [List.reverse_cons, ← List.length_reverse]
  induction front.reverse with
  | nil => simp [Bytes.toNat]
  | cons byte rest ih =>
      rw [List.cons_append, Bytes.toNat, ih, Bytes.toNat, List.length_cons, Nat.pow_succ]
      ring

theorem isMinimalByPosition_eq (bytes : Bytes) :
    isMinimalByPosition bytes = pure (isMinimal bytes) := by
  obtain ⟨backwards, rfl⟩ : ∃ backwards : Bytes, bytes = backwards.reverse :=
    ⟨bytes.reverse, bytes.reverse_reverse.symm⟩
  rw [isMinimalByPosition, isMinimal, List.getLast?_reverse, List.reverse_reverse,
    List.length_reverse]
  match backwards with
  | [] => rfl
  | [last] =>
      by_cases bare : last &&& 0x7f = 0
      · simp only [List.head?_cons, bare]
        rfl
      · simp only [List.head?_cons, if_neg bare, bne_iff_ne.mpr bare]
  | last :: before :: rest =>
      have position : sub (last :: before :: rest).length 2 = pure rest.length :=
        sub_of_le (Nat.le_add_left 2 rest.length)
      have found : getAt (last :: before :: rest).reverse rest.length = pure before :=
        getAt_reverse rfl rfl
      have several : 1 < (last :: before :: rest).length := Nat.le_add_left 2 rest.length
      by_cases bare : last &&& 0x7f = 0
      · simp only [List.head?_cons, if_pos several, position, Checked.pure_bind, found, bare]
        rfl
      · simp only [List.head?_cons, if_neg bare, bne_iff_ne.mpr bare, Bool.true_or]

theorem and_sign_ne_zero_iff (byte : UInt8) : byte &&& 0x80 ≠ 0 ↔ 128 ≤ byte.toNat := by
  have small : byte.toNat < 256 := byte.toNat_lt
  apply Bytes.of_table small
  decide +kernel

theorem and_sign_iff_signBit_le (last : UInt8) (front : Bytes) :
    last &&& 0x80 ≠ 0 ↔
      signBit (front.length + 1) ≤ Bytes.toNat (last :: front).reverse := by
  have lower := Bytes.toNat_lt front.reverse
  rw [List.length_reverse] at lower
  rw [and_sign_ne_zero_iff, signBit_succ, Nat.pow_add, Nat.pow_mul, toNat_reverse_cons]
  constructor
  · intro signed
    have most := Nat.mul_le_mul_left (256 ^ front.length) signed
    exact Nat.le_trans most (Nat.le_add_left _ _)
  · intro above
    by_contra unsigned
    have small : last.toNat ≤ 127 := Nat.le_of_lt_succ (Nat.not_le.mp unsigned)
    have most := Nat.mul_le_mul_left (256 ^ front.length) small
    change 256 ^ front.length * 128 ≤ _ at above
    omega

section Gathering

variable {shift : Int64 → Nat → Checked Int64} {places : Nat}
  (shifts : Word.PlacesBytes shift places)

include shifts in
theorem gather_eq {bytes : Bytes} {index low : Nat} (below : low < 256 ^ index)
    (few : index + bytes.length ≤ places) :
    gather shift index (Int64.ofNat low) bytes =
      pure (Int64.ofNat (low + 256 ^ index * Bytes.toNat bytes)) := by
  induction bytes generalizing index low with
  | nil => rw [gather, Bytes.toNat, Nat.mul_zero, Nat.add_zero]
  | cons byte rest ih =>
      rw [List.length_cons] at few
      have small := byte.toNat_lt
      have joined : low ||| byte.toNat * 2 ^ (8 * index) = low + 256 ^ index * byte.toNat := by
        rw [show 256 ^ index = 2 ^ (8 * index) by rw [Nat.pow_mul]] at below ⊢
        rw [Nat.mul_comm, Nat.or_comm, ← Nat.two_pow_add_eq_or_of_lt below, Nat.add_comm]
      have next : low + 256 ^ index * byte.toNat < 256 ^ (index + 1) := by
        have most := Nat.mul_le_mul_left (256 ^ index) (Nat.le_of_lt_succ small)
        rw [Nat.pow_succ]
        omega
      rw [gather, shifts.puts byte (by omega), Checked.pure_bind, Word.ofNat_or, joined,
        ih next (by omega), Bytes.toNat, Nat.pow_succ]
      congr 2
      ring

include shifts in
theorem gather_zero {bytes : Bytes} (few : bytes.length ≤ places) :
    gather shift 0 0 bytes = pure (Int64.ofNat (Bytes.toNat bytes)) := by
  have none : 0 < 256 ^ 0 := Nat.one_pos
  have gathered := gather_eq shifts none (Nat.le_trans (Nat.le_of_eq (Nat.zero_add _)) few)
  rwa [Nat.zero_add, Nat.pow_zero, Nat.one_mul] at gathered

include shifts in
theorem neg_clear {index low : Nat} (below : low < 2 ^ (8 * index + 7)) (inside : index < places) :
    (do
      let sign ← shift 0x80 (8 * index)
      Word.neg (Int64.ofNat (2 ^ (8 * index + 7) + low) &&& ~~~sign)) =
      pure (Int64.ofInt (-(low : Int))) := by
  have within := shifts.within
  have shifted : shift 0x80 (8 * index) = pure (Int64.ofNat (2 ^ (8 * index + 7))) := by
    rw [Nat.pow_add, Nat.mul_comm (2 ^ (8 * index))]
    exact shifts.puts 0x80 inside
  have room : 2 ^ (8 * index + 7) ≤ 2 ^ 63 := Nat.pow_le_pow_right (by decide) (by omega)
  have small : low < 2 ^ 63 := Nat.lt_of_lt_of_le below room
  rw [shifted, Checked.pure_bind, Word.ofNat_and_not below, Word.neg,
    Int64.toInt_ofNat_of_lt small, Word.fit_of_natAbs_lt (by omega)]

include shifts in
/-- A word holds the number of every string that has no more bytes than places. -/
theorem wordOf_eq {bytes : Bytes} (few : bytes.length ≤ places) :
    wordOf shift bytes = pure (Int64.ofInt (value bytes)) := by
  obtain ⟨backwards, rfl⟩ : ∃ backwards : Bytes, bytes = backwards.reverse :=
    ⟨bytes.reverse, bytes.reverse_reverse.symm⟩
  match backwards with
  | [] => rfl
  | last :: front =>
      have nonempty : (last :: front).reverse ≠ [] := by simp
      have length : (last :: front).reverse.length = front.length + 1 := List.length_reverse
      have position : sub (last :: front).reverse.length 1 = pure front.length := by
        rw [length]
        exact sub_of_le (Nat.le_add_left 1 _)
      have found : getAt (last :: front).reverse front.length = pure last := getAt_reverse rfl rfl
      have upper := Bytes.toNat_lt (last :: front).reverse
      rw [pow_length_eq nonempty, length] at upper
      rw [wordOf, if_neg (mt List.isEmpty_iff.mp nonempty), gather_zero shifts few,
        Checked.pure_bind, position, Checked.pure_bind, found, Checked.pure_bind, value, length]
      have agree := and_sign_iff_signBit_le last front
      generalize Bytes.toNat (last :: front).reverse = total at *
      by_cases signed : last &&& 0x80 ≠ 0
      · have above := agree.mp signed
        obtain ⟨low, rfl⟩ := Nat.exists_eq_add_of_le above
        rw [if_pos signed, if_pos ⟨nonempty, above⟩, Nat.add_sub_cancel_left, signBit_succ]
        rw [signBit_succ] at upper
        exact neg_clear shifts (by omega) (by omega)
      · rw [if_neg signed, if_neg fun both => signed (agree.mpr both.2)]
        rfl

end Gathering

/-- Reading a word never crashes, and gives the number that the bytes stand for. -/
theorem readWord_agrees (requireMinimal : Bool) {maxLength : Nat} (few : maxLength ≤ 7)
    (bytes : Bytes) :
    Agrees Int64.ofInt (readWord requireMinimal maxLength bytes)
      (Outcome.ofExcept (Stack.number requireMinimal maxLength bytes)) := by
  unfold readWord Stack.number decode?
  by_cases short : bytes.length ≤ maxLength
  · have word := wordOf_eq Word.exactShift_placesBytes (Nat.le_trans short few)
    have read : (if requireMinimal then isMinimalByPosition bytes else pure true) =
        (pure (!requireMinimal || isMinimal bytes) : Checked Bool) := by
      cases requireMinimal with
      | true => exact isMinimalByPosition_eq bytes
      | false => rfl
    rw [require_bind_of_met (decide_eq_true short), if_neg (Nat.not_lt.mpr short), read,
      Checked.pure_bind, word]
    cases requireMinimal <;> cases isMinimal bytes <;> rfl
  · rw [require_bind_of_not (decide_eq_false short), if_pos (Nat.not_le.mp short)]
    exact .fail _ _

end ScriptNumber

end CoinSpend
