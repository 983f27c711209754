import CoinSpend.Proofs.Reading

/-!
# Where a read fails

A read fails at one of its steps, and the reader stays where that step found it.  Nothing is taken
of a field that is too short.  A count that is cut off loses its marker, and a count, an amount or
a length that is refused has been taken as a whole.
-/

namespace CoinSpend.Wire

namespace Reader

theorem advance_advance (reader : Reader) (first second : Nat) :
    (reader.advance first).advance second = reader.advance (first + second) := by
  rw [advance, advance, advance, List.drop_drop, Nat.add_assoc]

/-- Bytes are taken by moving past them where they stand. -/
theorem takes_iff_advance {before after : Reader} {bytes : Bytes} :
    before.Takes bytes after ↔ bytes <+: before.rest ∧ after = before.advance bytes.length := by
  constructor
  · rintro ⟨restEq, positionEq⟩
    refine ⟨⟨after.rest, restEq.symm⟩, ?_⟩
    rw [advance, restEq, List.drop_left, ← positionEq]
  · rintro ⟨⟨rest, restEq⟩, rfl⟩
    refine ⟨?_, rfl⟩
    rw [advance, ← restEq, List.drop_left]

theorem takes_advance {reader : Reader} {count : Nat} (enough : count ≤ reader.remaining) :
    reader.Takes (reader.rest.take count) (reader.advance count) := by
  have length : (reader.rest.take count).length = count := List.length_take_of_le enough
  refine takes_iff_advance.mpr ⟨⟨_, List.take_append_drop count reader.rest⟩, ?_⟩
  rw [length]

theorem Takes.remaining {before after : Reader} {bytes : Bytes} (taken : before.Takes bytes after) :
    before.remaining = bytes.length + after.remaining := by
  rw [Reader.remaining, taken.rest_eq, List.length_append, Reader.remaining]

/-- After taking bytes from the front of a buffer a reader stands within it. -/
theorem Takes.within {buffer taken : Bytes} {after : Reader}
    (takes : (ofBytes buffer).Takes taken after) :
    after.position ≤ buffer.length ∧ after.rest = buffer.drop after.position := by
  obtain ⟨⟨rest, restEq⟩, rfl⟩ := takes_iff_advance.mp takes
  change taken ++ rest = buffer at restEq
  change 0 + taken.length ≤ buffer.length ∧
    buffer.drop taken.length = buffer.drop (0 + taken.length)
  rw [Nat.zero_add, ← restEq, List.length_append]
  exact ⟨Nat.le_add_right _ _, rfl⟩

end Reader

namespace Decoder

variable {α β : Type} {before after : Reader} {fault : DecodeFault}

/-! ## Where a sequence of reads fails -/

theorem runOn_bind_eq_error_iff {first : Decoder α} {next : α → Decoder β} :
    (first >>= next).runOn before = (.error fault, after) ↔
      first.runOn before = (.error fault, after) ∨
        ∃ item middle, first.runOn before = (.ok item, middle) ∧
          (next item).runOn middle = (.error fault, after) := by
  rw [runOn_bind]
  cases reached : first.runOn before with
  | mk result middle =>
      cases result with
      | error other =>
          constructor
          · intro failed; cases failed; exact .inl rfl
          · rintro (failed | ⟨item, middle, impossible, -⟩)
            · cases failed; rfl
            · cases impossible
      | ok item =>
          constructor
          · intro failed; exact .inr ⟨item, middle, rfl, failed⟩
          · rintro (impossible | ⟨same, other, found, failed⟩)
            · cases impossible
            · cases found; exact failed

theorem runOn_pure_ne_error (value : α) :
    (pure value : Decoder α).runOn before ≠ (.error fault, after) := by
  intro impossible
  cases impossible

/-- A read that ends with a refusal fails where something is refused, and does not move. -/
theorem runOn_refuse_pure_eq_error_iff {refused : Prop} [Decidable refused] {other : DecodeFault}
    {value : α} :
    (if refused then (throw other : Decoder Unit) >>= fun _ => pure value
      else pure value).runOn before = (.error fault, after) ↔
      refused ∧ fault = other ∧ after = before := by
  split
  · rename_i yes
    constructor
    · intro failed; cases failed; exact ⟨yes, rfl, rfl⟩
    · rintro ⟨-, rfl, rfl⟩; rfl
  · rename_i no
    exact ⟨fun failed => absurd failed (runOn_pure_ne_error value), fun all => absurd all.1 no⟩

/-- What is refused after it was read has been taken. -/
theorem Reads.bind_refusal_eq_error_iff {first : Decoder α} {valid : α → Prop} {form : α → Bytes}
    (reads : first.Reads valid form) {next : α → Decoder β} {refused : α → Reader → Prop}
    {reason : α → DecodeFault}
    (refuses : ∀ item middle fault after, (next item).runOn middle = (.error fault, after) ↔
      refused item middle ∧ fault = reason item ∧ after = middle) :
    (first >>= next).runOn before = (.error fault, after) ↔
      first.runOn before = (.error fault, after) ∨
        ∃ item, valid item ∧ refused item after ∧ fault = reason item ∧
          before.Takes (form item) after := by
  rw [runOn_bind_eq_error_iff]
  refine or_congr_right ⟨?_, ?_⟩
  · rintro ⟨item, middle, read, failed⟩
    obtain ⟨isRefused, rfl, rfl⟩ := (refuses _ _ _ _).mp failed
    obtain ⟨isValid, taken⟩ := (reads _ _ _).mp read
    exact ⟨item, isValid, isRefused, rfl, taken⟩
  · rintro ⟨item, isValid, isRefused, rfl, taken⟩
    exact ⟨item, after, (reads _ _ _).mpr ⟨isValid, taken⟩,
      (refuses _ _ _ _).mpr ⟨isRefused, rfl, rfl⟩⟩

/-! ## Fields of a fixed width -/

/-- A read fails exactly where fewer bytes than it takes are left, and then takes none. -/
def FailsShort (decoder : Decoder α) (size : Nat) : Prop :=
  ∀ (before : Reader) (fault : DecodeFault) (after : Reader),
    decoder.runOn before = (.error fault, after) ↔
      before.remaining < size ∧
        fault = .unexpectedEnd size before.position before.remaining ∧ after = before

theorem FailsShort.map {decoder : Decoder α} {size : Nat} (fails : decoder.FailsShort size)
    (decode : α → β) : FailsShort (decoder >>= fun item => pure (decode item)) size := by
  intro before fault after
  rw [runOn_bind_eq_error_iff, fails before fault after]
  constructor
  · rintro (short | ⟨item, middle, -, impossible⟩)
    · exact short
    · exact absurd impossible (runOn_pure_ne_error _)
  · exact .inl

theorem fixed_failsShort (size : Nat) : (fixed size).FailsShort size := by
  intro before fault after
  rcases Nat.lt_or_ge before.rest.length size with short | enough
  · rw [runOn_fixed_of_lt short]
    constructor
    · intro failed; cases failed; exact ⟨short, rfl, rfl⟩
    · rintro ⟨-, rfl, rfl⟩; rfl
  · rw [runOn_fixed_of_le enough]
    constructor
    · intro impossible; cases impossible
    · rintro ⟨short, -, -⟩; exact absurd short (Nat.not_lt_of_le enough)

theorem bytes_failsShort (count : Nat) : (bytes count).FailsShort count :=
  (fixed_failsShort count).map Digest.bytes

theorem unsigned_failsShort (width : Nat) : (unsigned width).FailsShort width :=
  (bytes_failsShort width).map Bytes.toNat

theorem uint8_failsShort : uint8.FailsShort 1 :=
  (unsigned_failsShort 1).map UInt8.ofNat

theorem uint32_failsShort : uint32.FailsShort 4 :=
  (unsigned_failsShort 4).map UInt32.ofNat

theorem int32_failsShort : int32.FailsShort 4 :=
  uint32_failsShort.map UInt32.toInt32

theorem int64_failsShort : int64.FailsShort 8 :=
  (unsigned_failsShort 8).map fun number => (UInt64.ofNat number).toInt64

/-- An amount that is refused has been taken. -/
theorem runOn_amount_eq_error_iff :
    amount.runOn before = (.error fault, after) ↔
      (before.remaining < 8 ∧
        fault = .unexpectedEnd 8 before.position before.remaining ∧ after = before) ∨
      ∃ value, ¬ isSafeAmount value ∧ fault = .unsafeAmount before.position ∧
        before.Takes (Wire.int64 value) after := by
  have refused_iff (value : Int64) :
      (Limits.maxSafeInteger < value.toInt ∨ value.toInt < -Limits.maxSafeInteger) ↔
        ¬ isSafeAmount value := by
    rw [isSafeAmount, not_and_or, Int.not_le, Int.not_le, or_comm]
  rw [amount, runOn_get_bind, int64_reads.bind_refusal_eq_error_iff
    fun _ _ _ _ => runOn_refuse_pure_eq_error_iff, int64_failsShort before fault after]
  simp only [refused_iff, true_and]

/-! ## Counts -/

/-- What stands in front of a count that takes more than one byte. -/
inductive Marker where
  | two
  | four
  | eight

namespace Marker

def byte : Marker → UInt8
  | two => 0xfd
  | four => 0xfe
  | eight => 0xff

def width : Marker → Nat
  | two => 2
  | four => 4
  | eight => 8

def least : Marker → Nat
  | two => 0xfd
  | four => 0x10000
  | eight => 0x100000000

theorem least_le (marker : Marker) : marker.least ≤ 256 ^ marker.width := by
  cases marker <;> decide

end Marker

/-- Why a count cannot be read, and how many of its bytes are taken all the same. -/
inductive CountFails (before : Reader) : DecodeFault → Nat → Prop where
  | empty (ended : before.rest = []) : CountFails before (.unexpectedEnd 1 before.position 0) 0
  | cutOff {marker : Marker} {payload : Bytes} (begins : before.rest = marker.byte :: payload)
      (short : payload.length < marker.width) :
      CountFails before (.unexpectedEnd marker.width (before.position + 1) payload.length) 1
  | notShortest {marker : Marker} {number : Nat} (small : number < marker.least)
      (stands : marker.byte :: Bytes.littleEndian marker.width number <+: before.rest) :
      CountFails before (.longCount before.position) (1 + marker.width)

theorem CountFails.moved_le {moved : Nat} (fails : CountFails before fault moved) :
    moved ≤ before.remaining := by
  cases fails with
  | empty ended => exact Nat.zero_le _
  | cutOff begins short =>
      rw [Reader.remaining, begins, List.length_cons]
      exact Nat.le_add_left _ _
  | notShortest small stands =>
      have fits := stands.length_le
      rw [List.length_cons, Bytes.length_littleEndian, Nat.add_comm] at fits
      exact fits

theorem runOn_markedCount_eq_error_iff {start width least : Nat} :
    (markedCount start width least).runOn before = (.error fault, after) ↔
      (before.remaining < width ∧
        fault = .unexpectedEnd width before.position before.remaining ∧ after = before) ∨
      ∃ number, number < 256 ^ width ∧ number < least ∧ fault = .longCount start ∧
        before.Takes (Bytes.littleEndian width number) after := by
  rw [markedCount, (unsigned_reads width).bind_refusal_eq_error_iff
    fun _ _ _ _ => runOn_refuse_pure_eq_error_iff, unsigned_failsShort width before fault after]

section FirstByte

variable {first : UInt8} {payload : Bytes} (begins : before.rest = first :: payload)

include begins

theorem takes_first : before.Takes [first] (before.advance 1) :=
  Reader.takes_iff_advance.mpr ⟨⟨payload, begins.symm⟩, rfl⟩

theorem rest_advance_one : (before.advance 1).rest = payload := by
  rw [Reader.advance, begins]
  rfl

theorem runOn_uint8_of_cons : uint8.runOn before = (.ok first, before.advance 1) :=
  (uint8_reads _ _ _).mpr ⟨trivial, takes_first begins⟩

theorem runOn_count_of_not_marker (notMarker : ∀ marker : Marker, first ≠ marker.byte) :
    count.runOn before = (.ok first.toNat, before.advance 1) := by
  rw [count, runOn_get_bind, runOn_bind, runOn_uint8_of_cons begins]
  have notTwo : first ≠ 0xfd := notMarker .two
  have notFour : first ≠ 0xfe := notMarker .four
  have notEight : first ≠ 0xff := notMarker .eight
  dsimp only
  rw [if_neg notTwo, if_neg notFour, if_neg notEight]
  rfl

end FirstByte

theorem runOn_count_of_marker {marker : Marker} {payload : Bytes}
    (begins : before.rest = marker.byte :: payload) :
    count.runOn before =
      (markedCount before.position marker.width marker.least).runOn (before.advance 1) := by
  rw [count, runOn_get_bind, runOn_bind, runOn_uint8_of_cons begins]
  cases marker with
  | two => rfl
  | four => rfl
  | eight => rfl

theorem runOn_count_of_nil (ended : before.rest = []) :
    count.runOn before = (.error (.unexpectedEnd 1 before.position 0), before) := by
  have nothing : before.remaining = 0 := congrArg List.length ended
  have short := (uint8_failsShort before (.unexpectedEnd 1 before.position 0) before).mpr
    ⟨by omega, by rw [nothing], rfl⟩
  rw [count, runOn_get_bind]
  exact runOn_bind_eq_error_iff.mpr (.inl short)

/-- A count fails before its first byte, behind it, or behind all of it. -/
theorem runOn_count_eq_error_iff :
    count.runOn before = (.error fault, after) ↔
      ∃ moved, CountFails before fault moved ∧ after = before.advance moved := by
  constructor
  · intro failed
    cases begins : before.rest with
    | nil =>
        rw [runOn_count_of_nil begins] at failed
        cases failed
        exact ⟨0, .empty begins, rfl⟩
    | cons first payload =>
        by_cases marked : ∃ marker : Marker, first = marker.byte
        · obtain ⟨marker, rfl⟩ := marked
          rw [runOn_count_of_marker begins] at failed
          rcases runOn_markedCount_eq_error_iff.mp failed with
            ⟨short, rfl, rfl⟩ | ⟨number, -, small, rfl, taken⟩
          · rw [Reader.remaining, rest_advance_one begins] at short ⊢
            exact ⟨1, .cutOff begins short, rfl⟩
          · have whole := Reader.takes_cons_iff.mpr ⟨_, takes_first begins, taken⟩
            obtain ⟨stands, rfl⟩ := Reader.takes_iff_advance.mp whole
            refine ⟨_, .notShortest small stands, ?_⟩
            rw [List.length_cons, Bytes.length_littleEndian, Nat.add_comm]
        · rw [runOn_count_of_not_marker begins (not_exists.mp marked)] at failed
          cases failed
  · rintro ⟨moved, fails, rfl⟩
    cases fails with
    | empty ended => exact runOn_count_of_nil ended
    | @cutOff marker payload begins short =>
        rw [runOn_count_of_marker begins]
        refine runOn_markedCount_eq_error_iff.mpr (.inl ⟨?_, ?_, rfl⟩)
        · rwa [Reader.remaining, rest_advance_one begins]
        · rw [Reader.remaining, rest_advance_one begins]
          rfl
    | @notShortest marker number small stands =>
        obtain ⟨later, begins⟩ := stands
        rw [List.cons_append] at begins
        rw [runOn_count_of_marker begins.symm]
        refine runOn_markedCount_eq_error_iff.mpr
          (.inr ⟨number, Nat.lt_of_lt_of_le small marker.least_le, small, rfl, ?_⟩)
        rw [Reader.takes_iff_advance, rest_advance_one begins.symm, Bytes.length_littleEndian]
        exact ⟨⟨later, rfl⟩, (Reader.advance_advance _ _ _).symm⟩

/-! ## Lengths -/

/-- A length that is refused has been taken, and nothing behind it. -/
theorem runOn_length_eq_error_iff :
    length.runOn before = (.error fault, after) ↔
      count.runOn before = (.error fault, after) ∨
      ∃ number, number < 256 ^ 8 ∧
        (Limits.maxVectorSize < number ∨ after.remaining < number) ∧
        fault = .lengthTooLarge number ∧ before.Takes (compactSize number) after := by
  rw [length, count_reads.bind_refusal_eq_error_iff
    fun _ _ _ _ => by rw [runOn_get_bind]; exact runOn_refuse_pure_eq_error_iff]
  simp only [Bytes.hasAtLeast_eq_true_iff, Nat.not_le, Reader.remaining]

/-- After its length a byte string is always there. -/
theorem runOn_lengthPrefixed_of_length {middle : Reader} {number : Nat}
    (read : length.runOn before = (.ok number, middle)) :
    lengthPrefixed.runOn before = (.ok (middle.rest.take number), middle.advance number) := by
  obtain ⟨-, present, -⟩ := runOn_length_eq_ok_iff.mp read
  rw [lengthPrefixed, runOn_bind_eq_ok_iff]
  exact ⟨number, middle, read, (bytes_reads number _ _ _).mpr
    ⟨List.length_take_of_le present, Reader.takes_advance present⟩⟩

theorem runOn_lengthPrefixed_eq_error_iff :
    lengthPrefixed.runOn before = (.error fault, after) ↔
      length.runOn before = (.error fault, after) := by
  constructor
  · intro failed
    rcases runOn_bind_eq_error_iff.mp failed with refused | ⟨number, middle, read, -⟩
    · exact refused
    · rw [runOn_lengthPrefixed_of_length read] at failed
      cases failed
  · intro refused
    exact runOn_bind_eq_error_iff.mpr (.inl refused)

end Decoder

end CoinSpend.Wire
