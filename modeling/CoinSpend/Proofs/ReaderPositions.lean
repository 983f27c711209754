import CoinSpend.Proofs.ReadFailures

/-!
# Where a reader stands

Whether a call succeeds or fails, the reader has moved past a part of its buffer, and the next
call goes on from there.  After a success that part is the form of the value; after a failure it
is what the reason of the failure says.
-/

namespace CoinSpend.Wire

/-- What can be asked of a reader. -/
inductive Call where
  | peek (offset : Nat)
  | bytes (size : Nat)
  | unsigned (width : Nat)
  | uint8
  | uint32
  | int32
  | hash256
  | amount
  | count
  | length
  | lengthPrefixed

namespace Call

abbrev Value : Call → Type
  | peek _ => Option UInt8
  | bytes _ => Bytes
  | unsigned _ => Nat
  | uint8 => UInt8
  | uint32 => UInt32
  | int32 => Int32
  | hash256 => Hash256
  | amount => Int64
  | count => Nat
  | length => Nat
  | lengthPrefixed => Bytes

def decoder : (call : Call) → Decoder call.Value
  | peek offset => do return (← get).peek? offset
  | bytes size => Decoder.bytes size
  | unsigned width => Decoder.unsigned width
  | uint8 => Decoder.uint8
  | uint32 => Decoder.uint32
  | int32 => Decoder.int32
  | hash256 => Decoder.hash256
  | amount => Decoder.amount
  | count => Decoder.count
  | length => Decoder.length
  | lengthPrefixed => Decoder.lengthPrefixed

/-- The bytes that are written for what a call gives.  Nothing is written for a byte that was
only looked at. -/
def form : (call : Call) → call.Value → Bytes
  | peek _ => fun _ => []
  | bytes _ => id
  | unsigned width => Bytes.littleEndian width
  | uint8 => fun byte => [byte]
  | uint32 => Wire.uint32
  | int32 => Wire.int32
  | hash256 => Digest.bytes
  | amount => Wire.int64
  | count => compactSize
  | length => compactSize
  | lengthPrefixed => Wire.lengthPrefixed

/-- The bytes that a call takes whatever they are. -/
def size? : Call → Option Nat
  | bytes size => some size
  | unsigned width => some width
  | uint8 => some 1
  | uint32 => some 4
  | int32 => some 4
  | hash256 => some 32
  | amount => some 8
  | peek _ | count | length | lengthPrefixed => none

/-- Why a call fails, and how many bytes it has taken all the same. -/
inductive Fails (before : Reader) : Call → DecodeFault → Nat → Prop where
  | short {call : Call} {size : Nat} (sized : call.size? = some size)
      (short : before.remaining < size) :
      Fails before call (.unexpectedEnd size before.position before.remaining) 0
  | notSafe {value : Int64} (notSafe : ¬ Decoder.isSafeAmount value)
      (stands : Wire.int64 value <+: before.rest) :
      Fails before .amount (.unsafeAmount before.position) 8
  | badCount {call : Call} {fault : DecodeFault} {moved : Nat}
      (counts : call ∈ [count, length, lengthPrefixed])
      (fails : Decoder.CountFails before fault moved) : Fails before call fault moved
  | tooLong {call : Call} {number : Nat} (bounds : call ∈ [length, lengthPrefixed])
      (small : number < 256 ^ 8) (stands : compactSize number <+: before.rest)
      (exceeds : Limits.maxVectorSize < number ∨ before.remaining < lengthPrefixedSize number) :
      Fails before call (.lengthTooLarge number) (compactSizeLength number)

def after (call : Call) (reader : Reader) : Reader :=
  (call.decoder.runOn reader).2

def afterAll (calls : List Call) (reader : Reader) : Reader :=
  calls.foldl (fun reader call => call.after reader) reader

variable {before after : Reader} {fault : DecodeFault}

theorem takes_form {call : Call} {value : call.Value}
    (read : call.decoder.runOn before = (.ok value, after)) :
    before.Takes (call.form value) after := by
  cases call with
  | peek offset =>
      cases read
      exact Reader.takes_nil_iff.mpr rfl
  | bytes size => exact ((Decoder.bytes_reads size _ _ _).mp read).2
  | unsigned width => exact ((Decoder.unsigned_reads width _ _ _).mp read).2
  | uint8 => exact ((Decoder.uint8_reads _ _ _).mp read).2
  | uint32 => exact ((Decoder.uint32_reads _ _ _).mp read).2
  | int32 => exact ((Decoder.int32_reads _ _ _).mp read).2
  | hash256 => exact ((Decoder.fixed_reads 32 _ _ _).mp read).2
  | amount => exact ((Decoder.amount_reads _ _ _).mp read).2
  | count => exact ((Decoder.count_reads _ _ _).mp read).2
  | length => exact (Decoder.runOn_length_eq_ok_iff.mp read).2.2
  | lengthPrefixed => exact ((Decoder.lengthPrefixed_reads _ _ _).mp read).2

/-! ## Where calls fail -/

theorem failsShort_of_size? {call : Call} {size : Nat} (sized : call.size? = some size)
    (notAmount : call ≠ .amount) : call.decoder.FailsShort size := by
  cases call with
  | peek | count | length | lengthPrefixed => cases sized
  | bytes size => cases sized; exact Decoder.bytes_failsShort _
  | unsigned width => cases sized; exact Decoder.unsigned_failsShort _
  | uint8 => cases sized; exact Decoder.uint8_failsShort
  | uint32 => cases sized; exact Decoder.uint32_failsShort
  | int32 => cases sized; exact Decoder.int32_failsShort
  | hash256 => cases sized; exact Decoder.fixed_failsShort 32
  | amount => exact absurd rfl notAmount

theorem error_iff_length_error {call : Call} (bounds : call ∈ [length, lengthPrefixed]) :
    call.decoder.runOn before = (.error fault, after) ↔
      Decoder.length.runOn before = (.error fault, after) := by
  rcases List.mem_cons.mp bounds with rfl | other
  · rfl
  · cases List.mem_singleton.mp other
    exact Decoder.runOn_lengthPrefixed_eq_error_iff

theorem exists_fails_of_count {call : Call} (counts : call ∈ [count, length, lengthPrefixed])
    (failed : Decoder.count.runOn before = (.error fault, after)) :
    ∃ moved, Fails before call fault moved ∧ after = before.advance moved := by
  obtain ⟨moved, fails, rfl⟩ := Decoder.runOn_count_eq_error_iff.mp failed
  exact ⟨moved, .badCount counts fails, rfl⟩

theorem exists_fails_of_length {call : Call} (bounds : call ∈ [length, lengthPrefixed])
    (failed : Decoder.length.runOn before = (.error fault, after)) :
    ∃ moved, Fails before call fault moved ∧ after = before.advance moved := by
  rcases Decoder.runOn_length_eq_error_iff.mp failed with
    counted | ⟨number, small, exceeds, rfl, taken⟩
  · exact exists_fails_of_count (List.mem_cons_of_mem _ bounds) counted
  · have remaining := taken.remaining
    obtain ⟨stands, moved⟩ := Reader.takes_iff_advance.mp taken
    rw [length_compactSize] at remaining moved
    refine ⟨_, .tooLong bounds small stands ?_, moved⟩
    rw [lengthPrefixedSize]
    omega

theorem exists_fails_of_error {call : Call}
    (failed : call.decoder.runOn before = (.error fault, after)) :
    ∃ moved, Fails before call fault moved ∧ after = before.advance moved := by
  by_cases isAmount : call = .amount
  · subst isAmount
    rcases Decoder.runOn_amount_eq_error_iff.mp failed with
      ⟨short, rfl, rfl⟩ | ⟨value, notSafe, rfl, taken⟩
    · exact ⟨0, .short rfl short, rfl⟩
    · obtain ⟨stands, moved⟩ := Reader.takes_iff_advance.mp taken
      exact ⟨8, .notSafe notSafe stands, moved⟩
  · cases sized : call.size? with
    | some size =>
        obtain ⟨short, rfl, rfl⟩ := (failsShort_of_size? sized isAmount _ _ _).mp failed
        exact ⟨0, .short sized short, rfl⟩
    | none =>
        cases call with
        | bytes | unsigned | uint8 | uint32 | int32 | hash256 | amount => cases sized
        | peek offset => cases failed
        | count => exact exists_fails_of_count (List.mem_cons_self ..) failed
        | length => exact exists_fails_of_length (List.mem_cons_self ..) failed
        | lengthPrefixed =>
            have bounds : lengthPrefixed ∈ [length, lengthPrefixed] :=
              List.mem_cons_of_mem _ (List.mem_singleton_self _)
            exact exists_fails_of_length bounds ((error_iff_length_error bounds).mp failed)

theorem error_of_fails {call : Call} {moved : Nat} (fails : Fails before call fault moved) :
    call.decoder.runOn before = (.error fault, before.advance moved) := by
  cases fails with
  | @short call size sized short =>
      by_cases isAmount : call = .amount
      · subst isAmount
        cases sized
        exact Decoder.runOn_amount_eq_error_iff.mpr (.inl ⟨short, rfl, rfl⟩)
      · exact (failsShort_of_size? sized isAmount _ _ _).mpr ⟨short, rfl, rfl⟩
  | notSafe notSafe stands =>
      exact Decoder.runOn_amount_eq_error_iff.mpr
        (.inr ⟨_, notSafe, rfl, Reader.takes_iff_advance.mpr ⟨stands, rfl⟩⟩)
  | badCount counts fails =>
      have failed := Decoder.runOn_count_eq_error_iff.mpr ⟨moved, fails, rfl⟩
      rcases List.mem_cons.mp counts with rfl | bounds
      · exact failed
      · exact (error_iff_length_error bounds).mpr
          (Decoder.runOn_length_eq_error_iff.mpr (.inl failed))
  | @tooLong call number bounds small stands exceeds =>
      have taken := Reader.takes_iff_advance.mpr ⟨stands, rfl⟩
      have remaining := taken.remaining
      rw [length_compactSize] at taken remaining
      rw [lengthPrefixedSize] at exceeds
      exact (error_iff_length_error bounds).mpr (Decoder.runOn_length_eq_error_iff.mpr
        (.inr ⟨number, small, by omega, rfl, taken⟩))

/-- A call fails for one of the reasons, and the reader has moved as far as the reason says. -/
theorem error_iff {call : Call} :
    call.decoder.runOn before = (.error fault, after) ↔
      ∃ moved, Fails before call fault moved ∧ after = before.advance moved := by
  constructor
  · exact exists_fails_of_error
  · rintro ⟨moved, fails, rfl⟩
    exact error_of_fails fails

theorem Fails.moved_le {call : Call} {moved : Nat} (fails : Fails before call fault moved) :
    moved ≤ before.remaining := by
  cases fails with
  | short sized short => exact Nat.zero_le _
  | notSafe notSafe stands => exact stands.length_le
  | badCount counts fails => exact fails.moved_le
  | tooLong bounds small stands exceeds =>
      rw [← length_compactSize]
      exact stands.length_le

/-! ## Runs of calls -/

theorem takes_after (call : Call) (reader : Reader) :
    ∃ taken, reader.Takes taken (call.after reader) := by
  cases reached : call.decoder.runOn reader with
  | mk result next =>
      rw [Call.after, reached]
      cases result with
      | ok value => exact ⟨_, takes_form reached⟩
      | error fault =>
          obtain ⟨moved, fails, rfl⟩ := exists_fails_of_error reached
          exact ⟨_, Reader.takes_advance fails.moved_le⟩

theorem takes_afterAll (calls : List Call) (reader : Reader) :
    ∃ taken, reader.Takes taken (afterAll calls reader) := by
  induction calls generalizing reader with
  | nil => exact ⟨[], Reader.takes_nil_iff.mpr rfl⟩
  | cons call later ih =>
      obtain ⟨first, takenFirst⟩ := call.takes_after reader
      obtain ⟨second, takenSecond⟩ := ih (call.after reader)
      exact ⟨first ++ second, Reader.takes_append_iff.mpr ⟨_, takenFirst, takenSecond⟩⟩

theorem position_le_afterAll (calls : List Call) (reader : Reader) :
    reader.position ≤ (afterAll calls reader).position := by
  obtain ⟨taken, takes⟩ := takes_afterAll calls reader
  rw [takes.position_eq]
  exact Nat.le_add_right _ _

theorem afterAll_append (earlier later : List Call) (reader : Reader) :
    afterAll (earlier ++ later) reader = afterAll later (afterAll earlier reader) :=
  List.foldl_append

end Call

/-- After any calls a reader stands within its buffer, no further back than before the last of
them, and has the bytes from its position on before it.  A call that succeeds has taken the form
of what it gives.  A call fails for exactly the reasons in the list, and then it has moved as far
as it says there.  Counts are read from their shortest form alone, whose length is known, and
byte strings from their form; a byte string is there whenever its length can be read. -/
theorem reader_stands_behind_what_was_taken (buffer : Bytes) (earlier later : List Call) :
    ((Call.afterAll earlier (.ofBytes buffer)).position ≤
        (Call.afterAll (earlier ++ later) (.ofBytes buffer)).position ∧
      (Call.afterAll (earlier ++ later) (.ofBytes buffer)).position ≤ buffer.length ∧
      (Call.afterAll (earlier ++ later) (.ofBytes buffer)).rest =
        buffer.drop (Call.afterAll (earlier ++ later) (.ofBytes buffer)).position) ∧
    (∀ before after : Reader,
      (∀ (call : Call) (value : call.Value),
        call.decoder.runOn before = (.ok value, after) → before.Takes (call.form value) after) ∧
      (∀ (call : Call) (fault : DecodeFault),
        call.decoder.runOn before = (.error fault, after) ↔
          ∃ moved, Call.Fails before call fault moved ∧ after = before.advance moved) ∧
      (∀ number, Decoder.count.runOn before = (.ok number, after) ↔
        ∃ value : UInt64, number = value.toNat ∧ before.Takes (compactSize value.toNat) after) ∧
      (∀ value, Decoder.lengthPrefixed.runOn before = (.ok value, after) ↔
        value.length ≤ Limits.maxVectorSize ∧ before.Takes (Wire.lengthPrefixed value) after) ∧
      ∀ number, Decoder.length.runOn before = (.ok number, after) →
        Decoder.lengthPrefixed.runOn before =
          (.ok (after.rest.take number), after.advance number)) ∧
    ∀ value : UInt64, (compactSize value.toNat).length = compactSizeLength value.toNat := by
  refine ⟨?_, fun before after => ⟨fun call value => Call.takes_form,
    fun call fault => Call.error_iff, ?_,
    fun value => Decoder.lengthPrefixed_reads before value after,
    fun number => Decoder.runOn_lengthPrefixed_of_length⟩, fun value => length_compactSize _⟩
  · obtain ⟨taken, takes⟩ := Call.takes_afterAll (earlier ++ later) (.ofBytes buffer)
    refine ⟨?_, takes.within⟩
    rw [Call.afterAll_append]
    exact Call.position_le_afterAll later _
  · intro number
    rw [Decoder.count_reads before number after]
    constructor
    · rintro ⟨small, taken⟩
      have same : (UInt64.ofNat number).toNat = number := UInt64.toNat_ofNat_of_lt' small
      exact ⟨UInt64.ofNat number, same.symm, by rwa [same]⟩
    · rintro ⟨value, rfl, taken⟩
      exact ⟨value.toNat_lt, taken⟩

/-- A count in too long a form, a length of more than what is left, a count of one byte and one
that is cut off. -/
def badCounts : Bytes :=
  [0xfd, 0x10, 0x00, 0x05, 0x01, 0xfd, 0x07]

/-- Each failure moves the reader by its own number of bytes, and the next call goes on from
there. -/
theorem reader_stands_behind_badCounts :
    (Call.afterAll [.count, .length, .uint32, .count] (.ofBytes badCounts)).position = 5 ∧
    Call.afterAll [.count, .length, .uint32, .count, .count, .uint8, .lengthPrefixed]
      (.ofBytes badCounts) = ⟨[], 7⟩ ∧
    (Call.afterAll [.count, .length, .uint32, .count] (.ofBytes badCounts)).position ≤
      (Call.afterAll [.count, .length, .uint32, .count, .count, .uint8, .lengthPrefixed]
        (.ofBytes badCounts)).position ∧
    Decoder.count.runOn (.ofBytes badCounts) =
      (.error (.longCount 0), (Reader.ofBytes badCounts).advance 3) ∧
    Decoder.length.runOn ⟨[0x01, 0x09], 4⟩ = (.ok 1, ⟨[0x09], 5⟩) ∧
    Decoder.lengthPrefixed.runOn ⟨[0x01, 0x09], 4⟩ = (.ok [0x09], ⟨[], 6⟩) := by
  obtain ⟨⟨ordered, -⟩, single, -⟩ := reader_stands_behind_what_was_taken badCounts
    [.count, .length, .uint32, .count] [.count, .uint8, .lengthPrefixed]
  have notShortest : Call.Fails (.ofBytes badCounts) .count (.longCount 0) 3 :=
    .badCount (List.mem_cons_self ..)
      (@Decoder.CountFails.notShortest _ .two 0x10 (by decide) ⟨[0x05, 0x01, 0xfd, 0x07], rfl⟩)
  have accepted : Decoder.length.runOn ⟨[0x01, 0x09], 4⟩ = (.ok 1, ⟨[0x09], 5⟩) := rfl
  exact ⟨rfl, rfl, ordered, ((single _ _).2.1 .count _).mpr ⟨3, notShortest, rfl⟩, accepted,
    (single _ _).2.2.2.2 1 accepted⟩

end CoinSpend.Wire
