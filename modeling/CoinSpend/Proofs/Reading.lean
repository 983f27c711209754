import CoinSpend.Bytes.Lemmas
import CoinSpend.Transaction.Encoding
import CoinSpend.Wire.Reader

/-!
# What a successful read has read

A read succeeds with a value exactly on the bytes that the writer writes for that
value, and leaves what follows them.  The laws are equivalences, so that the law of a
sequence of reads is put together from the laws of its parts.
-/

namespace CoinSpend.Wire

/-- Going from one reader to another takes exactly these bytes. -/
structure Reader.Takes (before : Reader) (bytes : Bytes) (after : Reader) : Prop where
  rest_eq : before.rest = bytes ++ after.rest
  position_eq : after.position = before.position + bytes.length

namespace Reader

theorem takes_nil_iff {before after : Reader} : before.Takes [] after ↔ before = after := by
  constructor
  · rintro ⟨restEq, positionEq⟩
    cases before
    cases after
    simp_all
  · rintro rfl
    exact ⟨rfl, rfl⟩

theorem takes_append_iff {before after : Reader} {first second : Bytes} :
    before.Takes (first ++ second) after ↔
      ∃ middle, before.Takes first middle ∧ middle.Takes second after := by
  constructor
  · rintro ⟨restEq, positionEq⟩
    refine ⟨⟨second ++ after.rest, before.position + first.length⟩, ⟨?_, rfl⟩, ⟨rfl, ?_⟩⟩
    · rw [restEq, List.append_assoc]
    · rw [positionEq, List.length_append, Nat.add_assoc]
  · rintro ⟨middle, ⟨firstRest, firstPosition⟩, ⟨secondRest, secondPosition⟩⟩
    refine ⟨?_, ?_⟩
    · rw [firstRest, secondRest, List.append_assoc]
    · rw [secondPosition, firstPosition, List.length_append, Nat.add_assoc]

theorem takes_cons_iff {before after : Reader} {byte : UInt8} {bytes : Bytes} :
    before.Takes (byte :: bytes) after ↔
      ∃ middle, before.Takes [byte] middle ∧ middle.Takes bytes after := by
  rw [← List.singleton_append, takes_append_iff]

theorem takes_append (bytes rest : Bytes) (position : Nat) :
    Takes ⟨bytes ++ rest, position⟩ bytes ⟨rest, position + bytes.length⟩ :=
  ⟨rfl, rfl⟩

theorem takes_all_iff {bytes taken : Bytes} {after : Reader} :
    (Reader.ofBytes bytes).Takes taken after ∧ after.isEmpty = true ↔
      bytes = taken ∧ after = ⟨[], taken.length⟩ := by
  obtain ⟨rest, position⟩ := after
  constructor
  · rintro ⟨⟨restEq, positionEq⟩, ended⟩
    cases List.isEmpty_iff.mp ended
    rw [List.append_nil] at restEq
    exact ⟨restEq, congrArg _ (positionEq.trans (Nat.zero_add _))⟩
  · rintro ⟨same, whole⟩
    cases whole
    exact ⟨⟨same.trans (List.append_nil _).symm, (Nat.zero_add _).symm⟩, rfl⟩

end Reader

namespace Decoder

variable {α β : Type}

/-! ## Sequences of reads -/

theorem runOn_bind (first : Decoder α) (next : α → Decoder β) (before : Reader) :
    (first >>= next).runOn before =
      match first.runOn before with
      | (.ok item, middle) => (next item).runOn middle
      | (.error fault, middle) => (.error fault, middle) := by
  change (ExceptT.bindCont next (first.runOn before).1 : StateM Reader _)
    (first.runOn before).2 = _
  obtain ⟨result, middle⟩ := first.runOn before
  cases result with
  | error fault => rfl
  | ok item => rfl

theorem runOn_bind_eq_ok_iff {first : Decoder α} {next : α → Decoder β}
    {before after : Reader} {value : β} :
    (first >>= next).runOn before = (.ok value, after) ↔
      ∃ item middle, first.runOn before = (.ok item, middle) ∧
        (next item).runOn middle = (.ok value, after) := by
  rw [runOn_bind]
  cases reached : first.runOn before with
  | mk result middle =>
      cases result with
      | error fault =>
          constructor
          · intro impossible; cases impossible
          · rintro ⟨item, other, impossible, -⟩; cases impossible
      | ok item =>
          constructor
          · intro finished; exact ⟨item, middle, rfl, finished⟩
          · rintro ⟨same, other, found, finished⟩; cases found; exact finished

theorem runOn_get_bind (next : Reader → Decoder β) (before : Reader) :
    ((get : Decoder Reader) >>= next).runOn before = (next before).runOn before :=
  rfl

theorem runOn_pure_eq_ok_iff {value other : α} {before after : Reader} :
    (pure value : Decoder α).runOn before = (.ok other, after) ↔
      value = other ∧ before = after := by
  change ((Except.ok value : Except DecodeFault α), before) = _ ↔ _
  rw [Prod.mk.injEq, Except.ok.injEq]

/-- A read that ends with a refusal succeeds where nothing is refused. -/
theorem runOn_refuse_eq_ok_iff {refused : Prop} [Decidable refused] {fault : DecodeFault}
    {next : Unit → Decoder α} {before after : Reader} {value : α} :
    (if refused then (throw fault : Decoder Unit) >>= next else next ()).runOn before =
        (.ok value, after) ↔
      ¬refused ∧ (next ()).runOn before = (.ok value, after) := by
  split
  · rename_i yes
    constructor
    · intro impossible; cases impossible
    · intro both; exact absurd yes both.1
  · rename_i no
    exact ⟨fun finished => ⟨no, finished⟩, fun both => both.2⟩

/-! ## Single values -/

/-- A read succeeds exactly on the forms of the values of a class. -/
def Reads (decoder : Decoder α) (valid : α → Prop) (form : α → Bytes) : Prop :=
  ∀ (before : Reader) (value : α) (after : Reader),
    decoder.runOn before = (.ok value, after) ↔ valid value ∧ before.Takes (form value) after

theorem Reads.map {decoder : Decoder α} {valid : α → Prop} {form : α → Bytes}
    (reads : decoder.Reads valid form) (decode : α → β) (encode : β → α)
    (valid_encode : ∀ value, valid (encode value))
    (decode_encode : ∀ value, decode (encode value) = value)
    (encode_decode : ∀ item, valid item → encode (decode item) = item) :
    Reads (decoder >>= fun item => pure (decode item)) (fun _ => True)
      (fun value => form (encode value)) := by
  intro before value after
  simp only [runOn_bind_eq_ok_iff, runOn_pure_eq_ok_iff, reads _ _ _, true_and]
  constructor
  · rintro ⟨item, middle, ⟨isValid, taken⟩, rfl, rfl⟩
    rwa [encode_decode item isValid]
  · intro taken
    exact ⟨encode value, after, ⟨valid_encode value, taken⟩, decode_encode value, rfl⟩

theorem runOn_fixed_of_le {size : Nat} {before : Reader} (enough : size ≤ before.rest.length) :
    (fixed size).runOn before =
      (.ok ⟨before.rest.take size, by rw [List.length_take, Nat.min_eq_left enough]⟩,
        before.advance size) := by
  have present := (Bytes.hasAtLeast_eq_true_iff before.rest size).mpr enough
  change runOn (if enough : before.rest.hasAtLeast size = true then _ else _) before = _
  rw [dif_pos present]
  rfl

theorem runOn_fixed_of_lt {size : Nat} {before : Reader} (short : before.rest.length < size) :
    (fixed size).runOn before =
      (.error (.unexpectedEnd size before.position before.remaining), before) := by
  have absent : ¬before.rest.hasAtLeast size = true := by
    rw [Bytes.hasAtLeast_eq_true_iff]
    omega
  change runOn (if enough : before.rest.hasAtLeast size = true then _ else _) before = _
  rw [dif_neg absent]
  rfl

theorem fixed_reads (size : Nat) : (fixed size).Reads (fun _ => True) Digest.bytes := by
  intro before value after
  rw [true_and]
  constructor
  · intro succeeded
    by_cases enough : size ≤ before.rest.length
    · rw [runOn_fixed_of_le enough] at succeeded
      cases succeeded
      refine ⟨(List.take_append_drop size before.rest).symm, ?_⟩
      rw [List.length_take, Nat.min_eq_left enough]
      rfl
    · rw [runOn_fixed_of_lt (Nat.lt_of_not_le enough)] at succeeded
      cases succeeded
  · rintro ⟨restEq, positionEq⟩
    obtain ⟨bytes, sized⟩ := value
    obtain ⟨rest, position⟩ := after
    dsimp only at restEq positionEq
    have enough : size ≤ before.rest.length := by
      rw [restEq, List.length_append, sized]
      exact Nat.le_add_right _ _
    rw [runOn_fixed_of_le enough]
    congr 1
    · congr 2
      rw [restEq, List.take_left' sized]
    · rw [Reader.advance, restEq, List.drop_left' sized, positionEq, sized]

theorem bytes_reads (count : Nat) : (bytes count).Reads (fun value => value.length = count) id := by
  intro before value after
  unfold bytes
  simp only [runOn_bind_eq_ok_iff, runOn_pure_eq_ok_iff, fixed_reads count _ _ _, true_and]
  constructor
  · rintro ⟨item, middle, taken, rfl, rfl⟩
    exact ⟨item.length_bytes, taken⟩
  · rintro ⟨sized, taken⟩
    exact ⟨⟨value, sized⟩, after, taken, rfl, rfl⟩

theorem unsigned_reads (width : Nat) :
    (unsigned width).Reads (fun number => number < 256 ^ width) (Bytes.littleEndian width) := by
  intro before value after
  unfold unsigned
  simp only [runOn_bind_eq_ok_iff, runOn_pure_eq_ok_iff, bytes_reads width _ _ _]
  constructor
  · rintro ⟨item, middle, ⟨sized, taken⟩, rfl, rfl⟩
    constructor
    · rw [← sized]
      exact Bytes.toNat_lt item
    · rw [← sized, Bytes.littleEndian_toNat]
      exact taken
  · rintro ⟨small, taken⟩
    refine ⟨Bytes.littleEndian width value, after,
      ⟨Bytes.length_littleEndian width value, taken⟩, ?_, rfl⟩
    rw [Bytes.toNat_littleEndian, Nat.mod_eq_of_lt small]

theorem uint8_reads : uint8.Reads (fun _ => True) (fun byte => [byte]) := by
  have reads := (unsigned_reads 1).map UInt8.ofNat UInt8.toNat (fun byte => byte.toNat_lt)
    (fun _ => UInt8.ofNat_toNat) (fun _ small => UInt8.toNat_ofNat_of_lt' small)
  simp only [Bytes.littleEndian, UInt8.ofNat_toNat] at reads
  exact reads

theorem uint32_reads : uint32.Reads (fun _ => True) Wire.uint32 :=
  (unsigned_reads 4).map UInt32.ofNat UInt32.toNat (fun value => value.toNat_lt)
    (fun _ => UInt32.ofNat_toNat) (fun _ small => UInt32.toNat_ofNat_of_lt' small)

theorem int32_reads : int32.Reads (fun _ => True) Wire.int32 :=
  uint32_reads.map UInt32.toInt32 Int32.toUInt32 (fun _ => trivial)
    (fun _ => rfl) (fun _ _ => rfl)

theorem int64_reads : int64.Reads (fun _ => True) Wire.int64 :=
  (unsigned_reads 8).map (fun number => (UInt64.ofNat number).toInt64)
    (fun value => value.toUInt64.toNat) (fun value => value.toUInt64.toNat_lt)
    (fun _ => congrArg UInt64.toInt64 UInt64.ofNat_toNat)
    (fun _ small => UInt64.toNat_ofNat_of_lt' small)

/-- An amount is read if its magnitude stays below 2^53. -/
def isSafeAmount (value : Int64) : Prop :=
  -Limits.maxSafeInteger ≤ value.toInt ∧ value.toInt ≤ Limits.maxSafeInteger

theorem amount_reads : amount.Reads isSafeAmount Wire.int64 := by
  intro before value after
  rw [amount, runOn_get_bind, runOn_bind_eq_ok_iff]
  constructor
  · rintro ⟨item, middle, read, rest⟩
    obtain ⟨safe, rest⟩ := runOn_refuse_eq_ok_iff.mp rest
    obtain ⟨rfl, rfl⟩ := runOn_pure_eq_ok_iff.mp rest
    obtain ⟨-, taken⟩ := (int64_reads _ _ _).mp read
    rw [not_or, Int.not_lt, Int.not_lt] at safe
    exact ⟨safe.symm, taken⟩
  · rintro ⟨⟨least, most⟩, taken⟩
    refine ⟨value, after, (int64_reads _ _ _).mpr ⟨trivial, taken⟩, ?_⟩
    refine runOn_refuse_eq_ok_iff.mpr ⟨?_, runOn_pure_eq_ok_iff.mpr ⟨rfl, rfl⟩⟩
    rw [not_or, Int.not_lt, Int.not_lt]
    exact ⟨most, least⟩

/-- The rest of a count after its marker. -/
theorem markedCount_reads (start width least : Nat) :
    (markedCount start width least).Reads (fun number => least ≤ number ∧ number < 256 ^ width)
      (Bytes.littleEndian width) := by
  intro before value after
  unfold markedCount
  rw [runOn_bind_eq_ok_iff]
  constructor
  · rintro ⟨item, middle, read, rest⟩
    obtain ⟨enough, rest⟩ := runOn_refuse_eq_ok_iff.mp rest
    obtain ⟨rfl, rfl⟩ := runOn_pure_eq_ok_iff.mp rest
    obtain ⟨small, taken⟩ := (unsigned_reads width _ _ _).mp read
    exact ⟨⟨Nat.le_of_not_lt enough, small⟩, taken⟩
  · rintro ⟨⟨enough, small⟩, taken⟩
    refine ⟨value, after, (unsigned_reads width _ _ _).mpr ⟨small, taken⟩, ?_⟩
    exact runOn_refuse_eq_ok_iff.mpr
      ⟨Nat.not_lt_of_le enough, runOn_pure_eq_ok_iff.mpr ⟨rfl, rfl⟩⟩

/-! ## Counts and byte strings -/

theorem compactSize_of_one {number : Nat} (small : number < 0xfd) :
    compactSize number = [UInt8.ofNat number] :=
  if_pos small

theorem compactSize_of_two {number : Nat} (least : 0xfd ≤ number) (small : number < 256 ^ 2) :
    compactSize number = 0xfd :: Bytes.littleEndian 2 number := by
  rw [compactSize, if_neg (by omega), if_pos (by omega)]

theorem compactSize_of_four {number : Nat} (least : 0x10000 ≤ number)
    (small : number < 256 ^ 4) :
    compactSize number = 0xfe :: Bytes.littleEndian 4 number := by
  rw [compactSize, if_neg (by omega), if_neg (by omega), if_pos (by omega)]

theorem compactSize_of_eight {number : Nat} (least : 0x100000000 ≤ number) :
    compactSize number = 0xff :: Bytes.littleEndian 8 number := by
  rw [compactSize, if_neg (by omega), if_neg (by omega), if_neg (by omega)]

theorem toNat_lt_of_not_marker {byte : UInt8} (notTwo : byte ≠ 0xfd) (notFour : byte ≠ 0xfe)
    (notEight : byte ≠ 0xff) : byte.toNat < 0xfd := by
  have bound := byte.toNat_lt
  rw [← UInt8.toNat_inj.ne] at notTwo notFour notEight
  change byte.toNat ≠ 0xfd at notTwo
  change byte.toNat ≠ 0xfe at notFour
  change byte.toNat ≠ 0xff at notEight
  omega

theorem marked_eq_ok_iff {width least : Nat} {marker : UInt8}
    (form : ∀ number, least ≤ number → number < 256 ^ width →
      compactSize number = marker :: Bytes.littleEndian width number)
    (start : Nat) (before after : Reader) (number : Nat) :
    (∃ middle, uint8.runOn before = (.ok marker, middle) ∧
        (markedCount start width least).runOn middle = (.ok number, after)) ↔
      (least ≤ number ∧ number < 256 ^ width) ∧ before.Takes (compactSize number) after := by
  constructor
  · rintro ⟨middle, read, rest⟩
    obtain ⟨-, taken⟩ := (uint8_reads _ _ _).mp read
    obtain ⟨⟨enough, small⟩, takenRest⟩ := (markedCount_reads _ _ _ _ _ _).mp rest
    refine ⟨⟨enough, small⟩, ?_⟩
    rw [form number enough small]
    exact Reader.takes_cons_iff.mpr ⟨middle, taken, takenRest⟩
  · rintro ⟨⟨enough, small⟩, taken⟩
    rw [form number enough small, Reader.takes_cons_iff] at taken
    obtain ⟨middle, taken, takenRest⟩ := taken
    exact ⟨middle, (uint8_reads _ _ _).mpr ⟨trivial, taken⟩,
      (markedCount_reads _ _ _ _ _ _).mpr ⟨⟨enough, small⟩, takenRest⟩⟩

theorem unmarked_eq_ok_iff (before after : Reader) (number : Nat) :
    (∃ first, (first ≠ 0xfd ∧ first ≠ 0xfe ∧ first ≠ 0xff) ∧
        uint8.runOn before = (.ok first, after) ∧ first.toNat = number) ↔
      number < 0xfd ∧ before.Takes (compactSize number) after := by
  constructor
  · rintro ⟨first, ⟨notTwo, notFour, notEight⟩, read, rfl⟩
    obtain ⟨-, taken⟩ := (uint8_reads _ _ _).mp read
    have small := toNat_lt_of_not_marker notTwo notFour notEight
    refine ⟨small, ?_⟩
    rw [compactSize_of_one small, UInt8.ofNat_toNat]
    exact taken
  · rintro ⟨small, taken⟩
    rw [compactSize_of_one small] at taken
    have same : (UInt8.ofNat number).toNat = number := by
      apply UInt8.toNat_ofNat_of_lt'
      change number < 256
      omega
    have notMarker (marker : UInt8) (large : 0xfd ≤ marker.toNat) :
        UInt8.ofNat number ≠ marker := by
      rintro rfl
      omega
    exact ⟨UInt8.ofNat number,
      ⟨notMarker _ (by decide), notMarker _ (by decide), notMarker _ (by decide)⟩,
      (uint8_reads _ _ _).mpr ⟨trivial, taken⟩, same⟩

/-- A count is read from its shortest form and from no other. -/
theorem count_reads : count.Reads (fun number => number < 256 ^ 8) compactSize := by
  intro before value after
  rw [count, runOn_get_bind, runOn_bind_eq_ok_iff]
  have one := unmarked_eq_ok_iff before after value
  have two := marked_eq_ok_iff (fun _ => compactSize_of_two) before.position before after value
  have four := marked_eq_ok_iff (fun _ => compactSize_of_four) before.position before after value
  have eight := marked_eq_ok_iff
    (fun _ least (_ : _ < 256 ^ 8) => compactSize_of_eight least) before.position before after value
  constructor
  · rintro ⟨first, middle, read, rest⟩
    split at rest
    · rename_i isTwo
      subst isTwo
      obtain ⟨⟨-, small⟩, taken⟩ := two.mp ⟨middle, read, rest⟩
      exact ⟨by omega, taken⟩
    · rename_i notTwo
      split at rest
      · rename_i isFour
        subst isFour
        obtain ⟨⟨-, small⟩, taken⟩ := four.mp ⟨middle, read, rest⟩
        exact ⟨by omega, taken⟩
      · rename_i notFour
        split at rest
        · rename_i isEight
          subst isEight
          obtain ⟨⟨-, small⟩, taken⟩ := eight.mp ⟨middle, read, rest⟩
          exact ⟨small, taken⟩
        · rename_i notEight
          obtain ⟨same, rfl⟩ := runOn_pure_eq_ok_iff.mp rest
          obtain ⟨small, taken⟩ :=
            one.mp ⟨first, ⟨notTwo, notFour, notEight⟩, read, same⟩
          exact ⟨by omega, taken⟩
  · rintro ⟨small, taken⟩
    rcases Nat.lt_or_ge value 0xfd with inOne | leastTwo
    · obtain ⟨first, ⟨notTwo, notFour, notEight⟩, read, same⟩ := one.mpr ⟨inOne, taken⟩
      refine ⟨first, after, read, ?_⟩
      rw [if_neg notTwo, if_neg notFour, if_neg notEight, same]
      rfl
    · rcases Nat.lt_or_ge value 0x10000 with inTwo | leastFour
      · exact ⟨0xfd, two.mpr ⟨⟨leastTwo, inTwo⟩, taken⟩⟩
      · rcases Nat.lt_or_ge value 0x100000000 with inFour | leastEight
        · exact ⟨0xfe, four.mpr ⟨⟨leastFour, inFour⟩, taken⟩⟩
        · exact ⟨0xff, eight.mpr ⟨⟨leastEight, small⟩, taken⟩⟩

/-- A length is read if it is within the limit and no more than what is left. -/
theorem runOn_length_eq_ok_iff {before after : Reader} {number : Nat} :
    length.runOn before = (.ok number, after) ↔
      number ≤ Limits.maxVectorSize ∧ number ≤ after.rest.length ∧
        before.Takes (compactSize number) after := by
  rw [length, runOn_bind_eq_ok_iff]
  constructor
  · rintro ⟨item, middle, read, rest⟩
    rw [runOn_get_bind] at rest
    obtain ⟨allowed, rest⟩ := runOn_refuse_eq_ok_iff.mp rest
    obtain ⟨rfl, rfl⟩ := runOn_pure_eq_ok_iff.mp rest
    obtain ⟨-, taken⟩ := (count_reads _ _ _).mp read
    rw [not_or, not_not, Bytes.hasAtLeast_eq_true_iff] at allowed
    exact ⟨Nat.le_of_not_lt allowed.1, allowed.2, taken⟩
  · rintro ⟨most, present, taken⟩
    have small : number < 256 ^ 8 := by
      unfold Limits.maxVectorSize at most
      omega
    refine ⟨number, after, (count_reads _ _ _).mpr ⟨small, taken⟩, ?_⟩
    rw [runOn_get_bind]
    refine runOn_refuse_eq_ok_iff.mpr ⟨?_, runOn_pure_eq_ok_iff.mpr ⟨rfl, rfl⟩⟩
    rw [not_or, not_not, Bytes.hasAtLeast_eq_true_iff]
    exact ⟨Nat.not_lt_of_le most, present⟩

theorem lengthPrefixed_reads :
    lengthPrefixed.Reads (fun value => value.length ≤ Limits.maxVectorSize)
      Wire.lengthPrefixed := by
  intro before value after
  rw [lengthPrefixed, runOn_bind_eq_ok_iff, Wire.lengthPrefixed, Reader.takes_append_iff]
  constructor
  · rintro ⟨number, middle, read, rest⟩
    obtain ⟨most, -, taken⟩ := runOn_length_eq_ok_iff.mp read
    obtain ⟨sized, takenRest⟩ := (bytes_reads _ _ _ _).mp rest
    subst sized
    exact ⟨most, middle, taken, takenRest⟩
  · rintro ⟨most, middle, taken, takenRest⟩
    refine ⟨value.length, middle, runOn_length_eq_ok_iff.mpr ⟨most, ?_, taken⟩,
      (bytes_reads _ _ _ _).mpr ⟨rfl, takenRest⟩⟩
    rw [takenRest.rest_eq, List.length_append]
    exact Nat.le_add_right _ _

/-! ## Repetitions -/

theorem length_le_length_flatMap {form : α → Bytes} (nonempty : ∀ item, form item ≠ [])
    (items : List α) : items.length ≤ (items.flatMap form).length := by
  induction items with
  | nil => exact Nat.le_refl _
  | cons item items ih =>
      have positive := List.length_pos_iff.mpr (nonempty item)
      rw [List.length_cons, List.flatMap_cons, List.length_append]
      omega

section Repetition

variable {decoder : Decoder α} {valid : α → Prop} {form : α → Bytes}
  (reads : decoder.Reads valid form)

include reads

theorem runOn_repeatedFrom_eq_ok_iff {number : Nat} {done value : List α}
    {before after : Reader} :
    (repeatedFrom decoder done number).runOn before = (.ok value, after) ↔
      ∃ items, value = done.reverse ++ items ∧ items.length = number ∧
        (∀ item ∈ items, valid item) ∧ before.Takes (items.flatMap form) after := by
  induction number generalizing done before with
  | zero =>
      rw [repeatedFrom, runOn_pure_eq_ok_iff]
      constructor
      · rintro ⟨rfl, rfl⟩
        refine ⟨[], (List.append_nil _).symm, rfl, ?_, Reader.takes_nil_iff.mpr rfl⟩
        intro item impossible
        cases impossible
      · rintro ⟨items, rfl, empty, -, taken⟩
        cases List.length_eq_zero_iff.mp empty
        exact ⟨(List.append_nil _).symm, Reader.takes_nil_iff.mp taken⟩
  | succ number ih =>
      rw [repeatedFrom, runOn_bind_eq_ok_iff]
      constructor
      · rintro ⟨item, middle, read, rest⟩
        obtain ⟨isValid, taken⟩ := (reads _ _ _).mp read
        obtain ⟨items, rfl, counted, allValid, takenRest⟩ := ih.mp rest
        refine ⟨item :: items, ?_, ?_, ?_, ?_⟩
        · rw [List.reverse_cons, List.append_assoc, List.singleton_append]
        · rw [List.length_cons, counted]
        · exact List.forall_mem_cons.mpr ⟨isValid, allValid⟩
        · rw [List.flatMap_cons]
          exact Reader.takes_append_iff.mpr ⟨middle, taken, takenRest⟩
      · rintro ⟨items, rfl, counted, allValid, taken⟩
        cases items with
        | nil => cases counted
        | cons item items =>
            obtain ⟨isValid, allValid⟩ := List.forall_mem_cons.mp allValid
            rw [List.flatMap_cons] at taken
            obtain ⟨middle, taken, takenRest⟩ := Reader.takes_append_iff.mp taken
            refine ⟨item, middle, (reads _ _ _).mpr ⟨isValid, taken⟩, ih.mpr ?_⟩
            refine ⟨items, ?_, Nat.succ.inj counted, allValid, takenRest⟩
            rw [List.reverse_cons, List.append_assoc, List.singleton_append]

/-- Items after their count.  As each takes a byte or more, the count never asks for
more than what is left. -/
theorem counted_reads (nonempty : ∀ item, form item ≠ []) :
    Reads (length >>= fun number => repeated number decoder)
      (fun items => items.length ≤ Limits.maxVectorSize ∧ ∀ item ∈ items, valid item)
      (Wire.counted form) := by
  intro before value after
  rw [runOn_bind_eq_ok_iff, Wire.counted, Reader.takes_append_iff]
  constructor
  · rintro ⟨number, middle, read, rest⟩
    obtain ⟨most, -, taken⟩ := runOn_length_eq_ok_iff.mp read
    obtain ⟨items, rfl, rfl, allValid, takenRest⟩ :=
      (runOn_repeatedFrom_eq_ok_iff reads).mp rest
    exact ⟨⟨most, allValid⟩, middle, taken, takenRest⟩
  · rintro ⟨⟨most, allValid⟩, middle, taken, takenRest⟩
    refine ⟨value.length, middle, runOn_length_eq_ok_iff.mpr ⟨most, ?_, taken⟩,
      (runOn_repeatedFrom_eq_ok_iff reads).mpr ⟨value, rfl, rfl, allValid, takenRest⟩⟩
    rw [takenRest.rest_eq, List.length_append]
    exact Nat.le_trans (length_le_length_flatMap nonempty value) (Nat.le_add_right _ _)

end Repetition

end Decoder

end CoinSpend.Wire
