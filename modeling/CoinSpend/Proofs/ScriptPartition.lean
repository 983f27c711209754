import CoinSpend.Proofs.CutCursors
import CoinSpend.Script.Error

/-!
# Going over the instructions of a script

A cursor answers one call after the other with the instruction where it stands, and with its
offset.  What it answers covers the bytes of the script without gap or overlap, up to their end
or up to a push that runs past it, for which there is one failure.
-/

namespace CoinSpend

open Bytes (StandsAt)

def Opcode.headerLength (opcode : Opcode) : Nat :=
  if opcode = .pushData1 then 2
  else if opcode = .pushData2 then 3
  else if opcode = .pushData4 then 5
  else 1

theorem PushForm.headerLength_opcode {form : PushForm} {length : Nat}
    (fits : length ≤ form.maxLength) :
    (form.opcode length).headerLength = 1 + form.lengthWidth := by
  cases form with
  | direct =>
      have small : (UInt8.ofNat length).toNat ≤ 75 := by
        rw [UInt8.toNat_ofNat']
        exact Nat.le_trans (Nat.mod_le _ _) fits
      have other (opcode : Opcode) (large : 75 < opcode.byte.toNat) :
          PushForm.direct.opcode length ≠ opcode := by
        rintro rfl
        exact Nat.not_le_of_lt large small
      rw [Opcode.headerLength, if_neg (other _ (by decide)), if_neg (other _ (by decide)),
        if_neg (other _ (by decide))]
      rfl
  | oneByte => rfl
  | twoBytes => rfl
  | fourBytes => rfl

namespace Instruction

/-! ## Broken ends -/

/-- Bytes that begin with a push whose length field or whose data runs past their end. -/
inductive RunsPastEnd : Bytes → Prop where
  | lengthField {first : UInt8} {form : PushForm} {rest : Bytes}
      (begun : PushForm.ofOpcode? ⟨first⟩ = some form) (short : rest.length < form.lengthWidth) :
      RunsPastEnd (first :: rest)
  | data {form : PushForm} {length : Nat} {rest : Bytes} (fits : length ≤ form.maxLength)
      (short : rest.length < length) : RunsPastEnd (form.header length ++ rest)

theorem RunsPastEnd.ne_nil {bytes : Bytes} (runsPast : RunsPastEnd bytes) : bytes ≠ [] := by
  cases runsPast with
  | lengthField begun short => exact List.cons_ne_nil _ _
  | data fits short => exact List.cons_ne_nil _ _

theorem readData?_eq_none_iff {form : PushForm} {length : Nat} {bytes : Bytes} :
    readData? form length bytes = none ↔ bytes.length < length := by
  have enough := Bytes.hasAtLeast_eq_true_iff bytes length
  rw [readData?]
  split
  · rename_i present
    exact ⟨fun missing => (by cases missing), fun short =>
      absurd (enough.mp present) (Nat.not_le_of_lt short)⟩
  · rename_i absent
    exact ⟨fun _ => Nat.lt_of_not_le (mt enough.mpr absent), fun _ => rfl⟩

theorem RunsPastEnd.of_read?_none {first : UInt8} {rest : Bytes}
    (stuck : read? (first :: rest) = none) : RunsPastEnd (first :: rest) := by
  unfold read? at stuck
  dsimp only at stuck
  split at stuck
  · cases stuck
  · rename_i begun
    have fits := UInt8.le_iff_toNat_le.mp (PushForm.le_of_ofOpcode?_direct begun)
    have short := readData?_eq_none_iff.mp stuck
    have cut := @RunsPastEnd.data .direct _ _ fits short
    rwa [header_direct] at cut
  · rename_i form longer begun
    by_cases enough : form.lengthWidth ≤ rest.length
    · rw [if_pos ((Bytes.hasAtLeast_eq_true_iff _ _).mpr enough)] at stuck
      have short := readData?_eq_none_iff.mp stuck
      have cut := RunsPastEnd.data (toNat_field_le longer enough) short
      rwa [header_of_field begun longer enough] at cut
    · exact .lengthField begun (Nat.lt_of_not_le enough)

theorem RunsPastEnd.read?_none {bytes : Bytes} (runsPast : RunsPastEnd bytes) :
    read? bytes = none := by
  cases runsPast with
  | data fits short =>
      rw [read?_header_append fits]
      exact readData?_eq_none_iff.mpr short
  | @lengthField first form rest begun short =>
      have absent : ¬ rest.hasAtLeast form.lengthWidth = true := by
        rw [Bytes.hasAtLeast_eq_true_iff]
        exact Nat.not_le_of_lt short
      rw [read?, begun]
      cases form with
      | direct => exact absurd short (Nat.not_lt_zero _)
      | oneByte => exact if_neg absent
      | twoBytes => exact if_neg absent
      | fourBytes => exact if_neg absent

/-! ## Instructions at an offset -/

theorem exists_read?_of_between? {bytes rest : Bytes} {offset : Nat} {instruction : Instruction}
    (wellFormed : instruction.WellFormed) (stands : StandsAt bytes offset rest)
    (between : bytes.between? offset (offset + instruction.size) = some instruction.encode) :
    ∃ later, read? rest = some (instruction, later) ∧
      StandsAt bytes (offset + instruction.size) later := by
  rw [stands.between?] at between
  split at between
  · have split : rest = instruction.encode ++ rest.drop instruction.size := by
      rw [← Option.some.inj between, List.take_append_drop]
    refine ⟨rest.drop instruction.size, ?_, ?_⟩
    · rw [split, ← length_encode, List.drop_left]
      exact read?_encode_append wellFormed _
    · rw [split] at stands
      rw [← length_encode] at stands ⊢
      exact stands.move
  · cases between

end Instruction

namespace Script

abbrev Item := Except ScriptError (Nat × Instruction)

/-- The items of bytes whose first one has a given offset. -/
def itemsFrom (position : Nat) (bytes : Bytes) : List Item :=
  (Instruction.place position (Instruction.decode bytes).1).map .ok ++
    if (Instruction.decode bytes).2.isEmpty then [] else [.error .badOpcode]

/-- The whole instructions of a script with their offsets, and a failure for a broken end. -/
def items (script : Script) : List Item :=
  script.placed.map .ok ++ if script.isWhole then [] else [.error .badOpcode]

theorem itemsFrom_of_found {position : Nat} {bytes rest : Bytes} {instruction : Instruction}
    (found : Instruction.read? bytes = some (instruction, rest)) :
    itemsFrom position bytes =
      .ok (position, instruction) :: itemsFrom (position + instruction.size) rest := by
  rw [itemsFrom, Instruction.decode_eq_of_read?_some found]
  rfl

@[simp] theorem itemsFrom_nil (position : Nat) : itemsFrom position [] = [] := by
  rw [itemsFrom, Instruction.decode_nil]
  rfl

theorem itemsFrom_of_runsPastEnd {position : Nat} {bytes : Bytes}
    (runsPast : Instruction.RunsPastEnd bytes) :
    itemsFrom position bytes = [.error .badOpcode] := by
  have notEmpty : bytes.isEmpty = false :=
    Bool.eq_false_iff.mpr (mt List.isEmpty_iff.mp runsPast.ne_nil)
  rw [itemsFrom, Instruction.decode_eq_of_read?_none runsPast.read?_none]
  dsimp only
  rw [notEmpty]
  rfl

/-! ## Items that cover a script -/

/-- Items that follow each other in bytes from an offset to the end.  An instruction stands where
the one before it ended, and its bytes are opcode, length field and data.  Only what runs past
the end is left over, and it has one failure. -/
inductive Covers (bytes : Bytes) : Nat → List Item → Prop where
  | ended : Covers bytes bytes.length []
  | broken {offset : Nat} (runsPast : Instruction.RunsPastEnd (bytes.drop offset)) :
      Covers bytes offset [.error .badOpcode]
  | push {offset : Nat} {form : PushForm} {data : Bytes} {later : List Item}
      (fits : data.length ≤ form.maxLength)
      (stands : bytes.between? offset
          (offset + ((form.opcode data.length).headerLength + data.length)) =
        some ((form.opcode data.length).byte ::
          (Bytes.littleEndian form.lengthWidth data.length ++ data)))
      (covers :
        Covers bytes (offset + ((form.opcode data.length).headerLength + data.length)) later) :
      Covers bytes offset (.ok (offset, .push form data) :: later)
  | op {offset : Nat} {opcode : Opcode} {later : List Item}
      (single : PushForm.ofOpcode? opcode = none)
      (stands : bytes.between? offset (offset + 1) = some [opcode.byte])
      (covers : Covers bytes (offset + 1) later) :
      Covers bytes offset (.ok (offset, .op opcode) :: later)

namespace Covers

variable {bytes : Bytes} {offset : Nat}

theorem cons {instruction : Instruction} {later : List Item}
    (wellFormed : instruction.WellFormed)
    (stands : bytes.between? offset (offset + instruction.size) = some instruction.encode)
    (covers : Covers bytes (offset + instruction.size) later) :
    Covers bytes offset (.ok (offset, instruction) :: later) := by
  cases instruction with
  | op opcode => exact .op wellFormed stands covers
  | push form data =>
      have size : (form.opcode data.length).headerLength + data.length =
          (Instruction.push form data).size := by
        rw [PushForm.headerLength_opcode wellFormed, Instruction.size]
      exact .push wellFormed (by rw [size]; exact stands) (by rw [size]; exact covers)

theorem length_le {items : List Item} (covers : Covers bytes offset items) :
    offset + items.length ≤ bytes.length := by
  induction covers with
  | ended => exact Nat.le_refl _
  | @broken offset runsPast =>
      have inside : offset < bytes.length := by
        by_contra outside
        exact runsPast.ne_nil (List.drop_of_length_le (Nat.le_of_not_lt outside))
      exact inside
  | @push offset form data later fits stands covers ih =>
      rw [PushForm.headerLength_opcode fits] at ih
      rw [List.length_cons]
      omega
  | op single stands covers ih =>
      rw [List.length_cons]
      omega

theorem itemsFrom {rest : Bytes} (stands : StandsAt bytes offset rest) :
    Covers bytes offset (Script.itemsFrom offset rest) := by
  induction shorter : rest.length using Nat.strongRecOn generalizing offset rest with
  | ind length ih =>
      subst shorter
      cases found : Instruction.read? rest with
      | some split =>
          obtain ⟨instruction, later⟩ := split
          obtain ⟨standsNext, -, between⟩ := Instruction.standsAt_of_read? stands found
          rw [itemsFrom_of_found found]
          exact .cons (Instruction.wellFormed_of_read? found) between
            (ih later.length (Instruction.read?_length found) standsNext rfl)
      | none =>
          cases rest with
          | nil =>
              have atEnd : offset = bytes.length := stands.length
              rw [itemsFrom_nil, atEnd]
              exact .ended
          | cons first tail =>
              have runsPast := Instruction.RunsPastEnd.of_read?_none found
              rw [itemsFrom_of_runsPastEnd runsPast]
              rw [← stands.drop] at runsPast
              exact .broken runsPast

/-- Nothing else covers them. -/
theorem eq_itemsFrom {items : List Item} {rest : Bytes} (covers : Covers bytes offset items)
    (stands : StandsAt bytes offset rest) : items = Script.itemsFrom offset rest := by
  induction covers generalizing rest with
  | ended =>
      have nothing : rest = [] := by rw [← stands.drop, List.drop_length]
      rw [nothing, itemsFrom_nil]
  | broken runsPast =>
      rw [stands.drop] at runsPast
      exact (itemsFrom_of_runsPastEnd runsPast).symm
  | @push offset form data later fits between covers ih =>
      have wellFormed : (Instruction.push form data).WellFormed := fits
      rw [PushForm.headerLength_opcode fits] at between ih
      obtain ⟨rest, found, standsNext⟩ :=
        Instruction.exists_read?_of_between? wellFormed stands between
      rw [itemsFrom_of_found found]
      exact congrArg _ (ih standsNext)
  | @op offset opcode later single between covers ih =>
      have wellFormed : (Instruction.op opcode).WellFormed := single
      obtain ⟨rest, found, standsNext⟩ :=
        Instruction.exists_read?_of_between? wellFormed stands between
      rw [itemsFrom_of_found found]
      exact congrArg _ (ih standsNext)

theorem iff_eq_itemsFrom {items : List Item} {rest : Bytes} (stands : StandsAt bytes offset rest) :
    Covers bytes offset items ↔ items = Script.itemsFrom offset rest := by
  constructor
  · intro covers
    exact covers.eq_itemsFrom stands
  · rintro rfl
    exact .itemsFrom stands

end Covers

end Script

/-! ## The cursor -/

structure ScriptCursor where
  bytes : Bytes
  position : Nat
  failed : Bool

namespace ScriptCursor

/-- The answer to a call, and the cursor after it. -/
def next (cursor : ScriptCursor) : Option Script.Item × ScriptCursor :=
  if cursor.failed = true ∨ cursor.bytes.length ≤ cursor.position then
    (none, cursor)
  else
    match Instruction.readAt? cursor.bytes cursor.position with
    | some (instruction, past) =>
        (some (.ok (cursor.position, instruction)), { cursor with position := past })
    | none => (some (.error .badOpcode), { cursor with failed := true })

def answer (cursor : ScriptCursor) : Nat → Option Script.Item
  | 0 => cursor.next.1
  | earlier + 1 => cursor.next.2.answer earlier

/-- The items that a cursor has not answered yet. -/
inductive Owes : ScriptCursor → List Script.Item → Prop where
  | running {bytes rest : Bytes} {position : Nat} (stands : StandsAt bytes position rest) :
      Owes ⟨bytes, position, false⟩ (Script.itemsFrom position rest)
  | stopped (bytes : Bytes) (position : Nat) : Owes ⟨bytes, position, true⟩ []

/-- A call answers the first item that is owed, if there is one, and the others are owed
afterwards. -/
theorem Owes.next {cursor : ScriptCursor} {items : List Script.Item} (owes : cursor.Owes items) :
    cursor.next.1 = items.head? ∧ cursor.next.2.Owes items.tail := by
  cases owes with
  | stopped bytes position => exact ⟨rfl, .stopped bytes position⟩
  | @running bytes rest position stands =>
      have length := stands.length
      rw [ScriptCursor.next]
      dsimp only
      cases found : Instruction.read? rest with
      | some split =>
          obtain ⟨instruction, later⟩ := split
          obtain ⟨standsNext, reads, -⟩ := Instruction.standsAt_of_read? stands found
          have inside := (Instruction.lt_of_readAt? reads).1
          rw [if_neg (by simp [Nat.not_le_of_lt inside]), reads, Script.itemsFrom_of_found found]
          exact ⟨rfl, .running standsNext⟩
      | none =>
          cases rest with
          | nil =>
              rw [if_pos (.inr (Nat.le_of_eq length.symm)), Script.itemsFrom_nil]
              refine ⟨rfl, ?_⟩
              have running := Owes.running stands
              rwa [Script.itemsFrom_nil] at running
          | cons first tail =>
              have inside : position < bytes.length := by
                rw [← length, List.length_cons]
                omega
              rw [if_neg (by simp [Nat.not_le_of_lt inside]),
                Instruction.readAt?_of_stuck stands found,
                Script.itemsFrom_of_runsPastEnd (.of_read?_none found)]
              exact ⟨rfl, .stopped bytes position⟩

theorem Owes.answer {cursor : ScriptCursor} {items : List Script.Item} (owes : cursor.Owes items)
    (earlier : Nat) : cursor.answer earlier = items[earlier]? := by
  induction earlier generalizing cursor items with
  | zero =>
      rw [ScriptCursor.answer, owes.next.1, List.head?_eq_getElem?]
  | succ earlier ih =>
      rw [ScriptCursor.answer, ih owes.next.2, List.getElem?_tail]

end ScriptCursor

namespace Script

def cursor (script : Script) : ScriptCursor :=
  ⟨script.bytes, 0, false⟩

theorem answer_cursor (script : Script) (earlier : Nat) :
    script.cursor.answer earlier = script.items[earlier]? :=
  ScriptCursor.Owes.answer (.running (.start script.bytes)) earlier

theorem getElem?_items_of_not_ok {script : Script} {earlier : Nat}
    (notOk : ∀ placed, script.items[earlier]? ≠ some (.ok placed)) (more : Nat) :
    script.items[earlier + 1 + more]? = none := by
  have past : script.placed.length ≤ earlier := by
    by_contra inside
    have inside := Nat.lt_of_not_le inside
    refine notOk script.placed[earlier] ?_
    rw [items, List.getElem?_append_left (by rwa [List.length_map]), List.getElem?_map,
      List.getElem?_eq_getElem inside]
    rfl
  refine List.getElem?_eq_none ?_
  rw [items, List.length_append, List.length_map]
  split
  · rw [List.length_nil]
    omega
  · rw [List.length_singleton]
    omega

/-- Going over a script yields as many items as it has bytes or fewer, each call one more, until
there are no more.  They are the only items that cover the script from offset zero to its end,
and they are its whole instructions with their offsets, and a failure if something is left over.
After a failure, or without an answer, no call is answered any more. -/
theorem instructions_partition_the_script (script : Script) :
    (∀ earlier, script.cursor.answer earlier = script.items[earlier]?) ∧
    script.items.length ≤ script.length ∧
    (∀ items, Covers script.bytes 0 items ↔ items = script.items) ∧
    (∀ earlier, (∀ placed, script.cursor.answer earlier ≠ some (.ok placed)) →
      ∀ more, script.cursor.answer (earlier + 1 + more) = none) := by
  have start := StandsAt.start script.bytes
  refine ⟨script.answer_cursor, ?_, fun items => Covers.iff_eq_itemsFrom start, ?_⟩
  · have fits := (Covers.itemsFrom start).length_le
    rwa [Nat.zero_add] at fits
  · intro earlier notOk more
    rw [script.answer_cursor] at notOk ⊢
    exact getElem?_items_of_not_ok notOk more

/-- Pushes of three forms and a number, and a push of five bytes of which one is there. -/
def pushesCutShort : Script :=
  ⟨[0x00, 0x02, 0xaa, 0xbb, 0x4c, 0x01, 0xcc, 0x51, 0x4d, 0x05, 0x00, 0x01]⟩

/-- Four instructions are answered, then the failure, and then nothing. -/
theorem pushesCutShort_is_partitioned :
    pushesCutShort.items =
      [.ok (0, .push .direct []), .ok (1, .push .direct [0xaa, 0xbb]),
        .ok (4, .push .oneByte [0xcc]), .ok (7, .op .one), .error .badOpcode] ∧
    Covers pushesCutShort.bytes 0 pushesCutShort.items ∧
    pushesCutShort.cursor.answer 4 = some (.error .badOpcode) ∧
    ∀ more, pushesCutShort.cursor.answer (5 + more) = none := by
  obtain ⟨answers, -, covers, ends⟩ := instructions_partition_the_script pushesCutShort
  have items : pushesCutShort.items =
      [.ok (0, .push .direct []), .ok (1, .push .direct [0xaa, 0xbb]),
        .ok (4, .push .oneByte [0xcc]), .ok (7, .op .one), .error .badOpcode] := by
    decide +kernel
  have failure : pushesCutShort.cursor.answer 4 = some (.error .badOpcode) := by
    rw [answers, items]
    rfl
  refine ⟨items, (covers _).mpr rfl, failure, ends 4 fun placed isOk => ?_⟩
  rw [failure] at isOk
  cases isOk

end Script

end CoinSpend
