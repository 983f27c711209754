import CoinSpend.Bytes
import CoinSpend.Script.Opcode

/-!
# Instructions

A script is a sequence of instructions: single opcodes, and pushes of data whose
length stands in the opcode or in one, two or four bytes after it.  Decoding
splits the bytes of a script into whole instructions and a rest that holds
none.  The rest is empty, or it begins with a push that runs past the end.
-/

namespace CoinSpend

/-- Where the length of a push stands. -/
inductive PushForm where
  | direct
  | oneByte
  | twoBytes
  | fourBytes
  deriving DecidableEq, Repr

namespace PushForm

/-- The bytes of the length field after the opcode. -/
def lengthWidth : PushForm → Nat
  | direct => 0
  | oneByte => 1
  | twoBytes => 2
  | fourBytes => 4

/-- The opcode of a push of `length` bytes. -/
def opcode (form : PushForm) (length : Nat) : Opcode :=
  match form with
  | direct => ⟨UInt8.ofNat length⟩
  | oneByte => .pushData1
  | twoBytes => .pushData2
  | fourBytes => .pushData4

/-- The largest length that a form can express. -/
def maxLength : PushForm → Nat
  | direct => 75
  | oneByte => 0xff
  | twoBytes => 0xffff
  | fourBytes => 0xffffffff

/-- Opcode and length field of a push. -/
def header (form : PushForm) (length : Nat) : Bytes :=
  (form.opcode length).byte :: Bytes.littleEndian form.lengthWidth length

/-- The shortest form for a length. -/
def shortest (length : Nat) : PushForm :=
  if length ≤ 75 then direct
  else if length ≤ 0xff then oneByte
  else if length ≤ 0xffff then twoBytes
  else fourBytes

/-- The form that an opcode begins, and the length if the opcode holds it. -/
def ofOpcode? (opcode : Opcode) : Option PushForm :=
  if opcode.byte ≤ 75 then some direct
  else if opcode = .pushData1 then some oneByte
  else if opcode = .pushData2 then some twoBytes
  else if opcode = .pushData4 then some fourBytes
  else none

end PushForm

inductive Instruction where
  | push (form : PushForm) (data : Bytes)
  | op (opcode : Opcode)
  deriving DecidableEq

namespace Instruction

def opcode : Instruction → Opcode
  | push form data => form.opcode data.length
  | op opcode => opcode

def data? : Instruction → Option Bytes
  | push _ data => some data
  | op _ => none

/-- The bytes of an instruction. -/
def encode : Instruction → Bytes
  | push form data => form.header data.length ++ data
  | op opcode => [opcode.byte]

/-- Whether the data fits its form, and a lone opcode is none of the pushes. -/
def WellFormed : Instruction → Prop
  | push form data => data.length ≤ form.maxLength
  | op opcode => PushForm.ofOpcode? opcode = none

/-- Split off the data of a push whose length is known. -/
def readData? (form : PushForm) (length : Nat) (bytes : Bytes) :
    Option (Instruction × Bytes) :=
  if bytes.hasAtLeast length then
    some (push form (bytes.take length), bytes.drop length)
  else
    none

/-- Split off the first instruction. -/
def read? : Bytes → Option (Instruction × Bytes)
  | [] => none
  | first :: rest =>
      match PushForm.ofOpcode? ⟨first⟩ with
      | none => some (op ⟨first⟩, rest)
      | some .direct => readData? .direct first.toNat rest
      | some form =>
          if Bytes.hasAtLeast rest form.lengthWidth then
            readData? form (Bytes.toNat (rest.take form.lengthWidth))
              (rest.drop form.lengthWidth)
          else
            none

theorem readData?_length {form : PushForm} {length : Nat} {bytes rest : Bytes}
    {instruction : Instruction}
    (found : readData? form length bytes = some (instruction, rest)) :
    rest.length ≤ bytes.length := by
  unfold readData? at found
  split at found
  · cases found
    simp
  · cases found

/-- Every instruction takes at least one byte. -/
theorem read?_length {bytes rest : Bytes} {instruction : Instruction}
    (found : read? bytes = some (instruction, rest)) : rest.length < bytes.length := by
  unfold read? at found
  split at found
  · cases found
  · split at found
    · cases found
      simp
    · exact Nat.lt_succ_of_le (readData?_length found)
    · split at found
      · have shorter := readData?_length found
        simp only [List.length_drop] at shorter
        simp only [List.length_cons]
        omega
      · cases found

/-- Split off instructions after those in `done`, which are held backwards. -/
def decodeFrom (done : List Instruction) (bytes : Bytes) : List Instruction × Bytes :=
  match _found : read? bytes with
  | none => (done.reverse, bytes)
  | some (instruction, rest) => decodeFrom (instruction :: done) rest
termination_by bytes.length
decreasing_by exact read?_length _found

/-- The whole instructions of a byte string, and the rest that holds none. -/
def decode (bytes : Bytes) : List Instruction × Bytes :=
  decodeFrom [] bytes

theorem decodeFrom_eq (done : List Instruction) (bytes : Bytes) :
    decodeFrom done bytes =
      (done.reverse ++ (decode bytes).1, (decode bytes).2) := by
  induction shorter : bytes.length using Nat.strongRecOn generalizing done bytes with
  | ind length ih =>
      subst shorter
      unfold decode
      rw [decodeFrom, decodeFrom]
      split
      · simp
      · rename_i instruction rest found
        rw [ih rest.length (read?_length found) (instruction :: done) rest rfl,
          ih rest.length (read?_length found) [instruction] rest rfl]
        simp

theorem decode_eq_of_read?_none {bytes : Bytes} (stuck : read? bytes = none) :
    decode bytes = ([], bytes) := by
  unfold decode
  rw [decodeFrom]
  split
  · rfl
  · rename_i found
    rw [stuck] at found
    cases found

theorem decode_eq_of_read?_some {bytes rest : Bytes} {instruction : Instruction}
    (found : read? bytes = some (instruction, rest)) :
    decode bytes = (instruction :: (decode rest).1, (decode rest).2) := by
  conv => lhs; unfold decode; rw [decodeFrom]
  split
  · rename_i stuck
    rw [stuck] at found
    cases found
  · rename_i other remaining same
    rw [found] at same
    cases same
    simp [decodeFrom_eq]

@[simp] theorem decode_nil : decode [] = ([], []) :=
  decode_eq_of_read?_none rfl

theorem encode_of_readData? {form : PushForm} {length : Nat} {bytes rest : Bytes}
    {instruction : Instruction} (found : readData? form length bytes = some (instruction, rest)) :
    instruction.encode ++ rest = form.header length ++ bytes := by
  unfold readData? at found
  split at found
  · rename_i enough
    have fits := (Bytes.hasAtLeast_eq_true_iff bytes length).mp enough
    cases found
    simp only [encode, List.length_take, Nat.min_eq_left fits, List.append_assoc,
      List.take_append_drop]
  · cases found

/-- A push whose length stands in the opcode begins with that opcode alone. -/
theorem header_direct (byte : UInt8) : PushForm.header .direct byte.toNat = [byte] := by
  simp [PushForm.header, PushForm.opcode, PushForm.lengthWidth, Bytes.littleEndian]

/-- A push with a length field begins with its opcode and the bytes of the field. -/
theorem header_of_field {form : PushForm} {first : UInt8} {bytes : Bytes}
    (begun : PushForm.ofOpcode? ⟨first⟩ = some form) (longer : form ≠ .direct)
    (enough : form.lengthWidth ≤ bytes.length) :
    form.header (Bytes.toNat (bytes.take form.lengthWidth)) ++ bytes.drop form.lengthWidth =
      first :: bytes := by
  have width : (bytes.take form.lengthWidth).length = form.lengthWidth := by
    rw [List.length_take, Nat.min_eq_left enough]
  have field := Bytes.littleEndian_toNat (bytes.take form.lengthWidth)
  rw [width] at field
  have opcode : (form.opcode (Bytes.toNat (bytes.take form.lengthWidth))).byte = first := by
    unfold PushForm.ofOpcode? at begun
    split at begun
    · cases begun
      exact absurd rfl longer
    · split at begun
      · rename_i same
        cases begun
        exact (congrArg Opcode.byte same).symm
      · split at begun
        · rename_i same
          cases begun
          exact (congrArg Opcode.byte same).symm
        · split at begun
          · rename_i same
            cases begun
            exact (congrArg Opcode.byte same).symm
          · cases begun
  rw [PushForm.header, opcode, field, List.cons_append, List.take_append_drop]

/-- Splitting off an instruction loses nothing. -/
theorem encode_of_read? {bytes rest : Bytes} {instruction : Instruction}
    (found : read? bytes = some (instruction, rest)) : instruction.encode ++ rest = bytes := by
  unfold read? at found
  split at found
  · cases found
  · rename_i first tail
    split at found
    · cases found
      rfl
    · rw [encode_of_readData? found, header_direct, List.singleton_append]
    · rename_i form longer begun
      split at found
      · rename_i enough
        rw [encode_of_readData? found]
        exact header_of_field begun longer
          ((Bytes.hasAtLeast_eq_true_iff _ _).mp enough)
      · cases found

/-- The instructions and the rest make up the whole byte string. -/
theorem flatMap_encode_decode (bytes : Bytes) :
    (decode bytes).1.flatMap encode ++ (decode bytes).2 = bytes := by
  induction shorter : bytes.length using Nat.strongRecOn generalizing bytes with
  | ind length ih =>
      subst shorter
      cases found : read? bytes with
      | none => simp [decode_eq_of_read?_none found]
      | some split =>
          obtain ⟨instruction, rest⟩ := split
          rw [decode_eq_of_read?_some found]
          simp only [List.flatMap_cons, List.append_assoc]
          rw [ih rest.length (read?_length found) rest rfl, encode_of_read? found]

/-- How many bytes an instruction takes. -/
def size : Instruction → Nat
  | push form data => 1 + form.lengthWidth + data.length
  | op _ => 1

theorem length_encode (instruction : Instruction) :
    instruction.encode.length = instruction.size := by
  cases instruction with
  | push form data =>
      simp only [encode, size, PushForm.header, List.length_append, List.length_cons,
        Bytes.length_littleEndian]
      omega
  | op opcode => rfl

/-- Instructions with the positions of their first bytes, from a position on. -/
def place (position : Nat) : List Instruction → List (Nat × Instruction)
  | [] => []
  | instruction :: rest =>
      (position, instruction) :: place (position + instruction.size) rest

/-- The opcode of a push of `data` in its shortest form. -/
def minimalOpcode (data : Bytes) : Opcode :=
  match data with
  | [] => .zero
  | [byte] =>
      if 1 ≤ byte ∧ byte ≤ 16 then ⟨0x50 + byte⟩
      else if byte = 0x81 then .negate1
      else ⟨1⟩
  | _ => (PushForm.shortest data.length).opcode data.length

/-- Whether an opcode is the one that pushes `data` in the fewest bytes. -/
def isMinimalPush (opcode : Opcode) (data : Bytes) : Bool :=
  opcode == minimalOpcode data

end Instruction

end CoinSpend
