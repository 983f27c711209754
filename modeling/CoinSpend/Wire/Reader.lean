import CoinSpend.Hash.Digest
import CoinSpend.Limits
import CoinSpend.Text.Hex

/-!
# Reading wire bytes

A reader is what is left of a buffer and the position of its first byte.  A read
that fails leaves the reader where the failure was found: a field that is too
short takes nothing, a count or amount that is refused has been taken.
-/

namespace CoinSpend.Wire

/-- Why bytes cannot be read. -/
inductive DecodeFault where
  | badHex (fault : Text.HexFault)
  | unexpectedEnd (wanted position available : Nat)
  | unsafeAmount (position : Nat)
  | longCount (position : Nat)
  | lengthTooLarge (length : Nat)
  | unknownFlag (flag : UInt8)
  | trailing (count : Nat)
  deriving DecidableEq

def DecodeFault.message : DecodeFault → String
  | .badHex fault => "Invalid hex: " ++ fault.message
  | .unexpectedEnd wanted position available =>
      "Unexpected end of data: need " ++ toString wanted ++ " bytes at offset " ++
        toString position ++ ", have " ++ toString available
  | .unsafeAmount position => "Number exceeds 2^53-1 at offset " ++ toString position
  | .longCount position => "Non-canonical VarInt at offset " ++ toString position
  | .lengthTooLarge length =>
      "Length prefix " ++ toString length ++ " exceeds available data"
  | .unknownFlag flag => "Unknown transaction flag 0x" ++ Text.hex [flag]
  | .trailing count => toString count ++ " trailing bytes after transaction"

structure Reader where
  rest : Bytes
  position : Nat
  deriving DecidableEq

namespace Reader

def ofBytes (bytes : Bytes) : Reader :=
  ⟨bytes, 0⟩

def remaining (reader : Reader) : Nat :=
  reader.rest.length

def isEmpty (reader : Reader) : Bool :=
  reader.rest.isEmpty

/-- The byte at an offset from the position, which stays where it is. -/
def peek? (reader : Reader) (offset : Nat) : Option UInt8 :=
  reader.rest[offset]?

/-- The reader after `count` more bytes. -/
def advance (reader : Reader) (count : Nat) : Reader :=
  ⟨reader.rest.drop count, reader.position + count⟩

end Reader

/-- A read either fails or gives a value; the reader moves in both cases. -/
abbrev Decoder := ExceptT DecodeFault (StateM Reader)

namespace Decoder

/-- Run a read. -/
def runOn {α : Type} (decoder : Decoder α) (reader : Reader) :
    Except DecodeFault α × Reader :=
  (ExceptT.run decoder).run reader

/-- Exactly `size` bytes. -/
def fixed (size : Nat) : Decoder (Digest size) := do
  let reader ← get
  if enough : reader.rest.hasAtLeast size = true then
    set (reader.advance size)
    return ⟨reader.rest.take size, by
      rw [List.length_take]
      exact Nat.min_eq_left ((Bytes.hasAtLeast_eq_true_iff _ _).mp enough)⟩
  else
    throw (.unexpectedEnd size reader.position reader.remaining)

def bytes (count : Nat) : Decoder Bytes := do
  return (← fixed count).bytes

/-- An unsigned number in `width` bytes. -/
def unsigned (width : Nat) : Decoder Nat := do
  return Bytes.toNat (← bytes width)

def uint8 : Decoder UInt8 := do
  return UInt8.ofNat (← unsigned 1)

def uint32 : Decoder UInt32 := do
  return UInt32.ofNat (← unsigned 4)

def int32 : Decoder Int32 := do
  return (← uint32).toInt32

def int64 : Decoder Int64 := do
  return (UInt64.ofNat (← unsigned 8)).toInt64

def hash256 : Decoder Hash256 :=
  fixed 32

/-- A signed amount whose magnitude stays below 2^53. -/
def amount : Decoder Int64 := do
  let start := (← get).position
  let value ← int64
  if Limits.maxSafeInteger < value.toInt ∨ value.toInt < -Limits.maxSafeInteger then
    throw (.unsafeAmount start)
  return value

/-- The rest of a count after its marker, refused if fewer bytes would do. -/
def markedCount (start width least : Nat) : Decoder Nat := do
  let number ← unsigned width
  if number < least then
    throw (.longCount start)
  return number

/-- A count in its shortest form. -/
def count : Decoder Nat := do
  let start := (← get).position
  let first ← uint8
  if first = 0xfd then
    markedCount start 2 0xfd
  else if first = 0xfe then
    markedCount start 4 0x10000
  else if first = 0xff then
    markedCount start 8 0x100000000
  else
    return first.toNat

/-- A count of things of which each takes a byte or more. -/
def length : Decoder Nat := do
  let number ← count
  let reader ← get
  if Limits.maxVectorSize < number ∨ ¬reader.rest.hasAtLeast number then
    throw (.lengthTooLarge number)
  return number

/-- A byte string after its length. -/
def lengthPrefixed : Decoder Bytes := do
  bytes (← length)

/-- Read `number` things after those in `done`, which are held backwards. -/
def repeatedFrom {α : Type} (decoder : Decoder α) (done : List α) : Nat → Decoder (List α)
  | 0 => return done.reverse
  | number + 1 => do
      let item ← decoder
      repeatedFrom decoder (item :: done) number

/-- Read the same kind of thing a number of times. -/
def repeated {α : Type} (number : Nat) (decoder : Decoder α) : Decoder (List α) :=
  repeatedFrom decoder [] number

end Decoder

end CoinSpend.Wire
