import CoinSpend.Bytes

/-!
# Counts and lengths on the wire

A count takes one byte, or a marker byte and two, four or eight bytes.  The
writer uses the fewest.
-/

namespace CoinSpend.Wire

/-- The bytes of a count. -/
def compactSize (number : Nat) : Bytes :=
  if number < 0xfd then [UInt8.ofNat number]
  else if number ≤ 0xffff then 0xfd :: Bytes.littleEndian 2 number
  else if number ≤ 0xffffffff then 0xfe :: Bytes.littleEndian 4 number
  else 0xff :: Bytes.littleEndian 8 number

/-- How many bytes a count takes. -/
def compactSizeLength (number : Nat) : Nat :=
  if number < 0xfd then 1
  else if number ≤ 0xffff then 3
  else if number ≤ 0xffffffff then 5
  else 9

theorem length_compactSize (number : Nat) :
    (compactSize number).length = compactSizeLength number := by
  unfold compactSize compactSizeLength
  split
  · rfl
  · split
    · simp
    · split <;> simp

/-- A byte string after its length. -/
def lengthPrefixed (bytes : Bytes) : Bytes :=
  compactSize bytes.length ++ bytes

/-- The size of a byte string after its length. -/
def lengthPrefixedSize (length : Nat) : Nat :=
  compactSizeLength length + length

theorem length_lengthPrefixed (bytes : Bytes) :
    (lengthPrefixed bytes).length = lengthPrefixedSize bytes.length := by
  simp [lengthPrefixed, lengthPrefixedSize, length_compactSize]

end CoinSpend.Wire
