import CoinSpend.Bytes

/-!
# Script numbers

Integers are written least significant byte first, with the sign in the top bit
of the last byte.  The empty string is zero.  A number is written in as few bytes
as its magnitude and sign bit need; reading can insist on that.
-/

namespace CoinSpend.ScriptNumber

/-- The bytes that a magnitude and a sign bit need. -/
def width (number : Int) : Nat :=
  if number = 0 then 0 else (number.natAbs.log2 + 1) / 8 + 1

/-- The sign bit of a number of `count` bytes. -/
def signBit (count : Nat) : Nat :=
  0x80 <<< (8 * (count - 1))

/-- The shortest form of a number. -/
def encode (number : Int) : Bytes :=
  let count := width number
  let sign := if number < 0 then signBit count else 0
  Bytes.littleEndian count (number.natAbs + sign)

/-- The number that a byte string stands for, whatever its length. -/
def value (bytes : Bytes) : Int :=
  let magnitude := Bytes.toNat bytes
  let sign := signBit bytes.length
  if bytes ≠ [] ∧ sign ≤ magnitude then
    -((magnitude - sign : Nat) : Int)
  else
    magnitude

/-- Whether no byte of a number could be left out. -/
def isMinimal (bytes : Bytes) : Bool :=
  match bytes.reverse with
  | [] => true
  | [last] => last &&& 0x7f != 0
  | last :: before :: _ => last &&& 0x7f != 0 || before &&& 0x80 != 0

/-- Read a number of at most `maxLength` bytes. -/
def decode? (bytes : Bytes) (requireMinimal : Bool) (maxLength : Nat) : Option Int :=
  if maxLength < bytes.length then
    none
  else if requireMinimal && !isMinimal bytes then
    none
  else
    some (value bytes)

/-- The operand size of arithmetic. -/
def operandLength : Nat := 4

/-- The operand size of lock times. -/
def lockTimeLength : Nat := 5

/-- Whether a stack element counts as true: some byte is set, other than a sign
bit alone in the last byte. -/
def isTrue : Bytes → Bool
  | [] => false
  | [last] => last != 0 && last != 0x80
  | byte :: rest => byte != 0 || isTrue rest

/-- The stack element of a truth value. -/
def ofBool (value : Bool) : Bytes :=
  if value then [1] else []

end CoinSpend.ScriptNumber
