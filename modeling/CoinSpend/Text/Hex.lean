import CoinSpend.Bytes

/-!
# Hexadecimal text

Bytes are written with two lower-case digits each.  Reading accepts both cases
and names the first fault: an odd number of digits, or the first byte of the
text that is no digit.
-/

namespace CoinSpend.Text

def hexDigit (value : UInt8) : Char :=
  Char.ofNat (if value < 10 then 48 + value.toNat else 87 + value.toNat)

def hexPair (byte : UInt8) : List Char :=
  [hexDigit (byte / 16), hexDigit (byte % 16)]

def hexChars (bytes : Bytes) : List Char :=
  bytes.flatMap hexPair

/-- The lower-case hexadecimal text of a byte string. -/
def hex (bytes : Bytes) : String :=
  String.ofList (hexChars bytes)

/-- The value of an ASCII hexadecimal digit. -/
def hexValue? (digit : UInt8) : Option UInt8 :=
  if 48 ≤ digit ∧ digit ≤ 57 then
    some (digit - 48)
  else if 97 ≤ digit ∧ digit ≤ 102 then
    some (digit - 87)
  else if 65 ≤ digit ∧ digit ≤ 70 then
    some (digit - 55)
  else
    none

/-- Why a text is not the hexadecimal form of a byte string. -/
inductive HexFault where
  | oddLength
  | badDigit (digit : UInt8) (position : Nat)
  deriving DecidableEq, Repr

/-- Read pairs of digits after `done`, which is held backwards. -/
def readHexFrom (position : Nat) (done : Bytes) : Bytes → Except HexFault Bytes
  | [] => .ok done.reverse
  | [_] => .error .oddLength
  | high :: low :: rest =>
      match hexValue? high, hexValue? low with
      | some upper, some lower =>
          readHexFrom (position + 2) ((16 * upper + lower) :: done) rest
      | none, _ => .error (.badDigit high position)
      | some _, none => .error (.badDigit low (position + 1))

/-- Read the UTF-8 form of a hexadecimal text. -/
def readHexBytes (digits : Bytes) : Except HexFault Bytes :=
  if digits.length % 2 = 1 then
    .error .oddLength
  else
    readHexFrom 0 [] digits

/-- The UTF-8 encoding of a text. -/
def utf8 (text : List Char) : Bytes :=
  text.flatMap String.utf8EncodeChar

def readHex (text : List Char) : Except HexFault Bytes :=
  readHexBytes (utf8 text)

/-- Hexadecimal digits of a number without leading zeros. -/
def hexNumber (number : Nat) : String :=
  String.ofList (Nat.toDigits 16 number)

/-- A byte read as a Latin-1 character, quoted, with what cannot be printed escaped. -/
def quoteLatin1 (byte : UInt8) : String :=
  let body :=
    if byte = 0 then "\\0"
    else if byte = 9 then "\\t"
    else if byte = 10 then "\\n"
    else if byte = 13 then "\\r"
    else if byte = 39 then "\\'"
    else if byte = 92 then "\\\\"
    else if byte < 32 ∨ (127 ≤ byte ∧ byte ≤ 160) ∨ byte = 173 then
      "\\u\x7b" ++ hexNumber byte.toNat ++ "\x7d"
    else String.singleton (Char.ofNat byte.toNat)
  "'" ++ body ++ "'"

def HexFault.message : HexFault → String
  | .oddLength => "Odd number of digits"
  | .badDigit digit position =>
      "Invalid character " ++ quoteLatin1 digit ++ " at position " ++ toString position

end CoinSpend.Text
