import CoinSpend.Bytes
import CoinSpend.Secp256k1.Point

/-!
# ECDSA over secp256k1

Public keys in compressed, plain and hybrid form, signatures in a lenient form
of DER, and the verification equation.  Every function is total, and what
cannot be read verifies nothing.
-/

namespace CoinSpend.Secp256k1

/-- Read a public key: 33 bytes after 02 or 03, or 65 bytes after 04, 06 or 07.
The hybrid forms 06 and 07 repeat the parity of the second coordinate. -/
def publicKey? (bytes : Bytes) : Option AffinePoint :=
  match bytes with
  | [] => none
  | form :: rest =>
      if bytes.length = 33 ∧ (form = 2 ∨ form = 3) then
        (coordinate? (Bytes.bigEndianNat rest)).bind fun x => liftX? x (form == 3)
      else if bytes.length = 65 ∧ (form = 4 ∨ form = 6 ∨ form = 7) then
        match coordinate? (Bytes.bigEndianNat (rest.take 32)),
            coordinate? (Bytes.bigEndianNat (rest.drop 32)) with
        | some x, some y =>
            if onCurve x y ∧ (form = 4 ∨ y.val % 2 + 6 = form.toNat) then
              some ⟨x, y⟩
            else
              none
        | _, _ => none
      else
        none

structure Signature where
  r : Scalar
  s : Scalar
  deriving DecidableEq

/-- The bytes left after the length of the outer sequence.  A long length is
skipped without being read. -/
def skipSequenceLength? : Bytes → Option Bytes
  | [] => none
  | length :: rest =>
      if length < 128 then
        some rest
      else if Bytes.hasAtLeast rest (length.toNat - 128) then
        some (rest.drop (length.toNat - 128))
      else
        none

/-- Read a length in short or long form.  At most seven bytes of a long length
may remain after its leading zeros. -/
def lenientLength? : Bytes → Option (Nat × Bytes)
  | [] => none
  | length :: rest =>
      if length < 128 then
        some (length.toNat, rest)
      else
        let count := length.toNat - 128
        if Bytes.hasAtLeast rest count then
          let digits := (rest.take count).dropWhile (· == 0)
          if digits.length < 8 then
            some (Bytes.bigEndianNat digits, rest.drop count)
          else
            none
        else
          none

/-- Read an integer tag, its length and its content. -/
def lenientInteger? : Bytes → Option (Bytes × Bytes)
  | [] => none
  | tag :: rest =>
      if tag = 2 then
        match lenientLength? rest with
        | none => none
        | some (length, body) =>
            if Bytes.hasAtLeast body length then
              some (body.take length, body.drop length)
            else
              none
      else
        none

/-- The scalar written by unsigned big-endian bytes, if it is below the order. -/
def scalar? (bytes : Bytes) : Option Scalar :=
  let digits := bytes.dropWhile (· == 0)
  if digits.length ≤ 32 then
    let number := Bytes.bigEndianNat digits
    if small : number < groupOrder then some ⟨number, small⟩ else none
  else
    none

/-- Read a signature leniently.  If one of the two numbers is too large, both
become zero.  What follows the second number is ignored. -/
def lenientSignature? : Bytes → Option Signature
  | [] => none
  | tag :: rest =>
      if tag = 0x30 then do
        let body ← skipSequenceLength? rest
        let (first, afterFirst) ← lenientInteger? body
        let (second, _) ← lenientInteger? afterFirst
        match scalar? first, scalar? second with
        | some r, some s => some ⟨r, s⟩
        | _, _ => some ⟨0, 0⟩
      else
        none

/-- Whether the second number lies in the upper half of the scalars. -/
def Signature.isHigh (signature : Signature) : Bool :=
  groupOrder / 2 < signature.s.val

/-- The signature with its second number moved to the lower half. -/
def Signature.normalized (signature : Signature) : Signature :=
  if signature.isHigh then { signature with s := 0 - signature.s } else signature

/-- The verification equation for a message digest. -/
def Signature.verifies (signature : Signature) (message : Bytes) (key : AffinePoint) :
    Bool :=
  if signature.r = 0 ∨ signature.s = 0 then
    false
  else
    let weight := Scalar.inverse signature.s
    let digest := Scalar.ofNat (Bytes.bigEndianNat message)
    let sum := Point.combine (digest * weight) Point.generator
      (signature.r * weight) key.toPoint
    match Point.affineX? sum with
    | none => false
    | some x => x.val % groupOrder == signature.r.val

end CoinSpend.Secp256k1
