import CoinSpend.Flags
import CoinSpend.Script.Error
import CoinSpend.Secp256k1.Ecdsa

/-!
# Forms of signatures and public keys

A signature is strict DER and one byte of hash type after it.  Flags decide
which of the rules of form are enforced.
-/

namespace CoinSpend

/-- Which rules a script is evaluated under. -/
inductive SignatureVersion where
  /-- Scripts outside witnesses. -/
  | base
  /-- Witness programs of version zero. -/
  | witnessV0
  deriving DecidableEq, Repr

namespace Signature

/-- Whether bytes are a positive integer without a needless zero in front. -/
def isDerInteger : Bytes → Bool
  | [] => false
  | [byte] => byte < 0x80
  | first :: second :: _ => first < 0x80 && !(first == 0 && second < 0x80)

/-- Split off a tag, a length in one byte, and an integer of that length. -/
def readDerInteger? : Bytes → Option (Bytes × Bytes)
  | tag :: length :: rest =>
      if tag = 0x02 ∧ Bytes.hasAtLeast rest length.toNat ∧
          isDerInteger (rest.take length.toNat) then
        some (rest.take length.toNat, rest.drop length.toNat)
      else
        none
  | _ => none

/-- The two integers and the hash type of a strict DER signature. -/
def readStrict? (signature : Bytes) : Option (Bytes × Bytes × UInt8) :=
  match signature with
  | tag :: length :: body =>
      if tag = 0x30 ∧ length.toNat + 3 = signature.length ∧ signature.length ≤ 73 then do
        let (r, afterFirst) ← readDerInteger? body
        let (s, afterSecond) ← readDerInteger? afterFirst
        match afterSecond with
        | [hashType] => some (r, s, hashType)
        | _ => none
      else
        none
  | _ => none

def isStrict (signature : Bytes) : Bool :=
  (readStrict? signature).isSome

/-- Whether the second number of a strict signature is in the lower half.  One that
cannot be read is not. -/
def isLow (signature : Bytes) : Bool :=
  match Secp256k1.lenientSignature? signature.dropLast with
  | some numbers => !numbers.isHigh
  | none => false

/-- Whether the last byte names one of the three hash types, with or without the
bit for a single input. -/
def hasKnownHashType (signature : Bytes) : Bool :=
  match signature.getLast? with
  | some hashType => let kind := hashType &&& 0x7f; 1 ≤ kind && kind ≤ 3
  | none => false

/-- Enforce the form of a signature.  The empty signature always passes, so that a
failed check can be written down. -/
def checkEncoding (signature : Bytes) (flags : Flags) : Except ScriptError Unit :=
  if signature = [] then
    .ok ()
  else if (flags.has .strictDer || flags.has .lowS || flags.has .strictEncoding) &&
      !isStrict signature then
    .error .signatureDer
  else if flags.has .lowS && !isLow signature then
    .error .signatureHighS
  else if flags.has .strictEncoding && !hasKnownHashType signature then
    .error .signatureHashType
  else
    .ok ()

end Signature

namespace PublicKey

def isCompressed (key : Bytes) : Bool :=
  key.length == 33 && (key.head? == some 0x02 || key.head? == some 0x03)

def isPlain (key : Bytes) : Bool :=
  key.length == 65 && key.head? == some 0x04

/-- Enforce the form of a public key. -/
def checkEncoding (key : Bytes) (flags : Flags) (version : SignatureVersion) :
    Except ScriptError Unit :=
  if flags.has .strictEncoding && !(isCompressed key || isPlain key) then
    .error .publicKeyType
  else if flags.has .compressedKeys && version == .witnessV0 && !isCompressed key then
    .error .witnessPublicKeyType
  else
    .ok ()

end PublicKey

end CoinSpend
