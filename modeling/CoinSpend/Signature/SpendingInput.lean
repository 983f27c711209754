import CoinSpend.Interpreter.Checker
import CoinSpend.Limits
import CoinSpend.Signature.Digest

/-!
# The checker of a transaction

Scripts are evaluated for one input of a transaction, which answers their
questions: signatures sign its digests, and its lock times must have been reached
by those of the transaction.
-/

namespace CoinSpend

/-- An input of a transaction, with the value of the coin it spends and the digests
that all inputs share. -/
structure SpendingInput where
  transaction : Transaction
  shared : Midstate
  index : Nat
  value : Int64

namespace SpendingInput

def input? (spending : SpendingInput) : Option Input :=
  spending.transaction.inputs[spending.index]?

/-- Whether a signature with a hash type at its end holds for a key.  The second
number of the signature may be in either half. -/
def checkSignature (spending : SpendingInput) (signature key : Bytes) (script : Script)
    (version : SignatureVersion) : Bool :=
  match Secp256k1.publicKey? key, signature.getLast? with
  | some point, some hashType =>
      match spending.transaction.signatureDigest spending.shared spending.index script
          spending.value hashType.toUInt32 version,
          Secp256k1.lenientSignature? signature.dropLast with
      | .ok digest, some numbers => numbers.normalized.verifies digest.bytes point
      | _, _ => false
  | _, _ => false

/-- Whether a lock time has been reached.  Heights and times are not compared, and
an input with the final sequence number has no lock time. -/
def checkLockTime (spending : SpendingInput) (operand : Int) : Bool :=
  match spending.input? with
  | none => false
  | some input =>
      let own : Int := spending.transaction.lockTime.toNat
      let threshold : Int := Limits.lockTimeThreshold
      (decide (own < threshold) == decide (operand < threshold)) &&
        operand ≤ own && input.sequence != Limits.finalSequence

/-- The bits of a sequence number that are compared. -/
def sequenceMask : UInt32 :=
  Limits.sequenceTypeFlag ||| Limits.sequenceValueMask

/-- Whether a relative lock time has been reached.  Only the type and the value of
the operand count. -/
def checkSequence (spending : SpendingInput) (operand : Int) : Bool :=
  match spending.input? with
  | none => false
  | some input =>
      let own := input.sequence &&& sequenceMask
      let asked := (Int32.ofInt operand).toUInt32 &&& sequenceMask
      2 ≤ spending.transaction.version.toUInt32 &&
        input.sequence &&& Limits.sequenceDisableFlag == 0 &&
        (decide (own < Limits.sequenceTypeFlag) ==
          decide (asked < Limits.sequenceTypeFlag)) &&
        asked ≤ own

def checker (spending : SpendingInput) : Checker where
  signature := spending.checkSignature
  lockTime := spending.checkLockTime
  sequence := spending.checkSequence

end SpendingInput

/-- Whether the answer to a question looks at the shared digests: a signature of a
witness script that has a hash type and a readable key. -/
def Question.usesMidstate : Question → Bool
  | .signature signed key _ .witnessV0 =>
      !signed.isEmpty && (Secp256k1.publicKey? key).isSome
  | _ => false

end CoinSpend
