import CoinSpend.Interpreter.Context

/-!
# Multiple signature checks

From the top, the stack holds the number of keys, the keys, the number of
signatures, the signatures, and one more element that is not used.  Signatures
must be in the order of their keys.
-/

namespace CoinSpend

/-- The operands of a multiple signature check, from the top down. -/
structure MultisigOperands where
  keys : List Bytes
  signatures : List Bytes
  extra : Bytes
  rest : Stack
  deriving DecidableEq

namespace MultisigOperands

/-- Read a count from the top, and the elements below it. -/
def readCount (requireMinimal : Bool) (most : Nat) (error : ScriptError) :
    Stack → Except ScriptError (Nat × Stack)
  | top :: rest => do
      let number ← Stack.operand requireMinimal top
      if 0 ≤ number ∧ number ≤ most then .ok (number.toNat, rest) else .error error
  | [] => .error .invalidStackOperation

end MultisigOperands

namespace Context

/-- Compare signatures with keys from the top down.  A key that fits no signature is
passed over, and the check fails once fewer keys than signatures are left. -/
def matchSignatures (context : Context) (code : Script) :
    List Bytes → List Bytes → Outcome Bool
  | [], _ => return true
  | _ :: _, [] => return false
  | signature :: signatures, key :: keys => do
      let accepted ← context.checkPair code signature key
      let left := if accepted then signatures else signature :: signatures
      if keys.length < left.length then
        return false
      else
        context.matchSignatures code left keys

/-- Read the operands.  The keys count as operations. -/
def multisigOperands (context : Context) (state : State) :
    Except ScriptError (MultisigOperands × State) := do
  let (keyCount, afterKeyCount) ←
    MultisigOperands.readCount context.requireMinimal Limits.maxMultisigKeys
      .publicKeyCount state.stack
  let counted ← state.countOperations keyCount
  let (signatureCount, afterCounts) ←
    MultisigOperands.readCount context.requireMinimal keyCount .signatureCount
      (afterKeyCount.drop keyCount)
  match afterCounts.drop signatureCount with
  | extra :: rest =>
      .ok (⟨afterKeyCount.take keyCount, afterCounts.take signatureCount, extra, rest⟩,
        counted)
  | [] => .error .invalidStackOperation

/-- Check that every signature belongs to a key. -/
def checkMultisig (context : Context) (thenVerify : Bool) (state : State) :
    Outcome State := do
  let (operands, counted) ← Outcome.ofExcept (context.multisigOperands state)
  let code := context.signedScript state operands.signatures
  let accepted ← context.matchSignatures code operands.signatures operands.keys
  Outcome.require
    (accepted || !context.flags.has .nullFail || operands.signatures.all List.isEmpty)
    .nullFail
  Outcome.require
    (!context.flags.has .nullDummy || operands.extra.isEmpty) .signatureNullDummy
  let stack ← Outcome.ofExcept
    (giveAnswer thenVerify accepted .checkMultisigVerify operands.rest)
  return counted.withStack stack

end Context

end CoinSpend
