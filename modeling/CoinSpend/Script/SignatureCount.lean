import CoinSpend.Limits
import CoinSpend.Script.Basic

/-!
# Counting signature checks in a script
-/

namespace CoinSpend.Script

/-- The checks that an instruction stands for.  A multiple check counts the number
right before it, if that number is trusted, and otherwise the largest number of
keys. -/
def instructionChecks (trustNumbers : Bool) (previous current : Opcode) : Nat :=
  if current = .checkSig ∨ current = .checkSigVerify then
    1
  else if current = .checkMultisig ∨ current = .checkMultisigVerify then
    if trustNumbers && previous.isSmallNumber then
      previous.byte.toNat - 0x50
    else
      Limits.maxMultisigKeys
  else
    0

/-- Add the checks of opcodes that follow `previous`. -/
def countChecks (trustNumbers : Bool) (total : Nat) (previous : Opcode) :
    List Opcode → Nat
  | [] => total
  | current :: rest =>
      countChecks trustNumbers (total + instructionChecks trustNumbers previous current)
        current rest

/-- The signature checks of a script up to its broken end. -/
def signatureChecks (script : Script) (trustNumbers : Bool) : Nat :=
  countChecks trustNumbers 0 ⟨0xff⟩ (script.instructions.map Instruction.opcode)

end CoinSpend.Script
