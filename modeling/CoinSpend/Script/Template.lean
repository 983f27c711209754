import CoinSpend.Limits
import CoinSpend.Script.Basic

/-!
# Script templates

The forms of outputs that have a meaning of their own: each is built by one
function, and the two that verification looks for are recognized by another.
-/

namespace CoinSpend

/-- Why a template cannot be built. -/
inductive TemplateFault where
  | keyCount (expected given : Nat)
  | multisigParameters (required total : Nat)
  | witnessVersion (version : Nat)
  | programLength (length : Nat)
  deriving DecidableEq, Repr

def TemplateFault.message : TemplateFault → String
  | .keyCount expected given =>
      "Multisig expects " ++ toString expected ++ " keys, got " ++ toString given
  | .multisigParameters required total =>
      "Invalid multisig parameters " ++ toString required ++ "-of-" ++ toString total
  | .witnessVersion version => "Invalid witness version " ++ toString version
  | .programLength length => "Invalid witness program length " ++ toString length

/-- A version and the data that the version's rules apply to. -/
structure WitnessProgram where
  version : Nat
  data : Bytes
  deriving DecidableEq

namespace Script

/-- Signatures for `required` of `total` keys. -/
def multisig (required total : Nat) (keys : List Bytes) : Except TemplateFault Script :=
  if keys.length ≠ total then
    .error (.keyCount total keys.length)
  else if required < 1 ∨ total < required ∨ 16 < total then
    .error (.multisigParameters required total)
  else
    .ok (ofInstructions (numberOf required :: keys.map pushOf ++
      [numberOf total, .op .checkMultisig]))

/-- A script with a given hash. -/
def payToScriptHash (hash : Hash160) : Script :=
  ofInstructions [.op .hash160, pushOf hash.bytes, .op .equal]

/-- A signature for the key with a given hash. -/
def payToKeyHash (hash : Bytes) : Script :=
  ofInstructions [.op .dup, .op .hash160, pushOf hash, .op .equalVerify, .op .checkSig]

/-- A witness program. -/
def payToWitness (program : WitnessProgram) : Except TemplateFault Script :=
  match Opcode.ofSmallNumber? program.version with
  | none => .error (.witnessVersion program.version)
  | some version =>
      if program.data.length < 2 ∨ 40 < program.data.length then
        .error (.programLength program.data.length)
      else
        .ok ⟨version.byte :: (pushOf program.data).encode⟩

/-- Whether a script names the hash of another script. -/
def isPayToScriptHash (script : Script) : Bool :=
  script.length == 23 &&
    script.bytes.take 2 == [Opcode.hash160.byte, 20] &&
    script.bytes.drop 22 == [Opcode.equal.byte]

/-- The witness program of a script, if it is one: a small number and a single
push of the rest. -/
def witnessProgram? (script : Script) : Option WitnessProgram :=
  match script.bytes with
  | version :: size :: data =>
      if 2 ≤ data.length ∧ data.length ≤ 40 ∧ size.toNat = data.length then
        (Opcode.smallNumber? ⟨version⟩).map fun number => ⟨number, data⟩
      else
        none
  | _ => none

end Script

end CoinSpend
