import CoinSpend.Coin
import CoinSpend.Flags
import CoinSpend.Script.SignatureCount
import CoinSpend.Script.Template
import CoinSpend.Sum

/-!
# The cost of signature checks

Checks outside witnesses weigh four, checks in witnesses one.
-/

namespace CoinSpend

/-- The checks in the scripts of the transaction itself. -/
def Transaction.ownChecks (transaction : Transaction) : Nat :=
  sumOf (fun input => input.unlocking.signatureChecks false) transaction.inputs +
    sumOf (fun output => output.locking.signatureChecks false) transaction.outputs

/-- The checks in the script whose hash a coin names. -/
def Input.redeemChecks (input : Input) (coin : Coin) : Nat :=
  if coin.locking.isPayToScriptHash then
    match input.unlocking.redeemScript? with
    | some redeem => redeem.signatureChecks true
    | none => 0
  else
    0

/-- The checks of a witness program. -/
def WitnessProgram.checks (program : WitnessProgram) (witness : Witness) : Nat :=
  if program.version = 0 then
    if program.data.length = 20 then
      1
    else if program.data.length = 32 then
      match witness.getLast? with
      | some script => (Script.mk script).signatureChecks true
      | none => 0
    else
      0
  else
    0

/-- The witness program that a spend follows: that of the locking script, or of the
script whose hash it names. -/
def followedProgram? (unlocking locking : Script) : Option WitnessProgram :=
  match locking.witnessProgram? with
  | some program => some program
  | none =>
      if locking.isPayToScriptHash then
        unlocking.redeemScript?.bind Script.witnessProgram?
      else
        none

/-- The checks in a witness. -/
def witnessChecks (unlocking locking : Script) (witness : Witness) (flags : Flags) : Nat :=
  if flags.has .witness then
    match followedProgram? unlocking locking with
    | some program => program.checks witness
    | none => 0
  else
    0

namespace Transaction

/-- A sum over the inputs whose coin is in the view. -/
def sumOverCoins (transaction : Transaction) (view : CoinView) (count : Input → Coin → Nat) :
    Nat :=
  sumOf
    (fun input =>
      match view.get? input.previous with
      | some coin => count input coin
      | none => 0)
    transaction.inputs

/-- The checks in scripts whose hash is named.  A coinbase has none. -/
def redeemChecks (transaction : Transaction) (view : CoinView) : Nat :=
  if transaction.isCoinbase then 0 else transaction.sumOverCoins view Input.redeemChecks

/-- The weighted number of signature checks.  A coinbase only pays for its own
scripts. -/
def signatureCost (transaction : Transaction) (view : CoinView) (flags : Flags) : Nat :=
  let own := transaction.ownChecks * Limits.witnessScale
  if transaction.isCoinbase then
    own
  else
    own +
      (if flags.has .p2sh then transaction.redeemChecks view * Limits.witnessScale else 0) +
      transaction.sumOverCoins view fun input coin =>
        witnessChecks input.unlocking coin.locking input.witness flags

end Transaction

end CoinSpend
