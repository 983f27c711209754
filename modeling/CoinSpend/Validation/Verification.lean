import CoinSpend.Coin
import CoinSpend.Interpreter.Spend
import CoinSpend.Signature.SpendingInput

/-!
# Verifying the inputs of a transaction

Inputs are verified in order against the coins they spend, up to the first that
fails.  Inputs without a coin are passed over.
-/

namespace CoinSpend

/-- The spend that an input makes of a coin. -/
def SpendingInput.spend (spending : SpendingInput) (input : Input) (coin : Coin)
    (flags : Flags) : Spend where
  unlocking := input.unlocking
  locking := coin.locking
  witness := input.witness
  flags := flags
  checker := spending.checker

/-- What verification comes upon. -/
inductive Incident where
  | coinMissing (index : Nat)
  | inputFailed (index : Nat) (error : ScriptError)
  deriving DecidableEq, Repr

/-- The verdict on a transaction, with what was come upon and asked on the way. -/
structure Verification where
  verified : Bool
  incidents : List Incident
  asked : List Question

/-- The verdict on the single input with an index. -/
def Outcome.verification (outcome : Outcome Unit) (index : Nat) : Verification :=
  match outcome.result with
  | .ok () => ⟨true, [], outcome.asked⟩
  | .error error => ⟨false, [.inputFailed index error], outcome.asked⟩

namespace Transaction

/-- Verify the input with an index against a coin. -/
def verifyInput (transaction : Transaction) (shared : Midstate) (index : Nat) (coin : Coin)
    (flags : Flags) : Outcome Unit :=
  match transaction.inputs[index]? with
  | none => Outcome.fail .unknown
  | some input =>
      (SpendingInput.spend ⟨transaction, shared, index, coin.value⟩ input coin flags).verify

/-- Verify inputs from an index on. -/
def verifyFrom (transaction : Transaction) (shared : Midstate) (view : CoinView)
    (flags : Flags) : Nat → List Input → Verification
  | _, [] => ⟨true, [], []⟩
  | index, input :: rest =>
      match view.get? input.previous with
      | none =>
          let later := verifyFrom transaction shared view flags (index + 1) rest
          { later with incidents := .coinMissing index :: later.incidents }
      | some coin =>
          let outcome := transaction.verifyInput shared index coin flags
          match outcome.result with
          | .error error => ⟨false, [.inputFailed index error], outcome.asked⟩
          | .ok () =>
              let later := verifyFrom transaction shared view flags (index + 1) rest
              { later with asked := outcome.asked ++ later.asked }

/-- Verify every input whose coin is in the view.  A transaction without inputs
never passes, and a coinbase always does. -/
def verifyWith (transaction : Transaction) (shared : Midstate) (view : CoinView)
    (flags : Flags) : Verification :=
  if transaction.inputs.isEmpty then ⟨false, [], []⟩
  else if transaction.isCoinbase then ⟨true, [], []⟩
  else transaction.verifyFrom shared view flags 0 transaction.inputs

def verify (transaction : Transaction) (view : CoinView) (flags : Flags) : Verification :=
  transaction.verifyWith transaction.midstate view flags

end Transaction

end CoinSpend
