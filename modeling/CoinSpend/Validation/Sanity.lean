import CoinSpend.Transaction.Size

/-!
# Sanity of a transaction

Checks that need nothing but the transaction.  The first rule that is broken is
the answer.
-/

namespace CoinSpend

inductive SanityFault where
  | noInputs
  | noOutputs
  | oversize
  | negativeOutput
  | outputTooLarge
  | outputTotalTooLarge
  | duplicateInputs
  | coinbaseLength
  | nullInput
  deriving DecidableEq, Repr

def SanityFault.code : SanityFault → String
  | noInputs => "bad-txns-vin-empty"
  | noOutputs => "bad-txns-vout-empty"
  | oversize => "bad-txns-oversize"
  | negativeOutput => "bad-txns-vout-negative"
  | outputTooLarge => "bad-txns-vout-toolarge"
  | outputTotalTooLarge => "bad-txns-txouttotal-toolarge"
  | duplicateInputs => "bad-txns-inputs-duplicate"
  | coinbaseLength => "bad-cb-length"
  | nullInput => "bad-txns-prevout-null"

namespace Sanity

/-- Check the values of outputs after a total. -/
def outputFault? (total : Int) : List Output → Option SanityFault
  | [] => none
  | output :: rest =>
      let value := output.value.toInt
      if value < 0 then some .negativeOutput
      else if Limits.maxMoney < value then some .outputTooLarge
      else if Limits.maxMoney < total + value then some .outputTotalTooLarge
      else outputFault? (total + value) rest

/-- Whether an outpoint occurs twice. -/
def hasRepeat : List OutPoint → Bool
  | [] => false
  | outPoint :: rest => rest.contains outPoint || hasRepeat rest

/-- The unlocking script of a coinbase has 2 to 100 bytes, and other transactions
never name the place-holder. -/
def coinbaseFault? (transaction : Transaction) : Option SanityFault :=
  if transaction.isCoinbase then
    if transaction.inputs.all fun input =>
        2 ≤ input.unlocking.length && input.unlocking.length ≤ 100 then
      none
    else
      some .coinbaseLength
  else if transaction.inputs.any fun input => input.previous.isNull then
    some .nullInput
  else
    none

end Sanity

namespace Transaction

/-- The first rule of sanity that a transaction breaks. -/
def sanityFault? (transaction : Transaction) : Option SanityFault :=
  if transaction.inputs.isEmpty then some .noInputs
  else if transaction.outputs.isEmpty then some .noOutputs
  else if Limits.maxTransactionSize < transaction.baseSize then some .oversize
  else
    match Sanity.outputFault? 0 transaction.outputs with
    | some fault => some fault
    | none =>
        if Sanity.hasRepeat (transaction.inputs.map Input.previous) then
          some .duplicateInputs
        else
          Sanity.coinbaseFault? transaction

def isSane (transaction : Transaction) : Bool :=
  transaction.sanityFault?.isNone

end Transaction

end CoinSpend
