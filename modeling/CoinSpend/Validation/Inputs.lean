import CoinSpend.Coin
import CoinSpend.Limits

/-!
# Values and maturity of inputs

Every input must spend a coin of the view, coinbase coins must be old enough, and
a transaction must not pay out more than it takes in.
-/

namespace CoinSpend

inductive InputFault where
  | missingCoin
  | immatureCoinbase
  | inputValueRange
  | outputValueRange
  | outputTotalTooLarge
  | belowOutputs
  | feeRange
  deriving DecidableEq, Repr

def InputFault.code : InputFault → String
  | missingCoin => "bad-txns-inputs-missingorspent"
  | immatureCoinbase => "bad-txns-premature-spend-of-coinbase"
  | inputValueRange => "bad-txns-inputvalues-outofrange"
  | outputValueRange => "bad-txns-vout-outofrange"
  | outputTotalTooLarge => "bad-txns-txouttotal-toolarge"
  | belowOutputs => "bad-txns-in-belowout"
  | feeRange => "bad-txns-fee-outofrange"

/-- Whether a value lies between zero and all the money there is. -/
def isMoney (value : Int) : Bool :=
  0 ≤ value && value ≤ Limits.maxMoney

/-- Whether a coinbase coin is too young to be spent at a height.  Unknown heights
are old enough. -/
def Coin.isImmature (coin : Coin) (height : Int) : Bool :=
  coin.coinbase && height != -1 && coin.height != -1 &&
    height - coin.height < Limits.coinbaseMaturity

namespace InputCheck

/-- The value of the coins that inputs spend, after a total. -/
def inputTotal (view : CoinView) (height : Int) (total : Int) :
    List Input → Except InputFault Int
  | [] => .ok total
  | input :: rest =>
      match view.get? input.previous with
      | none => .error .missingCoin
      | some coin =>
          let value := coin.value.toInt
          if coin.isImmature height then .error .immatureCoinbase
          else if !isMoney value then .error .inputValueRange
          else if Limits.maxMoney < total + value then .error .inputValueRange
          else inputTotal view height (total + value) rest

/-- The value of outputs, after a total. -/
def outputTotal (total : Int) : List Output → Except InputFault Int
  | [] => .ok total
  | output :: rest =>
      let value := output.value.toInt
      if !isMoney value then .error .outputValueRange
      else if Limits.maxMoney < total + value then .error .outputTotalTooLarge
      else outputTotal (total + value) rest

end InputCheck

namespace Transaction

/-- The fee of a transaction that takes in enough, or the first fault. -/
def checkedFee (transaction : Transaction) (view : CoinView) (height : Int) :
    Except InputFault Int := do
  let taken ← InputCheck.inputTotal view height 0 transaction.inputs
  let paid ← InputCheck.outputTotal 0 transaction.outputs
  if taken < paid then .error .belowOutputs
  else if Limits.maxMoney < taken - paid then .error .feeRange
  else .ok (taken - paid)

/-- The first rule about inputs that a transaction breaks at a height. -/
def inputFault? (transaction : Transaction) (view : CoinView) (height : Int) :
    Option InputFault :=
  match transaction.checkedFee view height with
  | .ok _ => none
  | .error fault => some fault

end Transaction

/-- A number, if it fits 64 bits with a sign. -/
def fitted? (number : Int) : Option Int :=
  if -0x8000000000000000 ≤ number ∧ number ≤ 0x7fffffffffffffff then some number else none

/-- The sum of values after a total, as long as every partial sum fits. -/
def sumFrom? (total : Int) : List Int → Option Int
  | [] => some total
  | value :: rest =>
      match fitted? (total + value) with
      | some sum => sumFrom? sum rest
      | none => none

namespace Transaction

def outputValue? (transaction : Transaction) : Option Int :=
  sumFrom? 0 (transaction.outputs.map fun output => output.value.toInt)

/-- The value of the coins spent.  There is none if a coin is missing. -/
def inputValue? (transaction : Transaction) (view : CoinView) : Option Int := do
  let coins ← transaction.inputs.mapM fun input => view.get? input.previous
  sumFrom? 0 (coins.map fun coin => coin.value.toInt)

/-- What inputs bring beyond the outputs, which can be negative. -/
def fee? (transaction : Transaction) (view : CoinView) : Option Int := do
  fitted? ((← transaction.inputValue? view) - (← transaction.outputValue?))

end Transaction

end CoinSpend
