import CoinSpend.Transaction.Basic

/-!
# Edits of a transaction

An edit changes one field.  An edit at a position that does not exist changes
nothing.
-/

namespace CoinSpend

inductive TransactionEdit where
  | setVersion (version : Int32)
  | setLockTime (lockTime : UInt32)
  | setWitnessFlag (flag : Bool)
  | setPrevious (position : Nat) (previous : OutPoint)
  | setSequence (position : Nat) (sequence : UInt32)
  | setUnlocking (position : Nat) (unlocking : Script)
  | setWitness (position : Nat) (witness : Witness)
  | setValue (position : Nat) (value : Int64)
  | setLocking (position : Nat) (locking : Script)
  | pushInput (input : Input)
  | pushOutput (output : Output)
  | popInput
  | popOutput

namespace Transaction

def modifyInput (transaction : Transaction) (position : Nat) (change : Input → Input) :
    Transaction :=
  { transaction with inputs := transaction.inputs.modify position change }

def modifyOutput (transaction : Transaction) (position : Nat) (change : Output → Output) :
    Transaction :=
  { transaction with outputs := transaction.outputs.modify position change }

def edit (transaction : Transaction) : TransactionEdit → Transaction
  | .setVersion version => { transaction with version := version }
  | .setLockTime lockTime => { transaction with lockTime := lockTime }
  | .setWitnessFlag flag => { transaction with witnessFlag := flag }
  | .setPrevious position previous =>
      transaction.modifyInput position fun input => { input with previous := previous }
  | .setSequence position sequence =>
      transaction.modifyInput position fun input => { input with sequence := sequence }
  | .setUnlocking position unlocking =>
      transaction.modifyInput position fun input => { input with unlocking := unlocking }
  | .setWitness position witness =>
      transaction.modifyInput position fun input => { input with witness := witness }
  | .setValue position value =>
      transaction.modifyOutput position fun output => { output with value := value }
  | .setLocking position locking =>
      transaction.modifyOutput position fun output => { output with locking := locking }
  | .pushInput input => { transaction with inputs := transaction.inputs ++ [input] }
  | .pushOutput output => { transaction with outputs := transaction.outputs ++ [output] }
  | .popInput => { transaction with inputs := transaction.inputs.dropLast }
  | .popOutput => { transaction with outputs := transaction.outputs.dropLast }

end Transaction

end CoinSpend
