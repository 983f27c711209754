import CoinSpend.Hash.Digest
import CoinSpend.Script.Basic

/-!
# Transactions

A transaction spends outputs of earlier transactions and creates new ones.  It
may carry witnesses, which its identity leaves out.
-/

namespace CoinSpend

/-- An output of a transaction, by the hash of the transaction and an index. -/
structure OutPoint where
  hash : Hash256
  index : UInt32
  deriving DecidableEq

namespace OutPoint

/-- The place-holder that the input of a coinbase names. -/
def null : OutPoint :=
  ⟨.zero 32, 0xffffffff⟩

def isNull (outPoint : OutPoint) : Bool :=
  outPoint.index == 0xffffffff && outPoint.hash == .zero 32

end OutPoint

/-- The elements that a witness program starts with, bottom first. -/
abbrev Witness := List Bytes

structure Input where
  previous : OutPoint
  unlocking : Script
  witness : Witness
  sequence : UInt32
  deriving DecidableEq

structure Output where
  value : Int64
  locking : Script
  deriving DecidableEq

structure Transaction where
  version : Int32
  inputs : List Input
  outputs : List Output
  lockTime : UInt32
  /-- The wire form had room for witnesses, even if all are empty. -/
  witnessFlag : Bool
  deriving DecidableEq

namespace Transaction

/-- One input, which names the place-holder. -/
def isCoinbase (transaction : Transaction) : Bool :=
  match transaction.inputs with
  | [input] => input.previous.isNull
  | _ => false

def hasWitness (transaction : Transaction) : Bool :=
  transaction.inputs.any fun input => !input.witness.isEmpty

/-- Whether the wire form has room for witnesses. -/
def usesEnvelope (transaction : Transaction) : Bool :=
  transaction.witnessFlag || transaction.hasWitness

/-- The same transaction without any trace of witnesses. -/
def withoutWitness (transaction : Transaction) : Transaction :=
  { transaction with
    inputs := transaction.inputs.map fun input => { input with witness := [] }
    witnessFlag := false }

end Transaction

end CoinSpend
