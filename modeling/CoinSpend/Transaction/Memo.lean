import CoinSpend.Transaction.Edit
import CoinSpend.Validation.Verification

/-!
# Remembered digests

A transaction can be kept together with the digests that were asked for.  A digest
is computed at the first question and then remembered, also when fields change
afterwards, until the memory is cleared.  A copy starts without memory.
-/

namespace CoinSpend

structure DigestMemory where
  hash : Option Hash256
  fullHash : Option Hash256
  midstate : Option Midstate
  deriving DecidableEq

def DigestMemory.empty : DigestMemory :=
  ⟨none, none, none⟩

/-- A transaction with what is remembered about it. -/
structure MemoTransaction where
  transaction : Transaction
  memory : DigestMemory
  deriving DecidableEq

namespace MemoTransaction

/-- A transaction about which nothing is remembered. -/
def fresh (transaction : Transaction) : MemoTransaction :=
  ⟨transaction, .empty⟩

/-- Forget every digest. -/
def refresh (memo : MemoTransaction) : MemoTransaction :=
  fresh memo.transaction

/-- An independent copy, which remembers nothing. -/
def copy (memo : MemoTransaction) : MemoTransaction :=
  fresh memo.transaction

/-- Whether two transactions are the same.  What is remembered does not count. -/
def same (left right : MemoTransaction) : Bool :=
  left.transaction == right.transaction

/-- Change a field.  What is remembered stays as it is. -/
def edit (memo : MemoTransaction) (edit : TransactionEdit) : MemoTransaction :=
  { memo with transaction := memo.transaction.edit edit }

def hash (memo : MemoTransaction) : Hash256 × MemoTransaction :=
  let value := memo.memory.hash.getD memo.transaction.hash
  (value, { memo with memory := { memo.memory with hash := some value } })

/-- Without any witness this is the hash, and is remembered as such. -/
def witnessHash (memo : MemoTransaction) : Hash256 × MemoTransaction :=
  if memo.transaction.hasWitness then
    let value := memo.memory.fullHash.getD memo.transaction.fullHash
    (value, { memo with memory := { memo.memory with fullHash := some value } })
  else
    memo.hash

/-- The shared digests that the next question will use. -/
def currentMidstate (memo : MemoTransaction) : Midstate :=
  memo.memory.midstate.getD memo.transaction.midstate

def rememberMidstate (memo : MemoTransaction) : MemoTransaction :=
  { memo with memory := { memo.memory with midstate := some memo.currentMidstate } }

def midstate (memo : MemoTransaction) : Midstate × MemoTransaction :=
  (memo.currentMidstate, memo.rememberMidstate)

/-- Remember the shared digests if one of the questions looked at them. -/
def rememberAsked (memo : MemoTransaction) (asked : List Question) : MemoTransaction :=
  if asked.any Question.usesMidstate then memo.rememberMidstate else memo

/-- The digest that a signature signs.  The witness version uses the shared digests,
if the input exists. -/
def signatureDigest (memo : MemoTransaction) (index : Nat) (script : Script) (value : Int64)
    (hashType : HashType) (version : SignatureVersion) :
    Except InputIndexFault Hash256 × MemoTransaction :=
  let digest := memo.transaction.signatureDigest memo.currentMidstate index script value
    hashType version
  let uses := version == .witnessV0 && index < memo.transaction.inputs.length
  (digest, if uses then memo.rememberMidstate else memo)

/-- Verify the input with an index against a coin. -/
def verifyInput (memo : MemoTransaction) (index : Nat) (coin : Coin) (flags : Flags) :
    Outcome Unit × MemoTransaction :=
  let outcome := memo.transaction.verifyInput memo.currentMidstate index coin flags
  (outcome, memo.rememberAsked outcome.asked)

/-- Verify every input whose coin is in the view. -/
def verify (memo : MemoTransaction) (view : CoinView) (flags : Flags) :
    Verification × MemoTransaction :=
  let verification := memo.transaction.verifyWith memo.currentMidstate view flags
  (verification, memo.rememberAsked verification.asked)

/-- The coin of the output with an index.  Only an output that exists needs the hash. -/
def coin? (memo : MemoTransaction) (index : UInt32) (height : Int) :
    Option Coin × MemoTransaction :=
  if index.toNat < memo.transaction.outputs.length then
    let (hash, next) := memo.hash
    (Coin.ofTransaction? hash memo.transaction index height, next)
  else
    (none, memo)

/-- Put every output into a view. -/
def addTo (memo : MemoTransaction) (view : CoinView) (height : Int) :
    CoinView × MemoTransaction :=
  let (hash, next) := memo.hash
  (view.insertTransaction hash memo.transaction height, next)

end MemoTransaction

end CoinSpend
