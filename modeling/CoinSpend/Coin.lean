import CoinSpend.Transaction.Identity
import Std.Data.HashMap

/-!
# Coins and the coin view

A coin is an output that can be spent, with what the rules need to know about
where it came from.  A view is a finite map from outpoints to coins.
-/

namespace CoinSpend

/-- The bytes of the hash after the index, read as digits of a number. -/
def OutPoint.code (outPoint : OutPoint) : UInt64 :=
  outPoint.hash.bytes.foldl (fun code byte => 31 * code + byte.toUInt64)
    outPoint.index.toUInt64

instance : Hashable OutPoint := ⟨OutPoint.code⟩

structure Coin where
  outPoint : OutPoint
  version : Int32
  /-- The height of the block, or -1 if it is unknown. -/
  height : Int
  coinbase : Bool
  value : Int64
  locking : Script
  deriving DecidableEq

namespace Coin

/-- The coin of a bare output. -/
def ofOutput (outPoint : OutPoint) (output : Output) : Coin where
  outPoint := outPoint
  version := 1
  height := -1
  coinbase := false
  value := output.value
  locking := output.locking

/-- The coin of an output of a transaction whose hash is given. -/
def ofTransactionOutput (hash : Hash256) (transaction : Transaction) (height : Int)
    (index : UInt32) (output : Output) : Coin where
  outPoint := ⟨hash, index⟩
  version := transaction.version
  height := height
  coinbase := transaction.isCoinbase
  value := output.value
  locking := output.locking

/-- The coin of the output with a given index. -/
def ofTransaction? (hash : Hash256) (transaction : Transaction) (index : UInt32)
    (height : Int) : Option Coin :=
  transaction.outputs[index.toNat]?.map
    (ofTransactionOutput hash transaction height index)

end Coin

/-- Coins by their outpoints. -/
structure CoinView where
  coins : Std.HashMap OutPoint Coin
  named : ∀ (outPoint : OutPoint) (coin : Coin),
    coins[outPoint]? = some coin → coin.outPoint = outPoint

namespace CoinView

def empty : CoinView where
  coins := ∅
  named := by
    intro outPoint coin found
    rw [Std.HashMap.getElem?_empty] at found
    cases found

/-- The coin at an outpoint. -/
def get? (view : CoinView) (outPoint : OutPoint) : Option Coin :=
  view.coins[outPoint]?

def contains (view : CoinView) (outPoint : OutPoint) : Bool :=
  view.coins.contains outPoint

/-- The view without the coin at an outpoint. -/
def erase (view : CoinView) (outPoint : OutPoint) : CoinView where
  coins := view.coins.erase outPoint
  named := by
    intro other coin found
    rw [Std.HashMap.getElem?_erase] at found
    split at found
    · cases found
    · exact view.named other coin found

/-- Put a coin at its own outpoint, in place of the one that was there. -/
def insert (view : CoinView) (coin : Coin) : CoinView where
  coins := view.coins.insert coin.outPoint coin
  named := by
    intro other found same
    rw [Std.HashMap.getElem?_insert] at same
    split at same
    · rename_i here
      cases same
      exact eq_of_beq here
    · exact view.named other found same

def insertOutput (view : CoinView) (outPoint : OutPoint) (output : Output) : CoinView :=
  view.insert (.ofOutput outPoint output)

/-- Put in the outputs of a transaction from an index on. -/
def insertOutputs (hash : Hash256) (transaction : Transaction) (height : Int)
    (view : CoinView) : Nat → List Output → CoinView
  | _, [] => view
  | index, output :: rest =>
      insertOutputs hash transaction height
        (view.insert
          (.ofTransactionOutput hash transaction height (UInt32.ofNat index) output))
        (index + 1) rest

/-- Put in every output of a transaction whose hash is given. -/
def insertTransaction (view : CoinView) (hash : Hash256) (transaction : Transaction)
    (height : Int) : CoinView :=
  insertOutputs hash transaction height view 0 transaction.outputs

/-- Take the coin at an outpoint out of the view. -/
def spend (view : CoinView) (outPoint : OutPoint) : Option Coin × CoinView :=
  (view.get? outPoint, view.erase outPoint)

def size (view : CoinView) : Nat :=
  view.coins.size

def isEmpty (view : CoinView) : Bool :=
  view.coins.isEmpty

/-! ## Looking up -/

@[simp] theorem get?_empty (outPoint : OutPoint) : empty.get? outPoint = none :=
  Std.HashMap.getElem?_empty

/-- A coin is found under its own outpoint only. -/
theorem outPoint_of_get? {view : CoinView} {outPoint : OutPoint} {coin : Coin}
    (found : view.get? outPoint = some coin) : coin.outPoint = outPoint :=
  view.named outPoint coin found

theorem contains_eq_isSome_get? (view : CoinView) (outPoint : OutPoint) :
    view.contains outPoint = (view.get? outPoint).isSome :=
  Std.HashMap.contains_eq_isSome_getElem?

@[simp] theorem get?_erase_self (view : CoinView) (outPoint : OutPoint) :
    (view.erase outPoint).get? outPoint = none := by
  simp [get?, erase]

theorem get?_erase_of_ne {view : CoinView} {erased outPoint : OutPoint}
    (different : outPoint ≠ erased) :
    (view.erase erased).get? outPoint = view.get? outPoint := by
  have skipped : ¬erased = outPoint := fun same => different same.symm
  simp [get?, erase, Std.HashMap.getElem?_erase, skipped]

@[simp] theorem get?_insert_self (view : CoinView) (coin : Coin) :
    (view.insert coin).get? coin.outPoint = some coin := by
  simp [get?, insert]

theorem get?_insert_of_ne {view : CoinView} {coin : Coin} {outPoint : OutPoint}
    (different : outPoint ≠ coin.outPoint) :
    (view.insert coin).get? outPoint = view.get? outPoint := by
  have skipped : ¬coin.outPoint = outPoint := fun same => different same.symm
  simp [get?, insert, Std.HashMap.getElem?_insert, skipped]

end CoinView

end CoinSpend
