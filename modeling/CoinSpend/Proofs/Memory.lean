import CoinSpend.Transaction.Memo

/-!
# Memory that is up to date

What is remembered about a transaction is right as long as nothing was edited since.  Then
every answer is the same as without memory.
-/

namespace CoinSpend.MemoTransaction

/-- Every digest that is remembered is the one that the transaction has now. -/
structure UpToDate (memo : MemoTransaction) : Prop where
  hash : ∀ value, memo.memory.hash = some value → value = memo.transaction.hash
  fullHash : ∀ value, memo.memory.fullHash = some value → value = memo.transaction.fullHash
  midstate : ∀ value, memo.memory.midstate = some value → value = memo.transaction.midstate

/-- Nothing that is remembered is wrong if nothing is remembered. -/
theorem fresh_upToDate (transaction : Transaction) : (fresh transaction).UpToDate :=
  ⟨nofun, nofun, nofun⟩

namespace UpToDate

variable {memo : MemoTransaction} (upToDate : memo.UpToDate)

include upToDate

theorem hash_fst : memo.hash.1 = memo.transaction.hash := by
  rw [MemoTransaction.hash]
  cases remembered : memo.memory.hash with
  | none => rfl
  | some value => exact upToDate.hash value remembered

theorem currentMidstate_eq : memo.currentMidstate = memo.transaction.midstate := by
  rw [currentMidstate]
  cases remembered : memo.memory.midstate with
  | none => rfl
  | some value => exact upToDate.midstate value remembered

theorem verify_fst (view : CoinView) (flags : Flags) :
    (memo.verify view flags).1 = memo.transaction.verify view flags := by
  rw [MemoTransaction.verify, upToDate.currentMidstate_eq]
  rfl

theorem verifyInput_fst (index : Nat) (coin : Coin) (flags : Flags) :
    (memo.verifyInput index coin flags).1 =
      memo.transaction.verifyInput memo.transaction.midstate index coin flags := by
  rw [MemoTransaction.verifyInput, upToDate.currentMidstate_eq]

theorem addTo_fst (view : CoinView) (height : Int) :
    (memo.addTo view height).1 =
      view.insertTransaction memo.transaction.hash memo.transaction height := by
  rw [← upToDate.hash_fst]
  rfl

end UpToDate

end CoinSpend.MemoTransaction
