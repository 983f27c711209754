import CoinSpend.Proofs.Memory
import CoinSpend.Proofs.Sanity

/-!
# What an accepted transaction does to the money

Three checks accept a transaction, and none of them is enough alone: sanity finds inputs
that name the same coin, the rules about inputs find missing coins and missing money, and
verification finds spends that are not allowed but passes over missing coins.  Together they
make the fee all that is lost when the coins are spent and the outputs are added.
-/

namespace CoinSpend

namespace Transaction

variable {transaction : Transaction} {view : CoinView} {flags : Flags}

/-! ## Verified inputs -/

theorem verifyFrom_verified_iff {shared : Midstate} {start : Nat} {inputs : List Input}
    {coins : List Coin} (found : view.Finds inputs coins) :
    (transaction.verifyFrom shared view flags start inputs).verified = true ↔
      ∀ offset coin, coins[offset]? = some coin →
        (transaction.verifyInput shared (start + offset) coin flags).result = .ok () := by
  induction inputs generalizing start coins with
  | nil =>
      rw [found.eq_nil]
      exact ⟨fun _ _ _ => nofun, fun _ => rfl⟩
  | cons input inputs ih =>
      obtain ⟨first, rest, rfl, isFirst, later⟩ := found.exists_of_cons
      have shifted : ∀ offset, start + 1 + offset = start + (offset + 1) := by
        intro offset
        rw [Nat.add_assoc, Nat.add_comm 1]
      rw [verifyFrom, isFirst]
      dsimp only
      constructor
      · intro verified offset coin isCoin
        split at verified
        · cases verified
        · rename_i accepted
          cases offset with
          | zero =>
              cases isCoin
              exact accepted
          | succ offset =>
              rw [← shifted]
              exact (ih later).mp verified offset coin isCoin
      · intro accepted
        have firstAccepted := accepted 0 first rfl
        rw [Nat.add_zero] at firstAccepted
        rw [firstAccepted]
        refine (ih later).mpr fun offset coin isCoin => ?_
        rw [shifted]
        exact accepted (offset + 1) coin isCoin

/-- A transaction that is no coinbase and has its coins is verified exactly if each of its
inputs is allowed to spend its own. -/
theorem verify_verified_iff {coins : List Coin} (ordinary : transaction.isCoinbase = false)
    (hasInputs : transaction.inputs ≠ []) (found : view.Finds transaction.inputs coins) :
    (transaction.verify view flags).verified = true ↔
      ∀ index coin, coins[index]? = some coin →
        (transaction.verifyInput transaction.midstate index coin flags).result = .ok () := by
  rw [verify, verifyWith, List.isEmpty_eq_false_iff.mpr hasInputs, ordinary,
    if_neg Bool.false_ne_true, if_neg Bool.false_ne_true, verifyFrom_verified_iff found]
  simp only [Nat.zero_add]

/-! ## Settling -/

def created (transaction : Transaction) : List OutPoint :=
  (List.range transaction.outputs.length).map fun index =>
    ⟨transaction.hash, UInt32.ofNat index⟩

theorem mem_created {index : Nat} (within : index < transaction.outputs.length) :
    ⟨transaction.hash, UInt32.ofNat index⟩ ∈ transaction.created :=
  List.mem_map.mpr ⟨index, List.mem_range.mpr within, rfl⟩

/-- The view after inputs are spent in some order and the outputs are added. -/
def settle (transaction : Transaction) (view : CoinView) (order : List Input)
    (height : Int) : CoinView :=
  (view.spendAll order).2.insertTransaction transaction.hash transaction height

theorem get?_settle {order : List Input} (height : Int) {outPoint : OutPoint}
    (unspent : outPoint ∉ order.map Input.previous)
    (uncreated : outPoint ∉ transaction.created) :
    (transaction.settle view order height).get? outPoint = view.get? outPoint := by
  rw [settle, CoinView.get?_insertTransaction_of_ne, CoinView.get?_spendAll_of_not_mem unspent]
  rintro index within rfl
  exact uncreated (mem_created within)

/-- Settling loses exactly what the coins bring beyond the outputs, as long as no coin that
is left lies where an output goes. -/
theorem total_settle {coins : List Coin} {order : List Input} (height : Int)
    (sane : transaction.Sane) (found : view.Finds transaction.inputs coins)
    (reordered : order.Perm transaction.inputs)
    (free : ∀ outPoint ∈ transaction.created,
      (view.spendAll order).2.get? outPoint = none) :
    (transaction.settle view order height).total =
      view.total -
        (Coin.sumOfValues coins - Output.sumOfValues transaction.outputs) := by
  have distinct : (order.map Input.previous).Nodup :=
    (reordered.map _).nodup_iff.mpr sane.distinct
  obtain ⟨others, foundOthers, permOthers⟩ := found.perm reordered
  have taken := CoinView.total_eq_add_spendAll distinct foundOthers
  rw [Coin.sumOfValues_perm permOthers] at taken
  have given : (transaction.settle view order height).total = _ :=
    CoinView.total_insertTransaction (Nat.le_of_lt sane.length_outputs_lt)
      fun index within => free _ (mem_created within)
  rw [given, taken]
  omega

end Transaction

/-- An accepted transaction spends coins of the view, a different one for each input and
each with leave of its script, and settling it in any order loses exactly its fee. -/
theorem accepted_transaction_loses_exactly_its_fee {memo : MemoTransaction} {view : CoinView}
    {height : Int} {flags : Flags} (upToDate : memo.UpToDate)
    (ordinary : memo.transaction.isCoinbase = false)
    (sane : memo.transaction.isSane = true)
    (funded : memo.transaction.inputFault? view height = none)
    (verified : (memo.verify view flags).1.verified = true) :
    (∃ coins, view.Finds memo.transaction.inputs coins ∧ coins.Nodup ∧
      ∀ later : MemoTransaction, later.UpToDate → later.transaction = memo.transaction →
        ∀ index coin, coins[index]? = some coin →
          (later.verifyInput index coin flags).1.result = .ok ()) ∧
    ∃ fee, memo.transaction.fee? view = some fee ∧ 0 ≤ fee ∧ fee ≤ Limits.maxMoney ∧
      ∀ order : List Input, order.Perm memo.transaction.inputs →
        (∀ coin ∈ (view.spendAll order).1, coin.isSome = true) ∧
        ((∀ outPoint ∈ memo.transaction.created,
            (view.spendAll order).2.get? outPoint = none) →
          ∀ later : MemoTransaction, later.UpToDate → later.transaction = memo.transaction →
            ∀ added : Int,
              (later.addTo (view.spendAll order).2 added).1.total = view.total - fee ∧
              ∀ outPoint, outPoint ∉ memo.transaction.inputs.map Input.previous →
                outPoint ∉ memo.transaction.created →
                (later.addTo (view.spendAll order).2 added).1.get? outPoint =
                  view.get? outPoint) := by
  have sane := Transaction.isSane_iff.mp sane
  obtain ⟨coins, funded⟩ := Transaction.inputFault?_eq_none_iff.mp funded
  obtain ⟨least, most⟩ := funded.fee_bounds
  rw [upToDate.verify_fst] at verified
  refine ⟨⟨coins, funded.found, funded.found.nodup sane.distinct, ?_⟩,
    _, funded.fee?_eq, least, most, ?_⟩
  · intro later laterUpToDate same index coin isCoin
    rw [laterUpToDate.verifyInput_fst, same]
    exact (Transaction.verify_verified_iff ordinary sane.hasInputs funded.found).mp verified
      index coin isCoin
  · intro order reordered
    have distinct : (order.map Input.previous).Nodup :=
      (reordered.map _).nodup_iff.mpr sane.distinct
    refine ⟨?_, ?_⟩
    · intro coin isSpent
      obtain ⟨others, found, -⟩ := funded.found.perm reordered
      rw [CoinView.spendAll_fst distinct, found] at isSpent
      obtain ⟨other, -, rfl⟩ := List.mem_map.mp isSpent
      rfl
    · intro free later laterUpToDate same added
      rw [laterUpToDate.addTo_fst, same]
      refine ⟨Transaction.total_settle added sane funded.found reordered free, ?_⟩
      intro outPoint unspent uncreated
      refine Transaction.get?_settle added (fun spent => unspent ?_) uncreated
      exact (reordered.map _).mem_iff.mp spent

/-! ## A transaction that opens two locks -/

/-- A transaction that opens two locks without signatures: one that is open to all, and one
that wants two equal elements. -/
def Transaction.twoOpenLocks : Transaction where
  version := 2
  inputs :=
    [⟨⟨.zero 32, 0⟩, .empty, [], 0xffffffff⟩, ⟨⟨.zero 32, 1⟩, ⟨[0x51, 0x51]⟩, [], 0⟩]
  outputs := [⟨3000, ⟨[0x51]⟩⟩, ⟨4000, .empty⟩]
  lockTime := 0
  witnessFlag := false

def Coin.twoOpenLocks : List Coin :=
  [⟨⟨.zero 32, 0⟩, 1, 10, false, 5000, ⟨[0x51]⟩⟩, ⟨⟨.zero 32, 1⟩, 1, 10, true, 4000, ⟨[0x87]⟩⟩]

def CoinView.twoOpenLocks : CoinView :=
  Coin.twoOpenLocks.foldl CoinView.insert .empty

theorem CoinView.twoOpenLocks_finds :
    twoOpenLocks.Finds Transaction.twoOpenLocks.inputs Coin.twoOpenLocks := by
  refine .cons ?_ (.cons (get?_insert_self _ _) .nil)
  exact (get?_insert_of_ne (by decide)).trans (get?_insert_self _ _)

theorem Transaction.twoOpenLocks_fundedBy :
    twoOpenLocks.FundedBy .twoOpenLocks 110 Coin.twoOpenLocks where
  found := CoinView.twoOpenLocks_finds
  mature := by decide
  inputMoney := by decide
  outputMoney := by decide
  inRange := by decide
  covered := by decide

theorem MemoTransaction.twoOpenLocks_verified :
    ((fresh .twoOpenLocks).verify .twoOpenLocks ⟨0x0801⟩).1.verified = true := by
  rw [(fresh_upToDate _).verify_fst]
  refine (Transaction.verify_verified_iff (by decide) (by decide)
    CoinView.twoOpenLocks_finds).mpr ?_
  intro index coin isCoin
  match index with
  | 0 => cases isCoin; decide +kernel
  | 1 => cases isCoin; decide +kernel
  | _ + 2 => cases isCoin

theorem CoinView.get?_twoOpenLocks_spent (outPoint : OutPoint) :
    (twoOpenLocks.spendAll Transaction.twoOpenLocks.inputs.reverse).2.get? outPoint = none := by
  by_cases spent : outPoint ∈ Transaction.twoOpenLocks.inputs.reverse.map Input.previous
  · exact get?_spendAll_of_mem spent
  · have second : outPoint ≠ ⟨.zero 32, 1⟩ := fun same => spent (same ▸ .head _)
    have first : outPoint ≠ ⟨.zero 32, 0⟩ := fun same => spent (same ▸ .tail _ (.head _))
    rw [get?_spendAll_of_not_mem spent]
    exact (get?_insert_of_ne second).trans ((get?_insert_of_ne first).trans (get?_empty _))

/-- The two coins are worth 9000 and the outputs 7000, so settling loses 2000, also if the
second coin is spent first. -/
theorem settling_two_open_locks_loses_2000 :
    Transaction.twoOpenLocks.fee? .twoOpenLocks = some 2000 ∧
      (((MemoTransaction.fresh .twoOpenLocks).addTo
        (CoinView.twoOpenLocks.spendAll Transaction.twoOpenLocks.inputs.reverse).2 110).1.total =
          CoinView.twoOpenLocks.total - 2000) := by
  have upToDate := MemoTransaction.fresh_upToDate .twoOpenLocks
  obtain ⟨-, fee, isFee, -, -, settles⟩ :=
    accepted_transaction_loses_exactly_its_fee upToDate (by decide) (by decide)
      (Transaction.inputFault?_eq_none_iff.mpr ⟨_, Transaction.twoOpenLocks_fundedBy⟩)
      MemoTransaction.twoOpenLocks_verified
  have expected : some fee = some 2000 :=
    isFee.symm.trans Transaction.twoOpenLocks_fundedBy.fee?_eq
  cases expected
  refine ⟨isFee, ?_⟩
  have settled := (settles _ (List.reverse_perm _)).2
    (fun outPoint _ => CoinView.get?_twoOpenLocks_spent outPoint) _ upToDate rfl 110
  exact settled.1

end CoinSpend
