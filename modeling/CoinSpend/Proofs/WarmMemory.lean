import CoinSpend.Proofs.Recall
import CoinSpend.Proofs.SigningCopy

/-!
# Warm memory

A reply leaves the fields alone, and what it remembers is recalled as before.  So a run of
questions is answered as if each were the only one, and memory that is up to date stays so
and is never noticed.
-/

namespace CoinSpend

namespace MemoTransaction

@[simp] theorem transaction_reply (memo : MemoTransaction) (inquiry : Inquiry) :
    (memo.reply inquiry).2.transaction = memo.transaction := by
  rw [reply_snd, transaction_rememberAll]

@[simp] theorem recalled_reply (memo : MemoTransaction) (inquiry : Inquiry) (kind : DigestKind) :
    (memo.reply inquiry).2.recalled kind = memo.recalled kind := by
  rw [reply_snd, recalled_rememberAll]

theorem reply_fst_congr {memo other : MemoTransaction}
    (sameFields : memo.transaction = other.transaction)
    (sameRecall : ∀ kind, memo.recalled kind = other.recalled kind) (inquiry : Inquiry) :
    (memo.reply inquiry).1 = (other.reply inquiry).1 := by
  rw [reply_fst, reply_fst, sameFields, funext sameRecall]

/-- Whatever is remembered, every reply of a run is the one that its question alone gets. -/
theorem replies_fst (memo : MemoTransaction) (inquiries : List Inquiry) :
    (memo.replies inquiries).1 = inquiries.map fun inquiry => (memo.reply inquiry).1 := by
  induction inquiries generalizing memo with
  | nil => rfl
  | cons inquiry rest ih =>
      have later : (fun other => ((memo.reply inquiry).2.reply other).1) =
          fun other => (memo.reply other).1 :=
        funext (reply_fst_congr (transaction_reply memo inquiry) (recalled_reply memo inquiry))
      change (memo.reply inquiry).1 :: ((memo.reply inquiry).2.replies rest).1 = _
      rw [ih, later, List.map_cons]

theorem replies_snd (memo : MemoTransaction) (inquiries : List Inquiry) :
    (memo.replies inquiries).2.transaction = memo.transaction ∧
      ∀ kind, (memo.replies inquiries).2.recalled kind = memo.recalled kind := by
  induction inquiries generalizing memo with
  | nil => exact ⟨rfl, fun _ => rfl⟩
  | cons inquiry rest ih =>
      obtain ⟨sameFields, sameRecall⟩ := ih (memo.reply inquiry).2
      exact ⟨sameFields.trans (transaction_reply memo inquiry),
        fun kind => (sameRecall kind).trans (recalled_reply memo inquiry kind)⟩

namespace UpToDate

variable {memo : MemoTransaction} (upToDate : memo.UpToDate)

include upToDate

theorem of_recalled_eq {next : MemoTransaction} (sameFields : next.transaction = memo.transaction)
    (sameRecall : ∀ kind, next.recalled kind = memo.recalled kind) : next.UpToDate := by
  refine upToDate_iff.mpr fun kind => ?_
  rw [sameRecall, sameFields]
  exact upToDate_iff.mp upToDate kind

/-- Memory that is up to date is not noticed. -/
theorem reply_fst_eq_copy (inquiry : Inquiry) :
    (memo.reply inquiry).1 = (memo.copy.reply inquiry).1 := by
  have sameFields : memo.transaction = memo.copy.transaction := rfl
  refine reply_fst_congr sameFields (fun kind => ?_) inquiry
  exact (upToDate_iff.mp upToDate kind).trans
    (upToDate_iff.mp (fresh_upToDate memo.transaction) kind).symm

end UpToDate

end MemoTransaction

/-- If what is remembered is up to date, every question is replied to as by a copy that
remembers nothing, the fields stay as they are and what is remembered is still up to date.  So
the questions of a run, in whatever order, are replied to as if each were put to a copy of its
own. -/
theorem memory_up_to_date_changes_no_reply {memo : MemoTransaction} (upToDate : memo.UpToDate) :
    (∀ inquiry,
      (memo.reply inquiry).1 = (memo.copy.reply inquiry).1 ∧
        (memo.reply inquiry).2.transaction = memo.transaction ∧
        (memo.reply inquiry).2.UpToDate) ∧
      ∀ inquiries,
        (memo.replies inquiries).1 = inquiries.map (fun inquiry => (memo.copy.reply inquiry).1) ∧
          (memo.replies inquiries).2.transaction = memo.transaction ∧
          (memo.replies inquiries).2.UpToDate := by
  constructor
  · intro inquiry
    have sameFields := memo.transaction_reply inquiry
    exact ⟨upToDate.reply_fst_eq_copy inquiry, sameFields,
      upToDate.of_recalled_eq sameFields (memo.recalled_reply inquiry)⟩
  · intro inquiries
    obtain ⟨sameFields, sameRecall⟩ := memo.replies_snd inquiries
    refine ⟨?_, sameFields, upToDate.of_recalled_eq sameFields sameRecall⟩
    rw [memo.replies_fst, funext upToDate.reply_fst_eq_copy]

theorem remembered_digests_of_twoByTwo :
    let memo := (MemoTransaction.fresh .twoByTwo).rememberAll [.hash, .fullHash, .midstate]
    memo.UpToDate ∧ memo ≠ memo.copy ∧
      (memo.replies [.midstate, .hash, .coin 2 7, .witnessHash]).1 =
        [.midstate Transaction.twoByTwo.midstate, .digest Transaction.twoByTwo.hash, .coin none,
          .digest Transaction.twoByTwo.hash] := by
  intro memo
  have upToDate : memo.UpToDate :=
    (MemoTransaction.fresh_upToDate .twoByTwo).of_recalled_eq rfl fun kind =>
      MemoTransaction.recalled_rememberAll _ _ kind
  refine ⟨upToDate, ?_, ?_⟩
  · intro same
    have remembered := congrArg (fun memo => memo.memory.hash.isSome) same
    exact Bool.noConfusion remembered
  · rw [((memory_up_to_date_changes_no_reply upToDate).2 _).1]
    rfl

end CoinSpend
