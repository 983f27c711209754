import CoinSpend.Proofs.Memory
import CoinSpend.Transaction.Inquiry

/-!
# What is recalled and what is remembered

A digest is recalled from memory, or from the transaction if it is not there.  Every reply
is a function of the transaction and of what is recalled, and all that it leaves behind is
that the digests it used are remembered.  Remembering never changes what is recalled.
-/

namespace CoinSpend

/-- The digests that are remembered. -/
inductive DigestKind where
  | hash
  | fullHash
  | midstate
  deriving DecidableEq, Repr

abbrev DigestKind.Value : DigestKind → Type
  | .hash => Hash256
  | .fullHash => Hash256
  | .midstate => Midstate

def Transaction.digest (transaction : Transaction) : (kind : DigestKind) → kind.Value
  | .hash => transaction.hash
  | .fullHash => transaction.fullHash
  | .midstate => transaction.midstate

def DigestMemory.get? (memory : DigestMemory) : (kind : DigestKind) → Option kind.Value
  | .hash => memory.hash
  | .fullHash => memory.fullHash
  | .midstate => memory.midstate

namespace MemoTransaction

/-- The digest that a question finds. -/
def recalled (memo : MemoTransaction) (kind : DigestKind) : kind.Value :=
  (memo.memory.get? kind).getD (memo.transaction.digest kind)

def remember (memo : MemoTransaction) : DigestKind → MemoTransaction
  | .hash => { memo with memory := { memo.memory with hash := some (memo.recalled .hash) } }
  | .fullHash =>
      { memo with memory := { memo.memory with fullHash := some (memo.recalled .fullHash) } }
  | .midstate =>
      { memo with memory := { memo.memory with midstate := some (memo.recalled .midstate) } }

@[simp] theorem transaction_remember (memo : MemoTransaction) (kind : DigestKind) :
    (memo.remember kind).transaction = memo.transaction := by
  cases kind <;> rfl

@[simp] theorem get?_remember_self (memo : MemoTransaction) (kind : DigestKind) :
    (memo.remember kind).memory.get? kind = some (memo.recalled kind) := by
  cases kind <;> rfl

theorem get?_remember_of_ne (memo : MemoTransaction) {kind other : DigestKind}
    (different : other ≠ kind) :
    (memo.remember kind).memory.get? other = memo.memory.get? other := by
  cases kind with
  | hash =>
      cases other with
      | hash => exact absurd rfl different
      | fullHash | midstate => rfl
  | fullHash =>
      cases other with
      | fullHash => exact absurd rfl different
      | hash | midstate => rfl
  | midstate =>
      cases other with
      | midstate => exact absurd rfl different
      | hash | fullHash => rfl

@[simp] theorem recalled_remember (memo : MemoTransaction) (kind other : DigestKind) :
    (memo.remember kind).recalled other = memo.recalled other := by
  rw [recalled, transaction_remember]
  by_cases same : other = kind
  · subst same
    rw [get?_remember_self, Option.getD_some]
  · rw [get?_remember_of_ne memo same, recalled]

def rememberAll (memo : MemoTransaction) (kinds : List DigestKind) : MemoTransaction :=
  kinds.foldl remember memo

@[simp] theorem transaction_rememberAll (memo : MemoTransaction) (kinds : List DigestKind) :
    (memo.rememberAll kinds).transaction = memo.transaction := by
  induction kinds generalizing memo with
  | nil => rfl
  | cons kind rest ih => exact (ih (memo.remember kind)).trans (transaction_remember memo kind)

@[simp] theorem recalled_rememberAll (memo : MemoTransaction) (kinds : List DigestKind)
    (other : DigestKind) : (memo.rememberAll kinds).recalled other = memo.recalled other := by
  induction kinds generalizing memo with
  | nil => rfl
  | cons kind rest ih => exact (ih (memo.remember kind)).trans (recalled_remember memo kind other)

theorem rememberAll_append (memo : MemoTransaction) (first second : List DigestKind) :
    memo.rememberAll (first ++ second) = (memo.rememberAll first).rememberAll second :=
  List.foldl_append

theorem get?_rememberAll (memo : MemoTransaction) (kinds : List DigestKind)
    (other : DigestKind) :
    (memo.rememberAll kinds).memory.get? other =
      if other ∈ kinds then some (memo.recalled other) else memo.memory.get? other := by
  induction kinds generalizing memo with
  | nil => rfl
  | cons kind rest ih =>
      have rested := ih (memo.remember kind)
      rw [recalled_remember] at rested
      change ((memo.remember kind).rememberAll rest).memory.get? other = _
      rw [rested]
      by_cases later : other ∈ rest
      · rw [if_pos later, if_pos (List.mem_cons_of_mem kind later)]
      · rw [if_neg later]
        by_cases same : other = kind
        · subst same
          rw [get?_remember_self, if_pos List.mem_cons_self]
        · rw [get?_remember_of_ne memo same, if_neg (List.not_mem_cons_of_ne_of_not_mem same later)]

/-- Memory is up to date exactly if what is recalled is what the fields give. -/
theorem upToDate_iff {memo : MemoTransaction} :
    memo.UpToDate ↔ ∀ kind, memo.recalled kind = memo.transaction.digest kind := by
  have slot : ∀ kind : DigestKind,
      (∀ value, memo.memory.get? kind = some value → value = memo.transaction.digest kind) ↔
        memo.recalled kind = memo.transaction.digest kind := by
    intro kind
    rw [recalled]
    cases memo.memory.get? kind with
    | none => simp
    | some value => simp
  constructor
  · intro upToDate kind
    cases kind with
    | hash => exact (slot .hash).mp upToDate.hash
    | fullHash => exact (slot .fullHash).mp upToDate.fullHash
    | midstate => exact (slot .midstate).mp upToDate.midstate
  · intro recalled
    exact ⟨(slot .hash).mpr (recalled .hash), (slot .fullHash).mpr (recalled .fullHash),
      (slot .midstate).mpr (recalled .midstate)⟩

end MemoTransaction

/-! ## Replies -/

namespace Inquiry

/-- The digests that a question uses, in order.  Whether the digests that all inputs share are
used in a verification shows in what it asked. -/
def needs (inquiry : Inquiry) (memo : MemoTransaction) : List DigestKind :=
  match inquiry with
  | .hash => [.hash]
  | .witnessHash => if memo.transaction.hasWitness then [.fullHash] else [.hash]
  | .midstate => [.midstate]
  | .signatureDigest index _ _ _ version =>
      if version == .witnessV0 && index < memo.transaction.inputs.length then [.midstate] else []
  | .sanity => []
  | .inputs view height journaled =>
      if journaled && (memo.transaction.inputFault? view height).isSome then [.hash] else []
  | .verify view flags journaled =>
      (if (memo.verify view flags).1.asked.any Question.usesMidstate then [.midstate] else []) ++
        (if journaled && (memo.verify view flags).1.incidents.any Incident.namesTransaction then
          [.hash] else [])
  | .verifyInput index spent flags =>
      if (memo.verifyInput index spent flags).1.asked.any Question.usesMidstate then [.midstate]
      else []
  | .signatureCost _ _ => []
  | .coin index _ => if index.toNat < memo.transaction.outputs.length then [.hash] else []
  | .addTo _ _ => [.hash]

/-- The reply that a transaction gives if its digests are as told. -/
def answer (inquiry : Inquiry) (transaction : Transaction)
    (digest : (kind : DigestKind) → kind.Value) : Reply :=
  match inquiry with
  | .hash => .digest (digest .hash)
  | .witnessHash =>
      .digest (if transaction.hasWitness then digest .fullHash else digest .hash)
  | .midstate => .midstate (digest .midstate)
  | .signatureDigest index script value hashType version =>
      .signed (transaction.signatureDigest (digest .midstate) index script value hashType version)
  | .sanity => .sanity transaction.sanityFault?
  | .inputs view height journaled =>
      .inputs (transaction.inputFault? view height)
        (if journaled then
          (transaction.inputFault? view height).toList.map (.ofInputs (digest .hash))
        else [])
  | .verify view flags journaled =>
      let verification := transaction.verifyWith (digest .midstate) view flags
      .verification verification
        (if journaled then verification.incidents.map (.ofIncident (digest .hash)) else [])
  | .verifyInput index spent flags =>
      .outcome (transaction.verifyInput (digest .midstate) index spent flags)
  | .signatureCost view flags => .cost (transaction.signatureCost view flags)
  | .coin index height => .coin (Coin.ofTransaction? (digest .hash) transaction index height)
  | .addTo view height => .view (view.insertTransaction (digest .hash) transaction height)

end Inquiry

namespace MemoTransaction

theorem witnessHash_eq (memo : MemoTransaction) :
    memo.witnessHash =
      if memo.transaction.hasWitness then (memo.recalled .fullHash, memo.remember .fullHash)
      else memo.hash :=
  rfl

theorem rememberAsked_eq (memo : MemoTransaction) (asked : List Question) :
    memo.rememberAsked asked =
      memo.rememberAll (if asked.any Question.usesMidstate then [.midstate] else []) := by
  rw [rememberAsked]
  split
  · rfl
  · rfl

theorem inputFault?_eq (memo : MemoTransaction) (view : CoinView) (height : Int)
    (journaled : Bool) :
    memo.inputFault? view height journaled =
      ((memo.transaction.inputFault? view height,
          if journaled then
            (memo.transaction.inputFault? view height).toList.map (.ofInputs (memo.recalled .hash))
          else []),
        memo.rememberAll
          (if journaled && (memo.transaction.inputFault? view height).isSome then [.hash]
          else [])) := by
  unfold inputFault?
  cases memo.transaction.inputFault? view height with
  | none => cases journaled <;> rfl
  | some fault => cases journaled <;> rfl

/-- A reply depends on nothing but the transaction and what is recalled. -/
theorem reply_fst (memo : MemoTransaction) (inquiry : Inquiry) :
    (memo.reply inquiry).1 = inquiry.answer memo.transaction memo.recalled := by
  cases inquiry with
  | hash => rfl
  | witnessHash =>
      rw [reply, witnessHash_eq, Inquiry.answer]
      split
      · rfl
      · rfl
  | midstate => rfl
  | signatureDigest index script value hashType version => rfl
  | sanity => rfl
  | inputs view height journaled =>
      rw [reply, inputFault?_eq]
      rfl
  | verify view flags journaled =>
      have sameHash : (memo.verify view flags).2.hash.1 = memo.recalled .hash := by
        change (memo.rememberAsked _).recalled .hash = memo.recalled .hash
        rw [rememberAsked_eq, recalled_rememberAll]
      cases journaled with
      | false => rfl
      | true =>
          change Reply.verification _ (List.map (JournalEntry.ofIncident
            (memo.verify view flags).2.hash.1) _) = _
          rw [sameHash]
          rfl
  | verifyInput index coin flags => rfl
  | signatureCost view flags => rfl
  | coin index height =>
      rw [reply, coin?, Inquiry.answer]
      split
      · rfl
      · rename_i outside
        have missing : memo.transaction.outputs[index.toNat]? = none :=
          List.getElem?_eq_none (Nat.le_of_not_lt outside)
        rw [Coin.ofTransaction?, missing]
        rfl
  | addTo view height => rfl

/-- A reply leaves behind that what it used is remembered. -/
theorem reply_snd (memo : MemoTransaction) (inquiry : Inquiry) :
    (memo.reply inquiry).2 = memo.rememberAll (inquiry.needs memo) := by
  cases inquiry with
  | hash => rfl
  | witnessHash =>
      rw [reply, witnessHash_eq, Inquiry.needs]
      split
      · rfl
      · rfl
  | midstate => rfl
  | signatureDigest index script value hashType version =>
      change (if version == .witnessV0 && index < memo.transaction.inputs.length then
        memo.rememberMidstate else memo) = _
      rw [Inquiry.needs]
      split
      · rfl
      · rfl
  | sanity => rfl
  | inputs view height journaled =>
      rw [reply, inputFault?_eq]
      rfl
  | verify view flags journaled =>
      have verified : (memo.verify view flags).2 =
          memo.rememberAll
            (if (memo.verify view flags).1.asked.any Question.usesMidstate then [.midstate]
            else []) :=
        memo.rememberAsked_eq _
      rw [Inquiry.needs, rememberAll_append, ← verified]
      cases journaled with
      | false => rfl
      | true =>
          change (if (memo.verify view flags).1.incidents.any Incident.namesTransaction then
            (memo.verify view flags).2.hash.2 else (memo.verify view flags).2) = _
          rw [Bool.true_and]
          split
          · rfl
          · rfl
  | verifyInput index coin flags => exact memo.rememberAsked_eq _
  | signatureCost view flags => rfl
  | coin index height =>
      rw [reply, coin?, Inquiry.needs]
      split
      · rfl
      · rfl
  | addTo view height => rfl

end MemoTransaction

end CoinSpend
