import CoinSpend.Proofs.Decoding
import CoinSpend.Proofs.WorkspaceRun

/-!
# First reads

What is remembered about a transaction in a slot is determined by the commands since it was
last put there anew: each digest is the one that the fields had when a command first used
it.  An edit therefore shows in no digest that was used before, unless the transaction is
refreshed.
-/

namespace CoinSpend.Workspace

/-- The digests of the transaction in a slot that a command uses. -/
def uses (workspace : Workspace) (slot : Nat) (command : WorkspaceCommand) : List DigestKind :=
  match command.inquiry? workspace.view, workspace.get? slot with
  | some (asked, inquiry), some memo => if asked = slot then inquiry.needs memo else []
  | _, _ => []

/-- The fields of the transaction in a slot when a run first uses its digest. -/
def firstRead? (slot : Nat) (kind : DigestKind) :
    Workspace → List WorkspaceCommand → Option Transaction
  | _, [] => none
  | workspace, command :: rest =>
      if kind ∈ workspace.uses slot command then (workspace.get? slot).map (·.transaction)
      else firstRead? slot kind (workspace.run command).2 rest

/-- A run never puts a transaction into a slot anew. -/
def Keeps (slot : Nat) : Workspace → List WorkspaceCommand → Prop
  | _, [] => True
  | workspace, command :: rest =>
      workspace.started? slot command = none ∧ Keeps slot (workspace.run command).2 rest

/-- A run does not use a digest of the transaction in a slot before one is put there anew. -/
def StartsBeforeUse (slot : Nat) : Workspace → List WorkspaceCommand → Prop
  | _, [] => True
  | workspace, command :: rest =>
      workspace.started? slot command ≠ none ∨
        workspace.uses slot command = [] ∧ StartsBeforeUse slot (workspace.run command).2 rest

/-- In a run every edit of a slot is followed by a start before the next use of a digest. -/
def RefreshesEdits (slot : Nat) : Workspace → List WorkspaceCommand → Prop
  | _, [] => True
  | workspace, command :: rest =>
      (command.edits slot = true → StartsBeforeUse slot (workspace.run command).2 rest) ∧
        RefreshesEdits slot (workspace.run command).2 rest

/-! ## What one command uses -/

theorem uses_of_inquiry? {workspace : Workspace} {command : WorkspaceCommand} {slot : Nat}
    {inquiry : Inquiry} {memo : MemoTransaction}
    (asks : command.inquiry? workspace.view = some (slot, inquiry))
    (found : workspace.get? slot = some memo) :
    workspace.uses slot command = inquiry.needs memo := by
  rw [uses, asks, found]
  exact if_pos rfl

theorem uses_eq_nil {workspace : Workspace} {command : WorkspaceCommand} {slot : Nat}
    (silent : ∀ inquiry, command.inquiry? workspace.view ≠ some (slot, inquiry)) :
    workspace.uses slot command = [] := by
  rw [uses]
  split
  · rename_i asked inquiry memo asks found
    refine if_neg fun here => ?_
    subst here
    exact silent inquiry asks
  · rfl

theorem exists_inquiry?_of_uses {workspace : Workspace} {command : WorkspaceCommand} {slot : Nat}
    (used : workspace.uses slot command ≠ []) :
    ∃ inquiry, command.inquiry? workspace.view = some (slot, inquiry) := by
  by_contra silent
  exact used (uses_eq_nil fun inquiry asks => silent ⟨inquiry, asks⟩)

theorem started?_of_inquiry? {workspace : Workspace} {command : WorkspaceCommand} {slot : Nat}
    {inquiry : Inquiry} (asks : command.inquiry? workspace.view = some (slot, inquiry)) :
    workspace.started? slot command = none := by
  cases command with
  | store | copy | refresh => cases asks
  | same | edit | hash | witnessHash | midstate | signatureDigest | verify | verifyInput | coinOf
  | addTransaction | addCoin | addOutput | spend | saveView | restoreView => rfl

theorem get?_run_of_not_started {workspace : Workspace} {command : WorkspaceCommand} {slot : Nat}
    {memo : MemoTransaction} (kept : workspace.started? slot command = none)
    (found : workspace.get? slot = some memo) :
    ∃ next, (workspace.run command).2.get? slot = some next ∧
      ∀ kind, next.memory.get? kind =
        (memo.memory.get? kind).or
          (if kind ∈ workspace.uses slot command then some (memo.transaction.digest kind)
          else none) := by
  rcases workspace.get?_run_cases command slot with
    ⟨transaction, started, -⟩ | ⟨edit, rfl, edited⟩ | ⟨inquiry, asks, asked⟩ | ⟨-, -, silent, same⟩
  · cases kept.symm.trans started
  · refine ⟨memo.edit edit, ?_, fun kind => ?_⟩
    · rw [edited, found]
      rfl
    · have silent : ∀ inquiry,
          (WorkspaceCommand.edit slot edit).inquiry? workspace.view ≠ some (slot, inquiry) := nofun
      rw [uses_eq_nil silent, if_neg List.not_mem_nil, Option.or_none]
      rfl
  · refine ⟨(memo.reply inquiry).2, ?_, fun kind => ?_⟩
    · rw [asked, found]
      rfl
    · rw [uses_of_inquiry? asks found, MemoTransaction.reply_snd,
        MemoTransaction.get?_rememberAll, MemoTransaction.recalled]
      by_cases needed : kind ∈ inquiry.needs memo
      · rw [if_pos needed, if_pos needed]
        cases memo.memory.get? kind with
        | none => rfl
        | some value => rfl
      · rw [if_neg needed, if_neg needed, Option.or_none]
  · refine ⟨memo, same.trans found, fun kind => ?_⟩
    rw [uses_eq_nil silent, if_neg List.not_mem_nil, Option.or_none]

theorem get?_run_eq_none {workspace : Workspace} {command : WorkspaceCommand} {slot : Nat}
    (kept : workspace.started? slot command = none) (empty : workspace.get? slot = none) :
    (workspace.run command).2.get? slot = none := by
  rcases workspace.get?_run_cases command slot with
    ⟨transaction, started, -⟩ | ⟨edit, rfl, edited⟩ | ⟨inquiry, asks, asked⟩ | ⟨-, -, -, same⟩
  · cases kept.symm.trans started
  · rw [edited, empty]
    rfl
  · rw [asked, empty]
    rfl
  · exact same.trans empty

theorem get?_run_of_started? {workspace : Workspace} {command : WorkspaceCommand} {slot : Nat}
    {transaction : Transaction} (started : workspace.started? slot command = some transaction) :
    (workspace.run command).2.get? slot = some (.fresh transaction) := by
  rcases workspace.get?_run_cases command slot with
    ⟨other, startedOther, fresh⟩ | ⟨edit, rfl, -⟩ | ⟨inquiry, asks, -⟩ | ⟨notStarted, -⟩
  · cases started.symm.trans startedOther
    exact fresh
  · cases started
  · cases started.symm.trans (started?_of_inquiry? asks)
  · cases notStarted.symm.trans started

/-! ## Runs -/

theorem get?_after_eq_none {workspace : Workspace} {commands : List WorkspaceCommand} {slot : Nat}
    (kept : workspace.Keeps slot commands) (empty : workspace.get? slot = none) :
    (workspace.after commands).get? slot = none := by
  induction commands generalizing workspace with
  | nil => exact empty
  | cons command rest ih => exact ih kept.2 (get?_run_eq_none kept.1 empty)

theorem get?_after_of_keeps {workspace : Workspace} {commands : List WorkspaceCommand} {slot : Nat}
    {memo : MemoTransaction} (kept : workspace.Keeps slot commands)
    (found : workspace.get? slot = some memo) :
    ∃ later, (workspace.after commands).get? slot = some later ∧
      ∀ kind, later.memory.get? kind =
        (memo.memory.get? kind).or
          ((workspace.firstRead? slot kind commands).map (·.digest kind)) := by
  induction commands generalizing workspace memo with
  | nil =>
      refine ⟨memo, found, fun kind => ?_⟩
      rw [firstRead?, Option.map_none, Option.or_none]
  | cons command rest ih =>
      obtain ⟨next, isNext, remembered⟩ := get?_run_of_not_started kept.1 found
      obtain ⟨later, isLater, rememberedLater⟩ := ih kept.2 isNext
      refine ⟨later, isLater, fun kind => ?_⟩
      rw [rememberedLater, remembered, Option.or_assoc, firstRead?]
      by_cases used : kind ∈ workspace.uses slot command
      · rw [if_pos used, if_pos used, found]
        rfl
      · rw [if_neg used, if_neg used, Option.none_or]

theorem keeps_or_exists_last_start (workspace : Workspace) (commands : List WorkspaceCommand)
    (slot : Nat) :
    workspace.Keeps slot commands ∨
      ∃ before start since transaction, commands = before ++ start :: since ∧
        (workspace.after before).started? slot start = some transaction ∧
        (workspace.after (before ++ [start])).Keeps slot since := by
  induction commands generalizing workspace with
  | nil => exact .inl trivial
  | cons command rest ih =>
      rcases ih (workspace.run command).2 with
        kept | ⟨before, start, since, transaction, rfl, started, kept⟩
      · cases starts : workspace.started? slot command with
        | none => exact .inl ⟨starts, kept⟩
        | some transaction => exact .inr ⟨[], command, rest, transaction, rfl, starts, kept⟩
      · exact .inr ⟨command :: before, start, since, transaction, rfl, started, kept⟩

/-- What is remembered of a transaction is what was used since it was last put into its slot
anew, of the fields as they were at the first use. -/
theorem exists_first_reads {commands : List WorkspaceCommand} {slot : Nat}
    {memo : MemoTransaction} (found : (empty.after commands).get? slot = some memo) :
    ∃ before start since transaction, commands = before ++ start :: since ∧
      (empty.after before).started? slot start = some transaction ∧
      (empty.after (before ++ [start])).Keeps slot since ∧
      ∀ kind, memo.memory.get? kind =
        ((empty.after (before ++ [start])).firstRead? slot kind since).map (·.digest kind) := by
  rcases keeps_or_exists_last_start empty commands slot with
    kept | ⟨before, start, since, transaction, rfl, started, kept⟩
  · cases found.symm.trans (get?_after_eq_none kept rfl)
  · refine ⟨before, start, since, transaction, rfl, started, kept, ?_⟩
    have begun : (empty.after (before ++ [start])).get? slot = some (.fresh transaction) := by
      rw [after_append]
      exact get?_run_of_started? started
    obtain ⟨later, isLater, remembered⟩ := get?_after_of_keeps kept begun
    rw [List.append_cons, after_append] at found
    cases isLater.symm.trans found
    intro kind
    rw [remembered]
    cases kind <;> rfl

/-! ## Edits that are refreshed -/

def UpToDateAt (workspace : Workspace) (slot : Nat) : Prop :=
  ∀ memo, workspace.get? slot = some memo → memo.UpToDate

theorem upToDateAt_run_of_started? {workspace : Workspace} {command : WorkspaceCommand}
    {slot : Nat} {transaction : Transaction}
    (started : workspace.started? slot command = some transaction) :
    (workspace.run command).2.UpToDateAt slot := by
  intro memo found
  cases (get?_run_of_started? started).symm.trans found
  exact MemoTransaction.fresh_upToDate transaction

/-- Only an edit can make what is remembered wrong. -/
theorem UpToDateAt.run {workspace : Workspace} {command : WorkspaceCommand} {slot : Nat}
    (upToDate : workspace.UpToDateAt slot) (unedited : command.edits slot = false) :
    (workspace.run command).2.UpToDateAt slot := by
  rcases workspace.get?_run_cases command slot with
    ⟨transaction, started, -⟩ | ⟨edit, rfl, -⟩ | ⟨inquiry, -, asked⟩ | ⟨-, -, -, same⟩
  · exact upToDateAt_run_of_started? started
  · cases (beq_self_eq_true slot).symm.trans unedited
  · intro next isNext
    obtain ⟨memo, found, rfl⟩ := Option.map_eq_some_iff.mp (asked.symm.trans isNext)
    exact (upToDate memo found).of_recalled_eq (memo.transaction_reply inquiry)
      (memo.recalled_reply inquiry)
  · exact fun memo found => upToDate memo (same.symm.trans found)

/-- If every edit is refreshed in time then nothing wrong is remembered where it is used: up to
there nothing wrong is remembered, or a start comes before the use. -/
theorem upToDateAt_of_refreshesEdits {workspace : Workspace}
    {before since : List WorkspaceCommand} {command : WorkspaceCommand} {slot : Nat}
    (ready : workspace.UpToDateAt slot ∨
      workspace.StartsBeforeUse slot (before ++ command :: since))
    (refreshes : workspace.RefreshesEdits slot (before ++ command :: since))
    (used : (workspace.after before).uses slot command ≠ []) :
    (workspace.after before).UpToDateAt slot := by
  induction before generalizing workspace with
  | nil =>
      rcases ready with upToDate | started | ⟨unused, -⟩
      · exact upToDate
      · obtain ⟨inquiry, asks⟩ := exists_inquiry?_of_uses used
        exact absurd (started?_of_inquiry? asks) started
      · exact absurd unused used
  | cons first rest ih =>
      refine ih ?_ refreshes.2 used
      cases starts : workspace.started? slot first with
      | some transaction => exact .inl (upToDateAt_run_of_started? starts)
      | none =>
          cases edits : first.edits slot with
          | true => exact .inr (refreshes.1 edits)
          | false =>
              rcases ready with upToDate | started | ⟨-, later⟩
              · exact .inl (upToDate.run edits)
              · exact absurd starts started
              · exact .inr later

theorem run_fst_of_upToDate {workspace : Workspace} {command : WorkspaceCommand} {slot : Nat}
    {inquiry : Inquiry} {memo : MemoTransaction}
    (asks : command.inquiry? workspace.view = some (slot, inquiry))
    (found : workspace.get? slot = some memo) (upToDate : memo.UpToDate) :
    (workspace.run command).1 =
      .ofReply (inquiry.answer memo.transaction memo.transaction.digest) := by
  rw [run_of_inquiry? asks found, MemoTransaction.reply_fst,
    funext (MemoTransaction.upToDate_iff.mp upToDate)]

/-! ## The parts of the law -/

theorem reply_witnessHash (memo : MemoTransaction) :
    memo.reply .witnessHash =
      if ∀ input ∈ memo.transaction.inputs, input.witness = [] then memo.reply .hash
      else (.digest (memo.recalled .fullHash), memo.remember .fullHash) := by
  change memo.witnessHash.map Reply.digest id = _
  rw [MemoTransaction.witnessHash_eq]
  have bare_iff := memo.transaction.hasWitness_eq_false_iff
  cases some : memo.transaction.hasWitness with
  | false =>
      rw [if_pos (bare_iff.mp some)]
      rfl
  | true =>
      rw [if_neg (mt bare_iff.mpr (Bool.not_eq_false _ ▸ some))]
      rfl

theorem answer_and_memory_of_inquiry? {workspace : Workspace} {command : WorkspaceCommand}
    {slot : Nat} {inquiry : Inquiry} {memo : MemoTransaction}
    (asks : command.inquiry? workspace.view = some (slot, inquiry))
    (found : workspace.get? slot = some memo) :
    (workspace.run command).1 = .ofReply (inquiry.answer memo.transaction memo.recalled) ∧
      ∃ next, (workspace.run command).2.get? slot = some next ∧
        next.transaction = memo.transaction ∧
        ∀ kind, next.memory.get? kind =
          if kind ∈ inquiry.needs memo then some (memo.recalled kind) else memo.memory.get? kind := by
  constructor
  · rw [run_of_inquiry? asks found, MemoTransaction.reply_fst]
  · refine ⟨(memo.reply inquiry).2, ?_, memo.transaction_reply inquiry, fun kind => ?_⟩
    · rw [get?_run_of_inquiry? asks, found]
      rfl
    · rw [MemoTransaction.reply_snd, MemoTransaction.get?_rememberAll]

theorem exists_copy {workspace : Workspace} {source : Nat} {memo : MemoTransaction}
    (found : workspace.get? source = some memo) (target : Nat) :
    ∃ copy, (workspace.run (.copy source target)).2.get? target = some copy ∧
      copy.transaction = memo.transaction ∧ ∀ kind, copy.memory.get? kind = none := by
  refine ⟨memo.copy, ?_, rfl, fun kind => ?_⟩
  · rw [run, found]
    exact get?_put_self workspace target _
  · cases kind <;> rfl

theorem run_same {workspace : Workspace} {left right : Nat} {first second : MemoTransaction}
    (isFirst : workspace.get? left = some first) (isSecond : workspace.get? right = some second) :
    workspace.run (.same left right) =
      (.truth (decide (first.transaction = second.transaction)), workspace) := by
  rw [run, isFirst, isSecond]
  rfl

theorem answer_of_refreshesEdits {commands before since : List WorkspaceCommand}
    {command : WorkspaceCommand} {slot : Nat} {inquiry : Inquiry} {memo : MemoTransaction}
    (refreshes : empty.RefreshesEdits slot commands)
    (split : commands = before ++ command :: since)
    (asks : command.inquiry? (empty.after before).view = some (slot, inquiry))
    (found : (empty.after before).get? slot = some memo) (used : inquiry.needs memo ≠ []) :
    (∀ kind, memo.recalled kind = memo.transaction.digest kind) ∧
      ((empty.after before).run command).1 =
        .ofReply (inquiry.answer memo.transaction memo.transaction.digest) := by
  subst split
  have nothing : empty.UpToDateAt slot := nofun
  have upToDate : memo.UpToDate :=
    upToDateAt_of_refreshesEdits (.inl nothing) refreshes
      (uses_of_inquiry? asks found ▸ used) memo found
  exact ⟨MemoTransaction.upToDate_iff.mp upToDate, run_fst_of_upToDate asks found upToDate⟩

/-! ## The law -/

/-- Over every run of commands:
what is remembered of a transaction are the digests that were used since it was stored, copied or
refreshed, of the fields as they were at the first use;
once remembered they stay so until then;
an answer uses what is remembered, and only then the fields, and makes that remembered;
the digest with witnesses is another one than the hash exactly where an input has a witness;
a copy remembers nothing, and commands about other slots change nothing in a slot;
what is remembered has no part in a comparison;
and if every edit is refreshed before the next use, only digests of the current fields are used. -/
theorem digests_are_remembered_from_first_use :
    (∀ commands slot memo, (empty.after commands).get? slot = some memo →
      ∃ before start since transaction, commands = before ++ start :: since ∧
        (empty.after before).started? slot start = some transaction ∧
        (empty.after (before ++ [start])).Keeps slot since ∧
        ∀ kind, memo.memory.get? kind =
          ((empty.after (before ++ [start])).firstRead? slot kind since).map (·.digest kind)) ∧
    (∀ (workspace : Workspace) commands slot memo, workspace.get? slot = some memo →
      workspace.Keeps slot commands →
      ∃ later, (workspace.after commands).get? slot = some later ∧
        ∀ kind, later.memory.get? kind =
          (memo.memory.get? kind).or
            ((workspace.firstRead? slot kind commands).map (·.digest kind))) ∧
    (∀ (workspace : Workspace) command slot inquiry memo,
      WorkspaceCommand.inquiry? command workspace.view = some (slot, inquiry) →
      workspace.get? slot = some memo →
      (workspace.run command).1 = .ofReply (inquiry.answer memo.transaction memo.recalled) ∧
        ∃ next, (workspace.run command).2.get? slot = some next ∧
          next.transaction = memo.transaction ∧
          ∀ kind, next.memory.get? kind =
            if kind ∈ inquiry.needs memo then some (memo.recalled kind)
            else memo.memory.get? kind) ∧
    (∀ memo : MemoTransaction, memo.reply .witnessHash =
      if ∀ input ∈ memo.transaction.inputs, input.witness = [] then memo.reply .hash
      else (.digest (memo.recalled .fullHash), memo.remember .fullHash)) ∧
    (∀ (workspace : Workspace) source memo target, workspace.get? source = some memo →
      ∃ copy, (workspace.run (.copy source target)).2.get? target = some copy ∧
        copy.transaction = memo.transaction ∧ ∀ kind, copy.memory.get? kind = none) ∧
    (∀ (workspace : Workspace) commands slot,
      (∀ command ∈ commands, WorkspaceCommand.target? command ≠ some slot) →
      (workspace.after commands).get? slot = workspace.get? slot) ∧
    (∀ (workspace : Workspace) left right first second, workspace.get? left = some first →
      workspace.get? right = some second →
      workspace.run (.same left right) =
        (.truth (decide (first.transaction = second.transaction)), workspace)) ∧
    (∀ commands slot, empty.RefreshesEdits slot commands →
      ∀ before command since inquiry memo, commands = before ++ command :: since →
        command.inquiry? (empty.after before).view = some (slot, inquiry) →
        (empty.after before).get? slot = some memo → inquiry.needs memo ≠ [] →
        (∀ kind, memo.recalled kind = memo.transaction.digest kind) ∧
          ((empty.after before).run command).1 =
            .ofReply (inquiry.answer memo.transaction memo.transaction.digest)) :=
  ⟨fun _ _ _ found => exists_first_reads found,
    fun _ _ _ _ found kept => get?_after_of_keeps kept found,
    fun _ _ _ _ _ asks found => answer_and_memory_of_inquiry? asks found,
    reply_witnessHash,
    fun _ _ _ target found => exists_copy found target,
    fun workspace _ _ elsewhere => get?_after_of_target?_ne elsewhere workspace,
    fun _ _ _ _ _ isFirst isSecond => run_same isFirst isSecond,
    fun _ _ refreshes _ _ _ _ _ split asks found used =>
      answer_of_refreshesEdits refreshes split asks found used⟩

/-- The hash of `twoByTwo` is the one from before an input got a witness, and the digest with
witnesses the one from before the lock time changed.  A copy compares as the same.  After a
refresh the hash is that of the fields. -/
theorem digests_of_twoByTwo_across_edits :
    let stored := empty.after [.store 0 .twoByTwo]
    let commands := [.witnessHash 0, .edit 0 (.setWitness 0 [[1]]), .witnessHash 0,
      .edit 0 (.setLockTime 7), .copy 0 1, .hash 1]
    let refreshed := [.store 0 .twoByTwo, .hash 0, .edit 0 (.setLockTime 7), .refresh 0]
    (∃ later, (stored.after commands).get? 0 = some later ∧
      later.memory.get? .hash = some Transaction.twoByTwo.hash ∧
      later.memory.get? .fullHash =
        some (Transaction.twoByTwo.edit (.setWitness 0 [[1]])).fullHash ∧
      later.memory.get? .midstate = none) ∧
    ((stored.after commands).run (.hash 0)).1 = .digest Transaction.twoByTwo.hash ∧
    ((stored.after commands).run (.same 0 1)).1 = .truth true ∧
    ((empty.after refreshed).run (.hash 0)).1 =
      .digest (Transaction.twoByTwo.edit (.setLockTime 7)).hash := by
  intro stored commands refreshed
  obtain ⟨-, remembers, answers, -, -, -, compares, current⟩ :=
    digests_are_remembered_from_first_use
  have kept : stored.Keeps 0 commands := ⟨rfl, rfl, rfl, rfl, rfl, rfl, trivial⟩
  obtain ⟨later, isLater, remembered⟩ := remembers stored commands 0 _ rfl kept
  have refreshes : empty.RefreshesEdits 0 (refreshed ++ [.hash 0]) :=
    ⟨nofun, nofun, fun _ => .inl nofun, nofun, nofun, trivial⟩
  refine ⟨⟨later, isLater, remembered .hash, remembered .fullHash, remembered .midstate⟩,
    ?_, ?_, ?_⟩
  · exact (answers (stored.after commands) (.hash 0) 0 .hash _ rfl rfl).1
  · rw [compares (stored.after commands) 0 1 _ _ rfl rfl]
    exact congrArg WorkspaceAnswer.truth (decide_eq_true rfl)
  · exact (current _ 0 refreshes refreshed (.hash 0) [] .hash _ rfl rfl rfl nofun).2

end CoinSpend.Workspace
