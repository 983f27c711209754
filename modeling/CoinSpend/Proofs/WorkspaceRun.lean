import CoinSpend.Proofs.WarmMemory
import CoinSpend.Workspace

/-!
# Runs of commands

What one command does to one slot: it puts a transaction there anew, edits the one that is
there, asks it something, or leaves the slot as it is.
-/

namespace CoinSpend

namespace WorkspaceCommand

/-- The slot that a command asks something, and what it asks it. -/
def inquiry? (command : WorkspaceCommand) (view : CoinView) : Option (Nat × Inquiry) :=
  match command with
  | .hash slot => some (slot, .hash)
  | .witnessHash slot => some (slot, .witnessHash)
  | .midstate slot => some (slot, .midstate)
  | .signatureDigest slot index script value hashType version =>
      some (slot, .signatureDigest index script value hashType version)
  | .verify slot flags => some (slot, .verify view flags false)
  | .verifyInput slot index coin flags => some (slot, .verifyInput index coin flags)
  | .coinOf slot index height => some (slot, .coin index height)
  | .addTransaction slot height => some (slot, .addTo view height)
  | .store .. | .copy .. | .same .. | .edit .. | .refresh .. | .addCoin .. | .addOutput ..
  | .spend .. | .saveView | .restoreView => none

/-- The slot that a command may change. -/
def target? : WorkspaceCommand → Option Nat
  | .store slot _ | .copy _ slot | .edit slot _ | .refresh slot | .hash slot | .witnessHash slot
  | .midstate slot | .signatureDigest slot _ _ _ _ _ | .verify slot _ | .verifyInput slot _ _ _
  | .coinOf slot _ _ | .addTransaction slot _ => some slot
  | .same .. | .addCoin .. | .addOutput .. | .spend .. | .saveView | .restoreView => none

def edits (slot : Nat) : WorkspaceCommand → Bool
  | .edit target _ => target == slot
  | _ => false

theorem target?_of_inquiry? {command : WorkspaceCommand} {view : CoinView} {slot : Nat}
    {inquiry : Inquiry} (asks : command.inquiry? view = some (slot, inquiry)) :
    command.target? = some slot := by
  cases command <;> cases asks <;> rfl

end WorkspaceCommand

def WorkspaceAnswer.ofReply : Reply → WorkspaceAnswer
  | .digest value => .digest value
  | .midstate value => .midstate value
  | .signed (.ok hash) => .digest hash
  | .signed (.error fault) => .noInput fault
  | .verification verification _ => .truth verification.verified
  | .outcome verdict => .outcome verdict.result
  | .coin found => .coin found
  | .sanity _ | .inputs _ _ | .cost _ | .view _ => .done

def Reply.viewAfter (view : CoinView) : Reply → CoinView
  | .view next => next
  | _ => view

namespace Workspace

def after (workspace : Workspace) (commands : List WorkspaceCommand) : Workspace :=
  commands.foldl (fun current command => (current.run command).2) workspace

/-- The transaction that a command puts into a slot anew: one that is stored, a copy, or the
one that is there if it is refreshed. -/
def started? (workspace : Workspace) (slot : Nat) : WorkspaceCommand → Option Transaction
  | .store target transaction => if target = slot then some transaction else none
  | .copy source target =>
      if target = slot then (workspace.get? source).map (·.transaction) else none
  | .refresh target => if target = slot then (workspace.get? slot).map (·.transaction) else none
  | _ => none

theorem started?_store_self (workspace : Workspace) (slot : Nat) (transaction : Transaction) :
    workspace.started? slot (.store slot transaction) = some transaction :=
  if_pos rfl

theorem started?_copy_self (workspace : Workspace) (source target : Nat) :
    workspace.started? target (.copy source target) =
      (workspace.get? source).map (·.transaction) :=
  if_pos rfl

theorem started?_refresh_self (workspace : Workspace) (slot : Nat) :
    workspace.started? slot (.refresh slot) = (workspace.get? slot).map (·.transaction) :=
  if_pos rfl

/-! ## Slots -/

@[simp] theorem get?_put_self (workspace : Workspace) (slot : Nat) (memo : MemoTransaction) :
    (workspace.put slot memo).get? slot = some memo := by
  rw [get?, put, List.lookup_cons_self]

theorem lookup_filter_of_ne {slots : List (Nat × MemoTransaction)} {slot other : Nat}
    (different : other ≠ slot) :
    (slots.filter fun entry => entry.1 ≠ slot).lookup other = slots.lookup other := by
  induction slots with
  | nil => rfl
  | cons entry rest ih =>
      obtain ⟨key, memo⟩ := entry
      by_cases same : key = slot
      · subst same
        rw [List.filter_cons_of_neg (by simp), ih, List.lookup_cons,
          beq_false_of_ne different]
      · rw [List.filter_cons_of_pos (by simpa using same), List.lookup_cons, List.lookup_cons, ih]

theorem get?_put_of_ne (workspace : Workspace) {slot other : Nat} (different : other ≠ slot)
    (memo : MemoTransaction) :
    (workspace.put slot memo).get? other = workspace.get? other := by
  rw [get?, put, List.lookup_cons, beq_false_of_ne different]
  exact lookup_filter_of_ne different

theorem get?_answerWith_self (workspace : Workspace) (slot : Nat)
    (action : MemoTransaction → WorkspaceAnswer × MemoTransaction) :
    (workspace.answerWith slot action).2.get? slot =
      (workspace.get? slot).map fun memo => (action memo).2 := by
  rw [answerWith]
  cases found : workspace.get? slot with
  | none => exact found
  | some memo => exact get?_put_self _ _ _

theorem get?_answerWith_of_ne (workspace : Workspace) {slot other : Nat}
    (different : other ≠ slot) (action : MemoTransaction → WorkspaceAnswer × MemoTransaction) :
    (workspace.answerWith slot action).2.get? other = workspace.get? other := by
  rw [answerWith]
  cases workspace.get? slot with
  | none => rfl
  | some memo => exact get?_put_of_ne workspace different _

/-! ## One command -/

/-- A command that asks something is answered with the reply, and what the reply remembers is
put back. -/
theorem run_of_inquiry? {workspace : Workspace} {command : WorkspaceCommand} {slot : Nat}
    {inquiry : Inquiry} {memo : MemoTransaction}
    (asks : command.inquiry? workspace.view = some (slot, inquiry))
    (found : workspace.get? slot = some memo) :
    workspace.run command =
      (.ofReply (memo.reply inquiry).1,
        { workspace.put slot (memo.reply inquiry).2 with
          view := (memo.reply inquiry).1.viewAfter workspace.view }) := by
  cases command with
  | signatureDigest target index script value hashType version =>
      cases asks
      rw [run, answerWith, found]
      dsimp only [MemoTransaction.reply, MemoTransaction.signatureDigest, Prod.map]
      split
      · rename_i digest isDigest
        rw [isDigest]
        rfl
      · rename_i fault isFault
        rw [isFault]
        rfl
  | addTransaction target height =>
      cases asks
      rw [run, found]
      rfl
  | hash target | witnessHash target | midstate target | verify target flags
  | verifyInput target index coin flags | coinOf target index height =>
      cases asks
      rw [run, answerWith, found]
      rfl
  | store | copy | same | edit | refresh | addCoin | addOutput | spend | saveView
  | restoreView => cases asks

theorem run_of_inquiry?_of_empty {workspace : Workspace} {command : WorkspaceCommand} {slot : Nat}
    {inquiry : Inquiry} (asks : command.inquiry? workspace.view = some (slot, inquiry))
    (empty : workspace.get? slot = none) : workspace.run command = (.emptySlot, workspace) := by
  cases command with
  | addTransaction target height =>
      cases asks
      rw [run, empty]
  | hash target | witnessHash target | midstate target
  | signatureDigest target index script value hashType version | verify target flags
  | verifyInput target index coin flags | coinOf target index height =>
      cases asks
      rw [run, answerWith, empty]
  | store | copy | same | edit | refresh | addCoin | addOutput | spend | saveView
  | restoreView => cases asks

theorem get?_run_of_inquiry? {workspace : Workspace} {command : WorkspaceCommand} {slot : Nat}
    {inquiry : Inquiry} (asks : command.inquiry? workspace.view = some (slot, inquiry)) :
    (workspace.run command).2.get? slot =
      (workspace.get? slot).map fun memo => (memo.reply inquiry).2 := by
  cases found : workspace.get? slot with
  | none =>
      rw [run_of_inquiry?_of_empty asks found]
      exact found
  | some memo =>
      rw [run_of_inquiry? asks found]
      exact get?_put_self workspace slot _

/-- Only the slot that a command is about can change. -/
theorem get?_run_of_target?_ne (workspace : Workspace) {command : WorkspaceCommand} {slot : Nat}
    (elsewhere : command.target? ≠ some slot) :
    (workspace.run command).2.get? slot = workspace.get? slot := by
  have different : ∀ target, command.target? = some target → slot ≠ target :=
    fun target isTarget same => elsewhere (same ▸ isTarget)
  cases command with
  | store target transaction => exact get?_put_of_ne workspace (different target rfl) _
  | copy source target =>
      rw [run]
      cases workspace.get? source with
      | none => rfl
      | some memo => exact get?_put_of_ne workspace (different target rfl) _
  | same left right =>
      rw [run]
      split
      · rfl
      · rfl
  | addTransaction target height =>
      rw [run]
      cases workspace.get? target with
      | none => rfl
      | some memo => exact get?_put_of_ne workspace (different target rfl) _
  | edit target | refresh target | hash target | witnessHash target | midstate target
  | signatureDigest target | verify target | verifyInput target | coinOf target =>
      exact get?_answerWith_of_ne workspace (different target rfl) _
  | addCoin | addOutput | spend | saveView | restoreView => rfl

theorem started?_of_target?_ne (workspace : Workspace) {command : WorkspaceCommand} {slot : Nat}
    (elsewhere : command.target? ≠ some slot) : workspace.started? slot command = none := by
  have different : ∀ target, command.target? = some target → target ≠ slot :=
    fun target isTarget same => elsewhere (same ▸ isTarget)
  cases command with
  | store target | copy source target | refresh target => exact if_neg (different target rfl)
  | same | edit | hash | witnessHash | midstate | signatureDigest | verify | verifyInput | coinOf
  | addTransaction | addCoin | addOutput | spend | saveView | restoreView => rfl

/-- All that a command can do to a slot. -/
theorem get?_run_cases (workspace : Workspace) (command : WorkspaceCommand) (slot : Nat) :
    (∃ transaction, workspace.started? slot command = some transaction ∧
      (workspace.run command).2.get? slot = some (.fresh transaction)) ∨
    (∃ edit, command = .edit slot edit ∧
      (workspace.run command).2.get? slot = (workspace.get? slot).map (·.edit edit)) ∨
    (∃ inquiry, command.inquiry? workspace.view = some (slot, inquiry) ∧
      (workspace.run command).2.get? slot =
        (workspace.get? slot).map fun memo => (memo.reply inquiry).2) ∨
    (workspace.started? slot command = none ∧ command.edits slot = false ∧
      (∀ inquiry, command.inquiry? workspace.view ≠ some (slot, inquiry)) ∧
      (workspace.run command).2.get? slot = workspace.get? slot) := by
  by_cases here : command.target? = some slot
  · cases command with
    | store target transaction =>
        cases here
        exact .inl ⟨transaction, started?_store_self .., get?_put_self workspace slot _⟩
    | copy source target =>
        cases here
        cases found : workspace.get? source with
        | none =>
            refine .inr (.inr (.inr ⟨?_, rfl, nofun, ?_⟩))
            · rw [started?_copy_self, found, Option.map_none]
            · rw [run, found]
        | some memo =>
            refine .inl ⟨memo.transaction, ?_, ?_⟩
            · rw [started?_copy_self, found, Option.map_some]
            · rw [run, found]
              exact get?_put_self workspace slot _
    | refresh target =>
        cases here
        have refreshed : (workspace.run (.refresh slot)).2.get? slot =
            (workspace.get? slot).map (·.refresh) :=
          get?_answerWith_self workspace slot _
        cases found : workspace.get? slot with
        | none =>
            rw [found] at refreshed
            refine .inr (.inr (.inr ⟨?_, rfl, nofun, refreshed⟩))
            rw [started?_refresh_self, found, Option.map_none]
        | some memo =>
            rw [found] at refreshed
            refine .inl ⟨memo.transaction, ?_, refreshed⟩
            rw [started?_refresh_self, found, Option.map_some]
    | edit target edit =>
        cases here
        exact .inr (.inl ⟨edit, rfl, get?_answerWith_self workspace slot _⟩)
    | hash | witnessHash | midstate | signatureDigest | verify | verifyInput | coinOf
    | addTransaction =>
        cases here
        exact .inr (.inr (.inl ⟨_, rfl, get?_run_of_inquiry? rfl⟩))
    | same | addCoin | addOutput | spend | saveView | restoreView => cases here
  · refine .inr (.inr (.inr ⟨started?_of_target?_ne workspace here, ?_, ?_,
      get?_run_of_target?_ne workspace here⟩))
    · cases command with
      | edit target edit => exact beq_false_of_ne fun same => here (congrArg some same)
      | store | copy | same | refresh | hash | witnessHash | midstate | signatureDigest | verify
      | verifyInput | coinOf | addTransaction | addCoin | addOutput | spend | saveView
      | restoreView => rfl
    · exact fun inquiry asks => here (WorkspaceCommand.target?_of_inquiry? asks)

/-! ## Commands in order -/

theorem after_append (workspace : Workspace) (first second : List WorkspaceCommand) :
    workspace.after (first ++ second) = (workspace.after first).after second :=
  List.foldl_append

theorem get?_after_of_target?_ne {commands : List WorkspaceCommand} {slot : Nat}
    (elsewhere : ∀ command ∈ commands, command.target? ≠ some slot) (workspace : Workspace) :
    (workspace.after commands).get? slot = workspace.get? slot := by
  induction commands generalizing workspace with
  | nil => rfl
  | cons command rest ih =>
      obtain ⟨first, others⟩ := List.forall_mem_cons.mp elsewhere
      exact (ih others (workspace.run command).2).trans (get?_run_of_target?_ne workspace first)

end Workspace

end CoinSpend
