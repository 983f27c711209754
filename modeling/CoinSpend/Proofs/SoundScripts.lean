import CoinSpend.Proofs.Branches
import CoinSpend.Proofs.ResourceLimits

/-!
# Scripts that succeed are sound throughout

An evaluation that succeeds has looked at every instruction, the skipped ones too.  So its script
is short and whole, and nothing in it is forbidden, too long or too much; and the branches that
it opens, turns and closes fit together, because each step moves the number of open branches as
its mark says.
-/

namespace CoinSpend

/-! ## Forbidden opcodes -/

namespace Opcode

theorem isForbidden_eq_false_iff {opcode : Opcode} :
    opcode.isForbidden = false ↔
      opcode.isDisabled = false ∧ opcode ≠ verIf ∧ opcode ≠ verNotIf := by
  simp [isForbidden, and_assoc]

theorem isCounted_of_isForbidden {opcode : Opcode} (forbidden : opcode.isForbidden = true) :
    opcode.isCounted = true := by
  simp only [isForbidden, Bool.or_eq_true, beq_iff_eq] at forbidden
  obtain (disabled | rfl) | rfl := forbidden
  · exact isCounted_of_isDisabled disabled
  · rfl
  · rfl

theorem of_not_isConditional {opcode : Opcode}
    (skipped : ¬ Context.isConditional opcode = true) :
    opcode.branchMark = .none ∧ opcode ≠ verIf ∧ opcode ≠ verNotIf := by
  rw [isConditional_eq] at skipped
  simpa [and_assoc] using skipped

end Opcode

theorem Instruction.isForbidden_push {form : PushForm} {data : Bytes}
    (wellFormed : (push form data).WellFormed) :
    (push form data).opcode.isForbidden = false := by
  rw [← Bool.not_eq_true]
  intro forbidden
  have counted := Opcode.isCounted_of_isForbidden forbidden
  rw [isCounted_push wellFormed] at counted
  cases counted

namespace Context

open Outcome

variable {context : Context} {index : Nat} {state next final : State}

/-! ## Operations -/

theorem branches_of_onStack {change : Stack → Except ScriptError Stack}
    (changed : (onStack state change).result = .ok next) : next.branches = state.branches := by
  obtain ⟨stack, -, rfl⟩ := of_onStack_eq_ok changed
  rfl

theorem branches_of_checkMultisig {thenVerify : Bool}
    (checked : (context.checkMultisig thenVerify state).result = .ok next) :
    next.branches = state.branches := by
  obtain ⟨operands, counted, -, stack, read, -, rfl⟩ := of_checkMultisig_eq_ok checked
  obtain ⟨-, -, -, counts⟩ := of_multisigOperands_eq_ok read
  obtain ⟨-, rfl⟩ := State.countOperations_eq_ok_iff.mp counts
  rfl

theorem openBranches_of_operate {operation : Operation}
    (operated : (context.operate index operation state).result = .ok next) :
    operation.branchMark.next? state.branches.length = some next.branches.length := by
  have unmarked (same : next.branches = state.branches) :
      BranchMark.none.next? state.branches.length = some next.branches.length := by
    rw [same]
    rfl
  cases operation with
  | openBranch negated =>
      obtain ⟨taken, stack, -, rfl⟩ := of_openBranch_eq_ok operated
      rfl
  | flipBranch =>
      obtain ⟨taken, outer, isBranches, rfl⟩ := of_flipBranch_eq_ok operated
      rw [isBranches]
      rfl
  | closeBranch =>
      obtain ⟨taken, outer, isBranches, rfl⟩ := of_closeBranch_eq_ok operated
      rw [isBranches]
      rfl
  | toAlt =>
      obtain ⟨top, rest, -, rfl⟩ := of_moveToAlt_eq_ok operated
      rfl
  | fromAlt =>
      obtain ⟨top, rest, -, rfl⟩ := of_moveFromAlt_eq_ok operated
      rfl
  | checkSignature thenVerify =>
      obtain ⟨-, -, -, -, stack, -, -, rfl⟩ := of_checkSignature_eq_ok operated
      rfl
  | checkMultisig thenVerify => exact unmarked (branches_of_checkMultisig operated)
  | reservedNop => exact unmarked (by rw [eq_of_reservedNop operated])
  | checkLockTime => exact unmarked (by rw [eq_of_checkLockTime operated])
  | checkSequence => exact unmarked (by rw [eq_of_checkSequence operated])
  | number value => cases operated; rfl
  | nop => cases operated; rfl
  | codeSeparator => cases operated; rfl
  | fail => cases operated
  | bad => cases operated
  | verify => exact unmarked (branches_of_onStack operated)
  | numEqualVerify => exact unmarked (branches_of_onStack operated)
  | within => exact unmarked (branches_of_onStack operated)
  | stack change => exact unmarked (branches_of_onStack operated)
  | equal thenVerify => exact unmarked (branches_of_onStack operated)
  | unary change => exact unmarked (branches_of_onStack operated)
  | binary change => exact unmarked (branches_of_onStack operated)
  | hash change => exact unmarked (branches_of_onStack operated)

end Context

/-! ## Steps -/

/-- What a run through instructions has found out about them, executed or not. -/
structure State.Passes (instructions : List Instruction) (state next : State) : Prop where
  permitted : ∀ instruction ∈ instructions, instruction.Permitted
  counted : state.operations + instructions.countP (·.opcode.isCounted) ≤ next.operations
  limit : state.operations ≤ Limits.maxOperations → next.operations ≤ Limits.maxOperations
  branches : BranchMark.openAfter? state.branches.length
    (instructions.map Instruction.branchMark) = some next.branches.length

namespace State.Passes

theorem nil (state : State) : Passes [] state state where
  permitted := nofun
  counted := Nat.le_refl _
  limit := id
  branches := rfl

theorem single {instruction : Instruction} {state next : State}
    (permitted : instruction.Permitted)
    (counted : state.operations + instruction.opcode.isCounted.toNat ≤ next.operations)
    (limit : state.operations ≤ Limits.maxOperations → next.operations ≤ Limits.maxOperations)
    (branches : instruction.branchMark.next? state.branches.length = some next.branches.length) :
    Passes [instruction] state next where
  permitted := by simpa using permitted
  counted := by rwa [Instruction.countP_isCounted_singleton]
  limit := limit
  branches := by simp [BranchMark.openAfter?, branches]

theorem cons {instruction : Instruction} {rest : List Instruction} {state next final : State}
    (first : Passes [instruction] state next) (later : Passes rest next final) :
    Passes (instruction :: rest) state final where
  permitted := by
    simpa using ⟨first.permitted instruction List.mem_cons_self, later.permitted⟩
  counted := by
    have counted := first.counted
    have countedLater := later.counted
    rw [← List.singleton_append, List.countP_append]
    omega
  limit := later.limit ∘ first.limit
  branches := by
    have branches := first.branches
    rw [← List.singleton_append, List.map_append, BranchMark.openAfter?_append, branches]
    exact later.branches

end State.Passes

namespace Context

open Outcome

variable {context : Context} {index : Nat} {state next final : State}

/-- An instruction that succeeds is permitted, is counted, and moves the number of open branches
as its mark says, whether it was executed or skipped. -/
theorem passes_of_step {instruction : Instruction} (wellFormed : instruction.WellFormed)
    (stepped : (context.step index instruction state).result = .ok next) :
    State.Passes [instruction] state next := by
  obtain ⟨checked, passed, carries, -⟩ := step_eq_ok_iff.mp stepped
  obtain ⟨brief, enabled, -⟩ := checkLimits_eq_ok_iff.mp passed
  obtain ⟨-, rfl, within⟩ := of_checkLimits_eq_ok passed
  cases instruction with
  | push form data =>
      have allowed : (Instruction.push form data).opcode.isForbidden = false :=
        Instruction.isForbidden_push wellFormed
      rw [carryOut] at carries
      split at carries
      · split at carries <;> cases carries
        exact .single ⟨brief, allowed⟩ (Nat.le_refl _) within rfl
      · cases carries
        exact .single ⟨brief, allowed⟩ (Nat.le_refl _) within rfl
  | op opcode =>
      rw [carryOut] at carries
      split at carries
      · have effect := effect_of_operate carries
        have branches := openBranches_of_operate carries
        rw [Operation.branchMark_ofOpcode] at branches
        refine .single ⟨brief, ?_⟩ ?_ (effect.limit ∘ within) branches
        · refine Opcode.isForbidden_eq_false_iff.mpr ⟨enabled, ?_, ?_⟩
          · rintro rfl
            cases carries
          · rintro rfl
            cases carries
        · rw [effect.operations]
          exact Nat.le_add_right _ _
      · rename_i skipped
        obtain ⟨unmarked, notVerIf, notVerNotIf⟩ : opcode.branchMark = .none ∧
            opcode ≠ .verIf ∧ opcode ≠ .verNotIf :=
          Opcode.of_not_isConditional fun conditional =>
            skipped (Bool.or_eq_true_iff.mpr (.inr conditional))
        cases carries
        refine .single ⟨brief, ?_⟩ (Nat.le_refl _) within ?_
        · exact Opcode.isForbidden_eq_false_iff.mpr ⟨enabled, notVerIf, notVerNotIf⟩
        · rw [Instruction.branchMark, unmarked]
          rfl

/-- What every step finds out, a run has found out of all its instructions. -/
theorem passes_of_steps {instructions : List Instruction}
    (wellFormed : ∀ instruction ∈ instructions, instruction.WellFormed)
    (reached : (context.steps index instructions state).result = .ok final) :
    State.Passes instructions state final := by
  induction instructions generalizing index state with
  | nil =>
      cases reached
      exact .nil _
  | cons instruction rest ih =>
      obtain ⟨first, wellFormed⟩ := List.forall_mem_cons.mp wellFormed
      obtain ⟨next, stepped, reached⟩ := result_bind_eq_ok_iff.mp reached
      exact (passes_of_step first stepped).cons (ih wellFormed reached)

end Context

/-- What can be told of a script before it is run, and must hold for it to succeed. -/
structure Script.Sound (script : Script) : Prop where
  /-- It has at most 10,000 bytes. -/
  short : script.length ≤ Limits.maxScriptSize
  /-- No push runs past the end. -/
  whole : script.isWhole = true
  /-- No push carries more than 520 bytes, and nothing is disabled, `OP_VERIF` or
  `OP_VERNOTIF`. -/
  permitted : ∀ instruction ∈ script.instructions, instruction.Permitted
  /-- At most 201 opcodes are above 16. -/
  few : script.instructions.countP (·.opcode.isCounted) ≤ Limits.maxOperations
  balanced : BranchMark.Balanced script.branchMarks

/-- Whichever branches are taken, only a sound script succeeds. -/
theorem scripts_that_succeed_are_sound (context : Context) (stack left : Stack)
    (evaluated : (context.evaluate stack).result = .ok left) : context.script.Sound := by
  obtain ⟨short, whole, final, reached, closed, -⟩ := Context.evaluate_eq_ok_iff.mp evaluated
  have passes := Context.passes_of_steps (fun _ => Script.wellFormed_of_mem_instructions) reached
  have counted := passes.counted
  have limit := passes.limit (Nat.zero_le _)
  have branches := passes.branches
  rw [closed] at branches
  refine ⟨short, whole, passes.permitted, ?_, BranchMark.balanced_iff.mpr branches⟩
  calc
    context.script.instructions.countP (·.opcode.isCounted)
    _ ≤ (State.ofStack stack).operations +
        context.script.instructions.countP (·.opcode.isCounted) := Nat.le_add_left _ _
    _ ≤ final.operations := counted
    _ ≤ Limits.maxOperations := limit

def Script.turnsTwice : Script :=
  ⟨[0x00, 0x63, 0x51, 0x63, 0x67, 0x67, 0x68, 0x67, 0x51, 0x68]⟩

theorem turnsTwice_succeeds_and_is_sound :
    (Context.evaluate ⟨.turnsTwice, .mandatory, .refuse, .base⟩ []).result = .ok [[1]] ∧
      Script.turnsTwice.Sound := by
  have evaluated : (Context.evaluate ⟨.turnsTwice, .mandatory, .refuse, .base⟩ []).result =
      .ok [[1]] := by decide +kernel
  exact ⟨evaluated, scripts_that_succeed_are_sound _ _ _ evaluated⟩

end CoinSpend
