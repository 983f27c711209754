import CoinSpend.Proofs.SoundScripts

/-!
# Dead branches are inert

Behind a branch that is not taken an instruction that is permitted only counts, and opens, turns
and closes branches of its own.  So a body in which these are balanced leaves everything as it
was, whatever its instructions would have done.
-/

namespace CoinSpend

/-! ## Skipped instructions -/

/-- A state with more branches open inside its own, and with another count. -/
def State.inside (state : State) (inner : List Bool) (operations : Nat) : State :=
  { state with branches := inner ++ state.branches, operations := operations }

/-- Branches that are opened inside a dead one are dead, too. -/
theorem State.executing_inside {state : State} (dead : state.executing = false)
    (inner : List Bool) (operations : Nat) : (state.inside inner operations).executing = false := by
  simp [executing] at dead
  simp [executing, inside, dead]

namespace Context

variable {context : Context} {index depth operations : Nat} {state : State} {inner : List Bool}

theorem checkLimits_of_permitted {instruction : Instruction} (permitted : instruction.Permitted)
    (few : state.operations + instruction.opcode.isCounted.toNat ≤ Limits.maxOperations) :
    checkLimits instruction state = .ok { state with
      operations := state.operations + instruction.opcode.isCounted.toNat } := by
  refine checkLimits_eq_ok_iff.mpr ⟨permitted.brief, ?_, ?_, rfl⟩
  · exact (Opcode.isForbidden_eq_false_iff.mp permitted.enabled).1
  · intro counted
    rw [counted] at few
    exact few

section Dead

variable (dead : state.executing = false)

include dead

theorem operate_inside {operation : Operation} (marked : operation.branchMark ≠ .none)
    (moves : operation.branchMark.next? inner.length = some depth) :
    ∃ after : List Bool, after.length = depth ∧
      context.operate index operation (state.inside inner operations) =
        pure (state.inside after operations) := by
  have skipping := State.executing_inside dead inner operations
  cases operation with
  | openBranch negated =>
      refine ⟨false :: inner, Option.some.inj moves, ?_⟩
      rw [operate, openBranch, skipping]
      rfl
  | flipBranch =>
      cases inner with
      | nil => cases moves
      | cons taken outer => exact ⟨(!taken) :: outer, Option.some.inj moves, rfl⟩
  | closeBranch =>
      cases inner with
      | nil => cases moves
      | cons taken outer => exact ⟨outer, Option.some.inj moves, rfl⟩
  | _ => exact absurd rfl marked

theorem carryOut_inside {instruction : Instruction} (permitted : instruction.Permitted)
    (moves : instruction.branchMark.next? inner.length = some depth) :
    ∃ after : List Bool, after.length = depth ∧
      context.carryOut index instruction (state.inside inner operations) =
        pure (state.inside after operations) := by
  have skipping := State.executing_inside dead inner operations
  cases instruction with
  | push form data =>
      refine ⟨inner, Option.some.inj moves, ?_⟩
      rw [carryOut, skipping]
      rfl
  | op opcode =>
      have enabled : opcode.isForbidden = false := permitted.enabled
      obtain ⟨-, notVerIf, notVerNotIf⟩ := Opcode.isForbidden_eq_false_iff.mp enabled
      have conditional : isConditional opcode = (opcode.branchMark != .none) := by
        rw [Opcode.isConditional_eq, beq_false_of_ne notVerIf, beq_false_of_ne notVerNotIf,
          Bool.or_false, Bool.or_false]
      rw [carryOut, skipping, Bool.false_or, conditional]
      change opcode.branchMark.next? inner.length = some depth at moves
      by_cases marked : opcode.branchMark = .none
      · rw [marked] at moves ⊢
        exact ⟨inner, Option.some.inj moves, rfl⟩
      · rw [if_pos (bne_iff_ne.mpr marked)]
        rw [← Operation.branchMark_ofOpcode] at marked moves
        exact operate_inside dead marked moves

theorem step_inside {instruction : Instruction} (permitted : instruction.Permitted)
    (moves : instruction.branchMark.next? inner.length = some depth)
    (few : operations + instruction.opcode.isCounted.toNat ≤ Limits.maxOperations)
    (room : state.stack.length + state.alt.length ≤ Limits.maxStackSize) :
    ∃ after : List Bool, after.length = depth ∧
      context.step index instruction (state.inside inner operations) =
        pure (state.inside after (operations + instruction.opcode.isCounted.toNat)) := by
  obtain ⟨after, length, carries⟩ := carryOut_inside dead permitted moves
  have passed : checkLimits instruction (state.inside inner operations) =
      .ok (state.inside inner (operations + instruction.opcode.isCounted.toNat)) :=
    checkLimits_of_permitted permitted few
  exact ⟨after, length, step_of_carryOut_of_fits passed carries room⟩

/-- Instructions that are skipped are counted, and move the branches as their marks say.  Which
of the inner branches would be taken makes no difference. -/
theorem steps_inside {instructions : List Instruction}
    (permitted : ∀ instruction ∈ instructions, instruction.Permitted)
    (moves : BranchMark.openAfter? inner.length (instructions.map Instruction.branchMark) =
      some depth)
    (few : operations + instructions.countP (·.opcode.isCounted) ≤ Limits.maxOperations)
    (room : state.stack.length + state.alt.length ≤ Limits.maxStackSize) :
    ∃ after : List Bool, after.length = depth ∧
      context.steps index instructions (state.inside inner operations) =
        pure (state.inside after (operations + instructions.countP (·.opcode.isCounted))) := by
  induction instructions generalizing index inner operations with
  | nil => exact ⟨inner, Option.some.inj moves, rfl⟩
  | cons instruction rest ih =>
      obtain ⟨first, permitted⟩ := List.forall_mem_cons.mp permitted
      obtain ⟨next, moved, moves⟩ := Option.bind_eq_some_iff.mp moves
      rw [← List.singleton_append, List.countP_append, Instruction.countP_isCounted_singleton,
        ← Nat.add_assoc] at few ⊢
      obtain ⟨between, rfl, stepped⟩ :=
        step_inside dead first moved (Nat.le_trans (Nat.le_add_right _ _) few) room
      obtain ⟨after, length, reached⟩ := ih permitted moves few
      refine ⟨after, length, ?_⟩
      rw [List.singleton_append, steps, stepped, Outcome.pure_bind, reached]

/-- A balanced body that is skipped only counts. -/
theorem steps_of_balanced {body : List Instruction}
    (permitted : ∀ instruction ∈ body, instruction.Permitted)
    (balanced : BranchMark.Balanced (body.map Instruction.branchMark))
    (few : state.operations + body.countP (·.opcode.isCounted) ≤ Limits.maxOperations)
    (room : state.stack.length + state.alt.length ≤ Limits.maxStackSize) :
    context.steps index body state = pure { state with
      operations := state.operations + body.countP (·.opcode.isCounted) } := by
  obtain ⟨after, isClosed, skipped⟩ : ∃ after : List Bool, after.length = 0 ∧
      context.steps index body (state.inside [] state.operations) =
        pure (state.inside after (state.operations + body.countP (·.opcode.isCounted))) :=
    steps_inside dead permitted (BranchMark.balanced_iff.mp balanced) few room
  obtain rfl := List.length_eq_zero_iff.mp isClosed
  exact skipped

end Dead

/-! ## The branch -/

theorem openBranch_of_empty {rest : Stack} (executing : state.executing = true)
    (isStack : state.stack = [] :: rest) :
    context.openBranch false state =
      .ok { state with stack := rest, branches := false :: state.branches } := by
  have minimal : (context.version == .witnessV0 && context.flags.has .minimalIf &&
      !isMinimalCondition []) = false := Bool.and_false _
  rw [openBranch, if_pos executing, isStack]
  dsimp only
  rw [if_neg (Bool.not_eq_true _ ▸ minimal)]
  rfl

theorem carryOut_endIf {taken : Bool} {outer : List Bool}
    (isOpen : state.branches = taken :: outer) :
    context.carryOut index (.op .endIf) state = pure { state with branches := outer } := by
  have conditional : (state.executing || isConditional .endIf) = true := Bool.or_true _
  rw [carryOut, if_pos conditional]
  change Outcome.ofExcept (closeBranch state) = _
  rw [closeBranch, isOpen]
  rfl

end Context

def Instruction.deadBranch (body : List Instruction) : List Instruction :=
  .push .direct [] :: .op .ifTrue :: (body ++ [.op .endIf])

namespace Context

variable {context : Context} {index : Nat} {state : State}

theorem steps_deadBranch {body : List Instruction}
    (permitted : ∀ instruction ∈ body, instruction.Permitted)
    (balanced : BranchMark.Balanced (body.map Instruction.branchMark))
    (few : state.operations + body.countP (·.opcode.isCounted) + 2 ≤ Limits.maxOperations)
    (executing : state.executing = true)
    (room : state.stack.length + state.alt.length < Limits.maxStackSize) :
    context.steps index (Instruction.deadBranch body) state = pure { state with
      operations := state.operations + body.countP (·.opcode.isCounted) + 2 } := by
  let opened : State := { state with
    branches := false :: state.branches, operations := state.operations + 1 }
  let skipped : State := { opened with
    operations := opened.operations + body.countP (·.opcode.isCounted) }
  have fewOpened : opened.operations + body.countP (·.opcode.isCounted) < Limits.maxOperations := by
    change state.operations + 1 + body.countP (·.opcode.isCounted) < Limits.maxOperations
    omega
  have pushes : context.step index (.push .direct []) state =
      pure (state.withStack ([] :: state.stack)) :=
    step_of_pushed? (Nat.zero_le _) rfl ⟨Nat.zero_le _, fun _ => rfl⟩ executing room
  have opens : context.step (index + 1) (.op .ifTrue) (state.withStack ([] :: state.stack)) =
      pure opened := by
    refine step_of_operate rfl rfl executing ?_ ?_ (Nat.le_of_lt room)
    · change state.operations < Limits.maxOperations
      omega
    · exact congrArg Outcome.ofExcept (openBranch_of_empty executing rfl)
  have skips : context.steps (index + 2) body opened = pure skipped :=
    steps_of_balanced rfl permitted balanced (Nat.le_of_lt fewOpened) (Nat.le_of_lt room)
  have closes : context.step (index + 2 + body.length) (.op .endIf) skipped =
      pure { state with operations := skipped.operations + 1 } :=
    step_of_carryOut_of_fits (checkLimits_of_isCounted rfl rfl fewOpened) (carryOut_endIf rfl)
      (Nat.le_of_lt room)
  have total : state.operations + body.countP (·.opcode.isCounted) + 2 =
      skipped.operations + 1 := by
    change _ = state.operations + 1 + body.countP (·.opcode.isCounted) + 1
    omega
  rw [Instruction.deadBranch, steps, pushes, Outcome.pure_bind, steps, opens, Outcome.pure_bind,
    steps_append, skips, Outcome.pure_bind, steps, closes, Outcome.pure_bind, steps, total]

end Context

/-! ## The script -/

namespace Script

/-- `OP_0 OP_IF body OP_ENDIF`. -/
def deadBranch (body : Script) : Script :=
  ⟨Opcode.zero.byte :: Opcode.ifTrue.byte :: (body.bytes ++ [Opcode.endIf.byte])⟩

/-- What a body needs to be skipped as a whole. -/
structure Skippable (body : Script) : Prop where
  /-- It has at most 9,997 bytes. -/
  short : body.length + 3 ≤ Limits.maxScriptSize
  whole : body.isWhole = true
  permitted : ∀ instruction ∈ body.instructions, instruction.Permitted
  /-- At most 199 opcodes are above 16. -/
  few : body.instructions.countP (·.opcode.isCounted) + 2 ≤ Limits.maxOperations
  balanced : BranchMark.Balanced body.branchMarks

theorem deadBranch_eq_ofInstructions {body : Script} (whole : body.isWhole = true) :
    body.deadBranch = ofInstructions (Instruction.deadBranch body.instructions) := by
  have bytes : body.instructions.flatMap Instruction.encode = body.bytes :=
    congrArg bytes (ofInstructions_instructions whole)
  rw [deadBranch, ofInstructions, Instruction.deadBranch, List.flatMap_cons, List.flatMap_cons,
    List.flatMap_append, bytes]
  rfl

theorem wellFormed_deadBranch {body : Script} :
    ∀ instruction ∈ Instruction.deadBranch body.instructions, instruction.WellFormed := by
  intro instruction member
  simp only [Instruction.deadBranch, List.mem_cons, List.mem_append, List.not_mem_nil,
    or_false] at member
  rcases member with rfl | rfl | member | rfl
  · exact Nat.zero_le _
  · rfl
  · exact wellFormed_of_mem_instructions member
  · rfl

theorem instructions_deadBranch {body : Script} (whole : body.isWhole = true) :
    body.deadBranch.instructions = Instruction.deadBranch body.instructions := by
  rw [deadBranch_eq_ofInstructions whole, instructions_ofInstructions wellFormed_deadBranch]

theorem brokenEnd_deadBranch {body : Script} (whole : body.isWhole = true) :
    body.deadBranch.brokenEnd = [] := by
  rw [deadBranch_eq_ofInstructions whole, brokenEnd_ofInstructions wellFormed_deadBranch]

theorem length_deadBranch (body : Script) : body.deadBranch.length = body.length + 3 := by
  simp [deadBranch, length]

end Script

/-- A body that can be skipped is inert behind a condition that does not hold: whatever its
instructions, the stack is left as it was and nothing is asked. -/
theorem dead_branches_are_inert (body : Script) (skippable : body.Skippable) (flags : Flags)
    (checker : Checker) (version : SignatureVersion) (stack : Stack)
    (room : stack.length < Limits.maxStackSize) :
    (Context.evaluate ⟨body.deadBranch, flags, checker, version⟩ stack).result = .ok stack ∧
      (Context.evaluate ⟨body.deadBranch, flags, checker, version⟩ stack).asked = [] := by
  have short : body.deadBranch.length ≤ Limits.maxScriptSize :=
    Script.length_deadBranch body ▸ skippable.short
  have few : 0 + body.instructions.countP (·.opcode.isCounted) + 2 ≤ Limits.maxOperations := by
    rw [Nat.zero_add]
    exact skippable.few
  have reached : Context.steps ⟨body.deadBranch, flags, checker, version⟩ 0
      body.deadBranch.instructions (.ofStack stack) = pure { State.ofStack stack with
        operations := 0 + body.instructions.countP (·.opcode.isCounted) + 2 } := by
    rw [Script.instructions_deadBranch skippable.whole]
    exact Context.steps_deadBranch skippable.permitted skippable.balanced few rfl room
  rw [Context.evaluate_of_steps short (Script.brokenEnd_deadBranch skippable.whole) reached rfl]
  exact ⟨rfl, rfl⟩

def Script.fallsApart : Script :=
  ⟨[0x63, 0x6a, 0x67, 0xac, 0x68, 0x50]⟩

theorem Script.fallsApart_is_skippable : Script.fallsApart.Skippable where
  short := by decide
  whole := by decide +kernel
  permitted := by decide +kernel
  few := by decide +kernel
  balanced := by decide +kernel

/-- The body would fail on this stack, and leaves it alone where it is dead. -/
theorem fallsApart_is_inert :
    (Context.evaluate ⟨.fallsApart, .mandatory, .refuse, .base⟩ [[1], []]).result =
        .error .returned ∧
      (Context.evaluate ⟨Script.fallsApart.deadBranch, .mandatory, .refuse, .base⟩
        [[1], []]).result = .ok [[1], []] ∧
      (Context.evaluate ⟨Script.fallsApart.deadBranch, .mandatory, .refuse, .base⟩
        [[1], []]).asked = [] :=
  ⟨by decide +kernel, dead_branches_are_inert _ Script.fallsApart_is_skippable _ _ _ _ (by decide)⟩

end CoinSpend
