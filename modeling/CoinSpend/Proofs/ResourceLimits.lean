import CoinSpend.Proofs.ElementSizes
import CoinSpend.Proofs.Execution
import CoinSpend.Proofs.SignatureBudget

/-!
# What a run may use

Every instruction leaves short elements, few of them, and few open branches, and counts
the operations it stands for.  The operations are known exactly: one for each counted
opcode, executed or not, and one for each key of a multiple check that is executed.
Branches need no limit of their own, because whatever opens one is counted.
-/

namespace CoinSpend

/-! ## Operations -/

namespace Operation

/-- How many branches an operation opens. -/
def opened : Operation → Nat
  | openBranch _ => 1
  | _ => 0

/-- How many keys an operation counts, with a stack in front of it. -/
def keysAsked (operation : Operation) (stack : Stack) : Nat :=
  match operation, stack with
  | checkMultisig _, top :: _ => (ScriptNumber.value top).toNat
  | _, _ => 0

theorem opened_ofOpcode_le (opcode : Opcode) :
    (ofOpcode opcode).opened ≤ opcode.isCounted.toNat := by
  cases counted : opcode.isCounted with
  | true =>
      cases ofOpcode opcode with
      | openBranch negated => exact Nat.le_refl _
      | _ => exact Nat.zero_le _
  | false =>
      rcases ofOpcode_of_not_isCounted counted with ⟨value, isNumber⟩ | isBad
      · rw [isNumber]
        exact Nat.le_refl _
      · rw [isBad]
        exact Nat.le_refl _

theorem keysAsked_of_isConditional {opcode : Opcode}
    (conditional : Context.isConditional opcode = true) (stack : Stack) :
    (ofOpcode opcode).keysAsked stack = 0 := by
  unfold keysAsked
  split
  · rename_i isMultiple
    rcases of_ofOpcode_eq_checkMultisig isMultiple with rfl | rfl <;> cases conditional
  · rfl

end Operation

namespace State

/-- What the limits keep small, whether or not anything has been carried out yet. -/
structure Bounded (state : State) : Prop where
  stack : state.stack.IsShort
  alt : state.alt.IsShort
  operations : state.operations ≤ Limits.maxOperations
  branches : state.branches.length ≤ state.operations

/-- What an operation did to a state. -/
structure Effect (operation : Operation) (state next : State) : Prop where
  stack : ∀ element ∈ next.stack, element ∈ state.alt ∨ Stack.Made state.stack next.stack element
  alt : ∀ element ∈ next.alt, element ∈ state.alt ∨ element ∈ state.stack
  branches : next.branches.length ≤ state.branches.length + operation.opened
  operations : next.operations = state.operations + operation.keysAsked state.stack
  limit : state.operations ≤ Limits.maxOperations → next.operations ≤ Limits.maxOperations

namespace Effect

variable {operation : Operation} {state next : State}

theorem ofStack {stack : Stack} (made : ∀ element ∈ stack, Stack.Made state.stack stack element)
    (unasked : operation.keysAsked state.stack = 0) :
    Effect operation state (state.withStack stack) where
  stack := fun element member => .inr (made element member)
  alt := fun _ member => .inl member
  branches := Nat.le_add_right _ _
  operations := by rw [unasked]; rfl
  limit := id

theorem ofSame (stack : next.stack = state.stack) (alt : next.alt = state.alt)
    (branches : next.branches.length ≤ state.branches.length)
    (operations : next.operations = state.operations)
    (unasked : operation.keysAsked state.stack = 0) : Effect operation state next where
  stack := fun _ member => .inr (.kept (stack ▸ member))
  alt := fun _ member => .inl (alt ▸ member)
  branches := Nat.le_trans branches (Nat.le_add_right _ _)
  operations := by rw [operations, unasked, Nat.add_zero]
  limit := fun within => operations ▸ within

theorem isShort (effect : Effect operation state next) (bounded : state.Bounded)
    (room : next.stack.length ≤ Limits.maxStackSize) : next.stack.IsShort ∧ next.alt.IsShort := by
  constructor
  · intro element member
    rcases effect.stack element member with wasAlt | made
    · exact bounded.alt element wasAlt
    · exact made.isShort bounded.stack room
  · intro element member
    rcases effect.alt element member with wasAlt | wasStack
    · exact bounded.alt element wasAlt
    · exact bounded.stack element wasStack

end Effect

end State

namespace Context

open Outcome

variable {context : Context} {index : Nat} {state next : State}

theorem of_onStack_eq_ok {change : Stack → Except ScriptError Stack}
    (changed : (onStack state change).result = .ok next) :
    ∃ stack, change state.stack = .ok stack ∧ next = state.withStack stack := by
  change (change state.stack).map state.withStack = .ok next at changed
  cases reached : change state.stack with
  | error error => rw [reached] at changed; cases changed
  | ok stack =>
      rw [reached] at changed
      cases changed
      exact ⟨stack, rfl, rfl⟩

theorem effect_of_onStack {operation : Operation} {change : Stack → Except ScriptError Stack}
    (made : ∀ stack, change state.stack = .ok stack →
      ∀ element ∈ stack, Stack.Made state.stack stack element)
    (unasked : operation.keysAsked state.stack = 0)
    (changed : (onStack state change).result = .ok next) : State.Effect operation state next := by
  obtain ⟨stack, reached, rfl⟩ := of_onStack_eq_ok changed
  exact .ofStack (made stack reached) unasked

theorem made_of_giveAnswer {thenVerify accepted : Bool} {error : ScriptError}
    {old rest stack : Stack} (subset : rest ⊆ old)
    (given : giveAnswer thenVerify accepted error rest = .ok stack) :
    ∀ element ∈ stack, Stack.Made old stack element := by
  unfold giveAnswer at given
  split at given
  · split at given
    · cases given
      exact Stack.made_of_subset subset
    · cases given
  · cases given
    exact Stack.made_of_brief (Stack.brief_ofBool _) subset

theorem eq_of_reservedNop (passed : (context.reservedNop state).result = .ok next) :
    next = state := by
  obtain ⟨-, passed⟩ := result_require_bind_eq_ok_iff.mp passed
  cases passed
  rfl

theorem eq_of_checkLockTime (passed : (context.checkLockTime state).result = .ok next) :
    next = state := by
  unfold checkLockTime at passed
  split at passed
  · obtain ⟨operand, -, passed⟩ := result_bind_eq_ok_iff.mp passed
    obtain ⟨answer, -, passed⟩ := result_bind_eq_ok_iff.mp passed
    obtain ⟨-, passed⟩ := result_require_bind_eq_ok_iff.mp passed
    cases passed
    rfl
  · exact eq_of_reservedNop passed

theorem eq_of_checkSequence (passed : (context.checkSequence state).result = .ok next) :
    next = state := by
  unfold checkSequence at passed
  split at passed
  · obtain ⟨operand, -, passed⟩ := result_bind_eq_ok_iff.mp passed
    split at passed
    · cases passed
      rfl
    · obtain ⟨answer, -, passed⟩ := result_bind_eq_ok_iff.mp passed
      obtain ⟨-, passed⟩ := result_require_bind_eq_ok_iff.mp passed
      cases passed
      rfl
  · exact eq_of_reservedNop passed

theorem of_openBranch_eq_ok {negated : Bool}
    (opened : context.openBranch negated state = .ok next) :
    ∃ taken stack, stack ⊆ state.stack ∧
      next = { state with stack := stack, branches := taken :: state.branches } := by
  unfold openBranch at opened
  split at opened
  · split at opened
    · cases opened
    · rename_i top rest isStack
      split at opened
      · cases opened
      · cases opened
        exact ⟨_, rest, isStack ▸ List.subset_cons_self top rest, rfl⟩
  · cases opened
    exact ⟨false, state.stack, List.Subset.refl _, rfl⟩

theorem of_flipBranch_eq_ok (flipped : flipBranch state = .ok next) :
    ∃ taken outer, state.branches = taken :: outer ∧
      next = { state with branches := (!taken) :: outer } := by
  unfold flipBranch at flipped
  split at flipped
  · rename_i taken outer isBranches
    cases flipped
    exact ⟨taken, outer, isBranches, rfl⟩
  · cases flipped

theorem of_closeBranch_eq_ok (closed : closeBranch state = .ok next) :
    ∃ taken outer, state.branches = taken :: outer ∧ next = { state with branches := outer } := by
  unfold closeBranch at closed
  split at closed
  · rename_i taken outer isBranches
    cases closed
    exact ⟨taken, outer, isBranches, rfl⟩
  · cases closed

theorem of_moveToAlt_eq_ok (moved : moveToAlt state = .ok next) :
    ∃ top rest, state.stack = top :: rest ∧
      next = { state with stack := rest, alt := top :: state.alt } := by
  unfold moveToAlt at moved
  split at moved
  · rename_i top rest isStack
    cases moved
    exact ⟨top, rest, isStack, rfl⟩
  · cases moved

theorem of_moveFromAlt_eq_ok (moved : moveFromAlt state = .ok next) :
    ∃ top rest, state.alt = top :: rest ∧
      next = { state with stack := top :: state.stack, alt := rest } := by
  unfold moveFromAlt at moved
  split at moved
  · rename_i top rest isAlt
    cases moved
    exact ⟨top, rest, isAlt, rfl⟩
  · cases moved

theorem effect_of_openBranch {negated : Bool}
    (opened : context.openBranch negated state = .ok next) :
    State.Effect (.openBranch negated) state next := by
  obtain ⟨taken, stack, below, rfl⟩ := of_openBranch_eq_ok opened
  refine ⟨?_, fun _ member => .inl member, Nat.le_refl _, rfl, id⟩
  exact fun element member => .inr (.kept (below member))

theorem effect_of_flipBranch (flipped : flipBranch state = .ok next) :
    State.Effect .flipBranch state next := by
  obtain ⟨taken, outer, isBranches, rfl⟩ := of_flipBranch_eq_ok flipped
  exact .ofSame rfl rfl (by rw [isBranches]; exact Nat.le_refl _) rfl rfl

theorem effect_of_closeBranch (closed : closeBranch state = .ok next) :
    State.Effect .closeBranch state next := by
  obtain ⟨taken, outer, isBranches, rfl⟩ := of_closeBranch_eq_ok closed
  exact .ofSame rfl rfl (by rw [isBranches]; exact Nat.le_succ _) rfl rfl

theorem effect_of_moveToAlt (moved : moveToAlt state = .ok next) :
    State.Effect .toAlt state next := by
  obtain ⟨top, rest, isStack, rfl⟩ := of_moveToAlt_eq_ok moved
  refine ⟨?_, ?_, Nat.le_refl _, rfl, id⟩
  · exact fun element member => .inr (.kept (isStack ▸ List.mem_cons_of_mem top member))
  · refine List.forall_mem_cons.mpr ⟨?_, fun _ member => .inl member⟩
    exact .inr (isStack ▸ List.mem_cons_self)

theorem effect_of_moveFromAlt (moved : moveFromAlt state = .ok next) :
    State.Effect .fromAlt state next := by
  obtain ⟨top, rest, isAlt, rfl⟩ := of_moveFromAlt_eq_ok moved
  refine ⟨?_, ?_, Nat.le_refl _, rfl, id⟩
  · refine List.forall_mem_cons.mpr ⟨.inl (isAlt ▸ List.mem_cons_self), ?_⟩
    exact fun _ member => .inr (.kept member)
  · exact fun element member => .inl (isAlt ▸ List.mem_cons_of_mem top member)

theorem of_checkSignature_eq_ok {thenVerify : Bool}
    (checked : (context.checkSignature thenVerify state).result = .ok next) :
    ∃ key signature rest accepted stack, state.stack = key :: signature :: rest ∧
      giveAnswer thenVerify accepted .checkSigVerify rest = .ok stack ∧
        next = state.withStack stack := by
  unfold checkSignature at checked
  split at checked
  · rename_i key signature rest isStack
    obtain ⟨accepted, -, checked⟩ := result_bind_eq_ok_iff.mp checked
    obtain ⟨-, checked⟩ := result_require_bind_eq_ok_iff.mp checked
    obtain ⟨stack, given, checked⟩ := result_bind_eq_ok_iff.mp checked
    cases checked
    exact ⟨key, signature, rest, accepted, stack, isStack, given, rfl⟩
  · cases checked

theorem effect_of_checkSignature {thenVerify : Bool}
    (checked : (context.checkSignature thenVerify state).result = .ok next) :
    State.Effect (.checkSignature thenVerify) state next := by
  obtain ⟨key, signature, rest, accepted, stack, isStack, given, rfl⟩ :=
    of_checkSignature_eq_ok checked
  refine .ofStack (made_of_giveAnswer ?_ given) rfl
  rw [isStack]
  exact fun _ member => List.mem_cons_of_mem _ (List.mem_cons_of_mem _ member)

theorem keysAsked_of_multisigOperands {operands : MultisigOperands} {counted : State}
    (thenVerify : Bool) (read : context.multisigOperands state = .ok (operands, counted)) :
    (Operation.checkMultisig thenVerify).keysAsked state.stack = operands.keys.length := by
  obtain ⟨-, ⟨top, below, isTop, isCount⟩, -, -⟩ := of_multisigOperands_eq_ok read
  rw [isTop, Operation.keysAsked, ← Stack.eq_value_of_operand_eq_ok isCount, Int.toNat_natCast]

/-- A multiple check puts its answer in the place of its operands, and counts its keys. -/
theorem of_checkMultisig_eq_ok {thenVerify : Bool}
    (checked : (context.checkMultisig thenVerify state).result = .ok next) :
    ∃ operands counted accepted stack,
      context.multisigOperands state = .ok (operands, counted) ∧
        giveAnswer thenVerify accepted .checkMultisigVerify operands.rest = .ok stack ∧
          next = counted.withStack stack := by
  obtain ⟨⟨operands, counted⟩, read, checked⟩ := result_bind_eq_ok_iff.mp checked
  obtain ⟨accepted, -, checked⟩ := result_bind_eq_ok_iff.mp checked
  obtain ⟨-, checked⟩ := result_require_bind_eq_ok_iff.mp checked
  obtain ⟨-, checked⟩ := result_require_bind_eq_ok_iff.mp checked
  obtain ⟨stack, given, checked⟩ := result_bind_eq_ok_iff.mp checked
  cases checked
  exact ⟨operands, counted, accepted, stack, read, given, rfl⟩

theorem effect_of_checkMultisig {thenVerify : Bool}
    (checked : (context.checkMultisig thenVerify state).result = .ok next) :
    State.Effect (.checkMultisig thenVerify) state next := by
  obtain ⟨operands, counted, accepted, stack, read, given, rfl⟩ := of_checkMultisig_eq_ok checked
  have asked := keysAsked_of_multisigOperands thenVerify read
  obtain ⟨lie, -, -, counts⟩ := of_multisigOperands_eq_ok read
  rw [← asked] at counts
  obtain ⟨within, rfl⟩ := State.countOperations_eq_ok_iff.mp counts
  refine ⟨?_, fun _ member => .inl member, Nat.le_refl _, rfl, fun _ => within⟩
  exact fun element member => .inr (made_of_giveAnswer lie.rest_subset given element member)

theorem made_of_number {opcode : Opcode} {value : Int}
    (means : Operation.ofOpcode opcode = .number value) (stack : Stack) :
    ∀ element ∈ ScriptNumber.encode value :: stack,
      Stack.Made stack (ScriptNumber.encode value :: stack) element := by
  have pushed : Instruction.pushed? (.op opcode) = some (ScriptNumber.encode value) := by
    rw [Instruction.pushed?, means]
  refine Stack.made_of_brief ?_ (List.Subset.refl _)
  rcases Script.small_of_pushed?_op pushed with isNegative | ⟨number, isNumber⟩
  · rw [isNegative]
    decide
  · rw [isNumber]
    refine Stack.brief_of_encode ?_
    have small := number.isLt
    omega

/-- An operation that succeeds has one of a few effects. -/
theorem effect_of_operate {opcode : Opcode}
    (operated : (context.operate index (.ofOpcode opcode) state).result = .ok next) :
    State.Effect (.ofOpcode opcode) state next := by
  cases means : Operation.ofOpcode opcode with rw [means] at operated
  | number value =>
      cases operated
      exact .ofStack (made_of_number means state.stack) rfl
  | nop =>
      cases operated
      exact .ofSame rfl rfl (Nat.le_refl _) rfl rfl
  | reservedNop =>
      cases eq_of_reservedNop operated
      exact .ofSame rfl rfl (Nat.le_refl _) rfl rfl
  | checkLockTime =>
      cases eq_of_checkLockTime operated
      exact .ofSame rfl rfl (Nat.le_refl _) rfl rfl
  | checkSequence =>
      cases eq_of_checkSequence operated
      exact .ofSame rfl rfl (Nat.le_refl _) rfl rfl
  | openBranch negated => exact effect_of_openBranch operated
  | flipBranch => exact effect_of_flipBranch operated
  | closeBranch => exact effect_of_closeBranch operated
  | verify => exact effect_of_onStack (fun _ => Stack.made_of_applyVerify) rfl operated
  | fail => cases operated
  | toAlt => exact effect_of_moveToAlt operated
  | fromAlt => exact effect_of_moveFromAlt operated
  | stack change => exact effect_of_onStack (fun _ => Stack.made_of_apply) rfl operated
  | equal thenVerify => exact effect_of_onStack (fun _ => Stack.made_of_applyEqual) rfl operated
  | unary change => exact effect_of_onStack (fun _ => Stack.made_of_applyUnary) rfl operated
  | binary change => exact effect_of_onStack (fun _ => Stack.made_of_applyBinary) rfl operated
  | numEqualVerify =>
      exact effect_of_onStack (fun _ => Stack.made_of_applyNumEqualVerify) rfl operated
  | within => exact effect_of_onStack (fun _ => Stack.made_of_applyWithin) rfl operated
  | hash change => exact effect_of_onStack (fun _ => Stack.made_of_applyHash) rfl operated
  | codeSeparator =>
      cases operated
      exact .ofSame rfl rfl (Nat.le_refl _) rfl rfl
  | checkSignature thenVerify => exact effect_of_checkSignature operated
  | checkMultisig thenVerify => exact effect_of_checkMultisig operated
  | bad => cases operated

end Context

/-! ## Instructions -/

theorem Instruction.countP_isCounted_singleton (instruction : Instruction) :
    [instruction].countP (·.opcode.isCounted) = instruction.opcode.isCounted.toNat := by
  rw [List.countP_singleton]
  cases instruction.opcode.isCounted <;> rfl

/-- How many keys an instruction counts in a state: those of a multiple check, if it is
executed. -/
def Instruction.keysAsked (instruction : Instruction) (state : State) : Nat :=
  match instruction with
  | .push _ _ => 0
  | .op opcode => if state.executing then (Operation.ofOpcode opcode).keysAsked state.stack else 0

theorem Instruction.keysAsked_of_carried {opcode : Opcode} {state : State}
    (carried : (state.executing || Context.isConditional opcode) = true) :
    (Instruction.op opcode).keysAsked state =
      (Operation.ofOpcode opcode).keysAsked state.stack := by
  rw [keysAsked]
  split
  · rfl
  · rename_i skipping
    have conditional := (Bool.or_eq_true_iff.mp carried).resolve_left skipping
    exact (Operation.keysAsked_of_isConditional conditional _).symm

namespace Context

open Outcome

variable {context : Context} {index : Nat} {state next : State}

theorem room_of_step {instruction : Instruction}
    (stepped : (context.step index instruction state).result = .ok next) :
    next.stack.length + next.alt.length ≤ Limits.maxStackSize := by
  obtain ⟨-, -, -, room⟩ := step_eq_ok_iff.mp stepped
  exact room

/-- An instruction that succeeds keeps the stacks short and counts exactly what it asks
for. -/
theorem step_bounded {instruction : Instruction} (bounded : state.Bounded)
    (stepped : (context.step index instruction state).result = .ok next) :
    next.Bounded ∧
      next.operations = state.operations + instruction.opcode.isCounted.toNat +
        instruction.keysAsked state := by
  obtain ⟨checked, passed, carries, room⟩ := step_eq_ok_iff.mp stepped
  obtain ⟨short, rfl, within⟩ := of_checkLimits_eq_ok passed
  have within := within bounded.operations
  have counted : ({ state with
      operations := state.operations + instruction.opcode.isCounted.toNat } : State).Bounded :=
    ⟨bounded.stack, bounded.alt, within, Nat.le_trans bounded.branches (Nat.le_add_right _ _)⟩
  cases instruction with
  | push form data =>
      rw [carryOut] at carries
      split at carries
      · split at carries
        · cases carries
        · cases carries
          refine ⟨⟨?_, counted.alt, counted.operations, counted.branches⟩, rfl⟩
          exact List.forall_mem_cons.mpr ⟨short data rfl, counted.stack⟩
      · cases carries
        exact ⟨counted, rfl⟩
  | op opcode =>
      rw [carryOut] at carries
      split at carries
      · rename_i carried
        have executed : (state.executing || isConditional opcode) = true := carried
        have effect := effect_of_operate carries
        obtain ⟨stackShort, altShort⟩ :=
          effect.isShort counted (Nat.le_trans (Nat.le_add_right _ _) room)
        have opened := Operation.opened_ofOpcode_le opcode
        have branches := effect.branches
        have operations := effect.operations
        have before := bounded.branches
        refine ⟨⟨stackShort, altShort, effect.limit within, ?_⟩, ?_⟩
        · dsimp only [Instruction.opcode] at branches operations
          omega
        · rw [Instruction.keysAsked_of_carried executed]
          exact operations
      · rename_i skipped
        have skipping : ¬ state.executing = true :=
          fun executing => skipped (Bool.or_eq_true_iff.mpr (.inl executing))
        cases carries
        refine ⟨counted, ?_⟩
        rw [Instruction.keysAsked, if_neg skipping, Nat.add_zero]

/-! ## Runs -/

/-- The state after the first instructions of a script, `count` of them. -/
def stateAfter (context : Context) (stack : Stack) (count : Nat) : Outcome State :=
  context.steps 0 (context.script.instructions.take count) (.ofStack stack)

/-- How many keys the first instructions of a script count, `count` of them. -/
def keysAsked (context : Context) (stack : Stack) : Nat → Nat
  | 0 => 0
  | count + 1 =>
      context.keysAsked stack count +
        match (context.stateAfter stack count).result, context.script.instructions[count]? with
        | .ok state, some instruction => instruction.keysAsked state
        | _, _ => 0

variable (context)

theorem steps_append (index : Nat) (first second : List Instruction) (state : State) :
    context.steps index (first ++ second) state =
      context.steps index first state >>= context.steps (index + first.length) second := by
  induction first generalizing index state with
  | nil => rfl
  | cons instruction rest ih =>
      rw [List.cons_append, steps, steps, Outcome.bind_assoc, List.length_cons]
      congr 1
      funext next
      rw [ih, Nat.add_assoc, Nat.add_comm 1]

theorem stateAfter_succ {stack : Stack} {count : Nat} {instruction : Instruction}
    (found : context.script.instructions[count]? = some instruction) :
    context.stateAfter stack (count + 1) =
      context.stateAfter stack count >>= context.step count instruction := by
  obtain ⟨inside, -⟩ := List.getElem?_eq_some_iff.mp found
  have before : (context.script.instructions.take count).length = count :=
    List.length_take_of_le (Nat.le_of_lt inside)
  rw [stateAfter, List.take_add_one, found, Option.toList_some, steps_append, before, Nat.zero_add]
  congr 1
  funext state
  exact andThen_succeed _

theorem room_of_stateAfter {stack : Stack} {index : Nat} {state : State}
    (inside : index < context.script.instructions.length)
    (reached : (context.stateAfter stack (index + 1)).result = .ok state) :
    state.stack.length + state.alt.length ≤ Limits.maxStackSize := by
  rw [stateAfter_succ context (List.getElem?_eq_getElem inside)] at reached
  obtain ⟨before, -, stepped⟩ := result_bind_eq_ok_iff.mp reached
  exact room_of_step stepped

/-- Before the first instruction, and after each one, the limits are kept and the
operations are known. -/
theorem stateAfter_bounded {stack : Stack} {count : Nat} {state : State} (short : stack.IsShort)
    (inside : count ≤ context.script.instructions.length)
    (reached : (context.stateAfter stack count).result = .ok state) :
    state.Bounded ∧
      state.operations =
        (context.script.instructions.take count).countP (·.opcode.isCounted) +
          context.keysAsked stack count := by
  induction count generalizing state with
  | zero =>
      cases reached
      exact ⟨⟨short, nofun, Nat.zero_le _, Nat.zero_le _⟩, rfl⟩
  | succ count ih =>
      obtain ⟨instruction, found⟩ : ∃ instruction,
          context.script.instructions[count]? = some instruction :=
        ⟨_, List.getElem?_eq_getElem inside⟩
      rw [stateAfter_succ context found] at reached
      obtain ⟨before, reachedBefore, stepped⟩ := result_bind_eq_ok_iff.mp reached
      obtain ⟨bounded, operations⟩ := ih (Nat.le_of_lt inside) reachedBefore
      obtain ⟨bounded, counts⟩ := step_bounded bounded stepped
      refine ⟨bounded, ?_⟩
      rw [counts, operations, keysAsked, reachedBefore, found, List.take_add_one, found,
        Option.toList_some, List.countP_append, Instruction.countP_isCounted_singleton]
      dsimp only
      omega

theorem evaluate_eq_stateAfter (stack : Stack) :
    context.evaluate stack = (do
      Outcome.require (context.script.length ≤ Limits.maxScriptSize) .scriptSize
      let state ← context.stateAfter stack context.script.instructions.length
      Outcome.require context.script.isWhole .badOpcode
      Outcome.require state.branches.isEmpty .unbalancedConditional
      return state.stack) := by
  rw [stateAfter, List.take_length]
  rfl

theorem isShort_of_evaluate {stack left : Stack} (short : stack.IsShort)
    (evaluated : (context.evaluate stack).result = .ok left) : left.IsShort := by
  rw [evaluate_eq_stateAfter] at evaluated
  obtain ⟨-, evaluated⟩ := result_require_bind_eq_ok_iff.mp evaluated
  obtain ⟨final, reached, evaluated⟩ := result_bind_eq_ok_iff.mp evaluated
  obtain ⟨-, evaluated⟩ := result_require_bind_eq_ok_iff.mp evaluated
  obtain ⟨-, evaluated⟩ := result_require_bind_eq_ok_iff.mp evaluated
  cases evaluated
  exact (context.stateAfter_bounded short (Nat.le_refl _) reached).1.stack

end Context

end CoinSpend
