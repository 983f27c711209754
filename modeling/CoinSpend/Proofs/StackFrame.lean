import CoinSpend.Proofs.InBounds
import CoinSpend.Proofs.MultisigEffect
import CoinSpend.Proofs.ResourceLimits

/-!
# What lies below is left alone

Operations find their operands from the top down, and take no more than they have made sure of.
So a run that succeeds does the same on top of any other elements, as long as there is room for
them.  Only the depth of the stack would tell that they are there.
-/

namespace CoinSpend

variable {α β γ δ : Type}

/-! ## Outcomes that carry over -/

namespace Outcome

/-- A success of the first outcome is one of the second, too, up to how its value is seen, and
the same is asked for it. -/
def Transfers (view : α → β) (first : Outcome α) (second : Outcome β) : Prop :=
  ∀ value, first.result = .ok value → second = first.map view

namespace Transfers

variable {view : α → β} {nextView : γ → δ}

theorem pure (view : α → β) (value : α) :
    Transfers view (Pure.pure value) (Pure.pure (view value)) :=
  fun _ _ => rfl

theorem fail (view : α → β) (error : ScriptError) (second : Outcome β) :
    Transfers view (Outcome.fail error) second := by
  intro value impossible
  cases impossible

theorem ofExcept (view : α → β) {first : Except ScriptError α} {second : Except ScriptError β}
    (transfers : ∀ value, first = .ok value → second = .ok (view value)) :
    Transfers view (Outcome.ofExcept first) (Outcome.ofExcept second) := by
  intro value succeeded
  obtain rfl : first = .ok value := succeeded
  rw [transfers value rfl]
  rfl

theorem same (outcome : Outcome α) : Transfers id outcome outcome := by
  obtain ⟨asked, result⟩ := outcome
  intro value succeeded
  obtain rfl : result = .ok value := succeeded
  rfl

theorem bind {first : Outcome α} {second : Outcome β} {firstNext : α → Outcome γ}
    {secondNext : β → Outcome δ} (transfers : Transfers view first second)
    (next : ∀ value, first.result = .ok value →
      Transfers nextView (firstNext value) (secondNext (view value))) :
    Transfers nextView (first >>= firstNext) (second >>= secondNext) := by
  intro final succeeded
  obtain ⟨value, reached, finished⟩ := result_bind_eq_ok_iff.mp succeeded
  obtain rfl := transfers value reached
  have seen : (first.map view).result = .ok (view value) := by
    rw [Outcome.map, reached]
    rfl
  change (first.map view).andThen secondNext = (first.andThen firstNext).map nextView
  rw [andThen_of_ok _ reached, andThen_of_ok _ seen, next value reached final finished]
  rfl

theorem require_bind {condition : Bool} {error : ScriptError} {firstNext : Unit → Outcome γ}
    {secondNext : Unit → Outcome δ}
    (next : Transfers nextView (firstNext ()) (secondNext ())) :
    Transfers nextView (require condition error >>= firstNext)
      (require condition error >>= secondNext) :=
  (same _).bind fun _ _ => next

end Transfers

theorem map_bind (first : Outcome α) (view : α → β) (next : β → Outcome γ) :
    (first.map view >>= next) = first >>= fun value => next (view value) := by
  obtain ⟨asked, result⟩ := first
  cases result <;> rfl

theorem bind_map (first : Outcome α) (next : α → Outcome β) (view : β → γ) :
    (first >>= next).map view = first >>= fun value => (next value).map view := by
  obtain ⟨asked, result⟩ := first
  cases result <;> rfl

theorem result_bind_of_error {first : Outcome α} {error : ScriptError} (next : α → Outcome β)
    (failed : first.result = .error error) : (first >>= next).result = .error error := by
  change (first.andThen next).result = .error error
  rw [andThen_of_error next failed]

/-- Only what follows the value that is reached matters. -/
theorem bind_congr {first : Outcome α} {next other : α → Outcome β}
    (alike : ∀ value, first.result = .ok value → next value = other value) :
    first >>= next = first >>= other := by
  obtain ⟨asked, result⟩ := first
  cases result with
  | error error => rfl
  | ok value =>
      change andThen _ next = andThen _ other
      simp only [andThen, alike value rfl]

end Outcome

/-! ## Changes of the stack -/

namespace Stack

/-- What a change does to a stack it does to it on top of other elements, too. -/
def IsLocal (change : Stack → Except ScriptError Stack) : Prop :=
  ∀ stack next below, change stack = .ok next → change (stack ++ below) = .ok (next ++ below)

variable {requireMinimal : Bool}

theorem depthOf_append {stack : Stack} {number : Int} {depth : Nat} (below : Stack)
    (found : depthOf stack number = .ok depth) : depthOf (stack ++ below) number = .ok depth := by
  unfold depthOf at found ⊢
  split at found
  · rename_i within
    have deeper : 0 ≤ number ∧ number < (stack ++ below).length := by
      rw [List.length_append]
      omega
    rwa [if_pos deeper]
  · cases found

theorem isLocal_fetch (moved : Bool) (depth : Nat) :
    IsLocal fun stack => fetch moved stack depth := by
  intro stack next below fetched
  dsimp only [fetch] at fetched ⊢
  split at fetched
  · rename_i element found
    have deep := (List.getElem?_eq_some_iff.mp found).1
    cases fetched
    rw [List.getElem?_append_left deep, found, List.eraseIdx_append_of_lt_length deep]
    cases moved <;> rfl
  · cases fetched

theorem isLocal_fetchAt (moved : Bool) : IsLocal (fetchAt requireMinimal moved) := by
  intro stack next below fetched
  match stack with
  | [] | [_] => cases fetched
  | top :: second :: rest =>
      obtain ⟨number, isNumber, fetched⟩ := Except.bind_eq_ok_iff.mp fetched
      obtain ⟨depth, isDepth, fetched⟩ := Except.bind_eq_ok_iff.mp fetched
      refine Except.bind_eq_ok_iff.mpr ⟨number, isNumber, ?_⟩
      refine Except.bind_eq_ok_iff.mpr ⟨depth, depthOf_append below isDepth, ?_⟩
      exact isLocal_fetch moved depth _ _ below fetched

/-- Of the operations that move or copy, only the depth looks at the whole stack. -/
theorem isLocal_apply {operation : StackOperation} (shallow : operation ≠ .depth) :
    IsLocal (apply requireMinimal operation) := by
  intro stack next below applied
  unfold apply at applied
  split at applied
  case h_7 top rest =>
    cases applied
    dsimp only [List.cons_append, apply]
    cases ScriptNumber.isTrue top <;> rfl
  case h_8 => exact absurd rfl shallow
  case h_13 => exact isLocal_fetchAt false _ _ below applied
  case h_14 => exact isLocal_fetchAt true _ _ below applied
  all_goals
    cases applied
    try rfl

theorem isLocal_applyUnary (operation : UnaryOperation) :
    IsLocal (applyUnary requireMinimal operation) := by
  intro stack next below applied
  match stack with
  | [] => cases applied
  | top :: rest =>
      obtain ⟨number, isNumber, applied⟩ := Except.bind_eq_ok_iff.mp applied
      cases applied
      exact Except.bind_eq_ok_iff.mpr ⟨number, isNumber, rfl⟩

theorem isLocal_applyBinary (operation : BinaryOperation) :
    IsLocal (applyBinary requireMinimal operation) := by
  intro stack next below applied
  match stack with
  | [] | [_] => cases applied
  | right :: left :: rest =>
      obtain ⟨leftNumber, isLeft, applied⟩ := Except.bind_eq_ok_iff.mp applied
      obtain ⟨rightNumber, isRight, applied⟩ := Except.bind_eq_ok_iff.mp applied
      cases applied
      refine Except.bind_eq_ok_iff.mpr ⟨leftNumber, isLeft, ?_⟩
      exact Except.bind_eq_ok_iff.mpr ⟨rightNumber, isRight, rfl⟩

theorem isLocal_applyNumEqualVerify : IsLocal (applyNumEqualVerify requireMinimal) := by
  intro stack next below applied
  match stack with
  | [] | [_] => cases applied
  | right :: left :: rest =>
      obtain ⟨leftNumber, isLeft, applied⟩ := Except.bind_eq_ok_iff.mp applied
      obtain ⟨rightNumber, isRight, applied⟩ := Except.bind_eq_ok_iff.mp applied
      refine Except.bind_eq_ok_iff.mpr ⟨leftNumber, isLeft, ?_⟩
      refine Except.bind_eq_ok_iff.mpr ⟨rightNumber, isRight, ?_⟩
      split at applied
      · rename_i same
        cases applied
        exact if_pos same
      · cases applied

theorem isLocal_applyWithin : IsLocal (applyWithin requireMinimal) := by
  intro stack next below applied
  match stack with
  | [] | [_] | [_, _] => cases applied
  | upper :: lower :: value :: rest =>
      obtain ⟨number, isNumber, applied⟩ := Except.bind_eq_ok_iff.mp applied
      obtain ⟨least, isLeast, applied⟩ := Except.bind_eq_ok_iff.mp applied
      obtain ⟨bound, isBound, applied⟩ := Except.bind_eq_ok_iff.mp applied
      cases applied
      refine Except.bind_eq_ok_iff.mpr ⟨number, isNumber, ?_⟩
      refine Except.bind_eq_ok_iff.mpr ⟨least, isLeast, ?_⟩
      exact Except.bind_eq_ok_iff.mpr ⟨bound, isBound, rfl⟩

theorem isLocal_applyEqual (thenVerify : Bool) : IsLocal (applyEqual thenVerify) := by
  intro stack next below applied
  match stack with
  | [] | [_] => cases applied
  | right :: left :: rest =>
      dsimp only [List.cons_append, applyEqual] at applied ⊢
      cases thenVerify with
      | false =>
          cases applied
          rfl
      | true =>
          rw [if_pos rfl] at applied ⊢
          split at applied
          · rename_i same
            cases applied
            exact if_pos same
          · cases applied

theorem isLocal_applyVerify : IsLocal applyVerify := by
  intro stack next below applied
  match stack with
  | [] => cases applied
  | top :: rest =>
      dsimp only [List.cons_append, applyVerify] at applied ⊢
      split at applied
      · rename_i isTrue
        cases applied
        exact if_pos isTrue
      · cases applied

theorem isLocal_applyHash (operation : HashOperation) : IsLocal (applyHash operation) := by
  intro stack next below applied
  match stack with
  | [] => cases applied
  | top :: rest =>
      cases applied
      rfl

end Stack

/-! ## Operations -/

namespace State

/-- A state with other elements below those of its stack. -/
def onTopOf (below : Stack) (state : State) : State :=
  state.withStack (state.stack ++ below)

variable (below : Stack) (state : State)

@[simp] theorem stack_onTopOf : (state.onTopOf below).stack = state.stack ++ below :=
  rfl

@[simp] theorem alt_onTopOf : (state.onTopOf below).alt = state.alt :=
  rfl

@[simp] theorem branches_onTopOf : (state.onTopOf below).branches = state.branches :=
  rfl

@[simp] theorem executing_onTopOf : (state.onTopOf below).executing = state.executing :=
  rfl

theorem countOperations_onTopOf {counted : State} {count : Nat}
    (counts : state.countOperations count = .ok counted) :
    (state.onTopOf below).countOperations count = .ok (counted.onTopOf below) := by
  obtain ⟨within, rfl⟩ := countOperations_eq_ok_iff.mp counts
  exact countOperations_eq_ok_iff.mpr ⟨within, rfl⟩

end State

/-- Operands that are laid out on a stack are laid out on top of other elements. -/
theorem MultisigOperands.LaidOut.append {operands : MultisigOperands} {requireMinimal : Bool}
    {stack : Stack} (laid : operands.LaidOut requireMinimal stack) (below : Stack) :
    LaidOut { operands with rest := operands.rest ++ below } requireMinimal (stack ++ below) := by
  obtain ⟨⟨keyCount, signatureCount, rfl, isKeyCount, isSignatureCount⟩, enough, few⟩ := laid
  refine ⟨⟨keyCount, signatureCount, ?_, isKeyCount, isSignatureCount⟩, enough, few⟩
  simp only [List.cons_append, List.append_assoc]

namespace Context

open Outcome

variable {context : Context} {index : Nat} {below : Stack} {state : State}

theorem onStack_onTopOf {change : Stack → Except ScriptError Stack}
    (isLocal : Stack.IsLocal change) :
    Transfers (State.onTopOf below) (onStack state change)
      (onStack (state.onTopOf below) change) := by
  refine .ofExcept _ fun next changed => ?_
  cases reached : change state.stack with
  | error error =>
      rw [reached] at changed
      cases changed
  | ok stack =>
      rw [reached] at changed
      cases changed
      rw [State.stack_onTopOf, isLocal _ _ below reached]
      rfl

theorem reservedNop_onTopOf :
    Transfers (State.onTopOf below) (context.reservedNop state)
      (context.reservedNop (state.onTopOf below)) :=
  .require_bind (.pure _ state)

theorem lockTimeOperand_onTopOf {operand : Int}
    (read : context.lockTimeOperand state = .ok operand) :
    context.lockTimeOperand (state.onTopOf below) = .ok operand := by
  rw [lockTimeOperand] at read ⊢
  rw [State.stack_onTopOf]
  split at read
  · rename_i top rest isStack
    rw [isStack]
    exact read
  · cases read

theorem checkLockTime_onTopOf :
    Transfers (State.onTopOf below) (context.checkLockTime state)
      (context.checkLockTime (state.onTopOf below)) := by
  unfold checkLockTime
  split
  · refine (Transfers.ofExcept id fun _ => lockTimeOperand_onTopOf).bind fun operand _ => ?_
    exact (Transfers.same _).bind fun _ _ => .require_bind (.pure _ state)
  · exact reservedNop_onTopOf

theorem checkSequence_onTopOf :
    Transfers (State.onTopOf below) (context.checkSequence state)
      (context.checkSequence (state.onTopOf below)) := by
  unfold checkSequence
  split
  · refine (Transfers.ofExcept id fun _ => lockTimeOperand_onTopOf).bind fun operand _ => ?_
    dsimp only [id]
    split
    · exact .pure _ state
    · exact (Transfers.same _).bind fun _ _ => .require_bind (.pure _ state)
  · exact reservedNop_onTopOf

theorem openBranch_onTopOf {negated : Bool} {next : State}
    (opened : context.openBranch negated state = .ok next) :
    context.openBranch negated (state.onTopOf below) = .ok (next.onTopOf below) := by
  rw [openBranch] at opened ⊢
  rw [State.executing_onTopOf, State.stack_onTopOf]
  split at opened
  · rename_i executing
    rw [if_pos executing]
    split at opened
    · cases opened
    · rename_i top rest isStack
      rw [isStack]
      dsimp only [List.cons_append]
      split at opened
      · cases opened
      · rename_i allowed
        cases opened
        rw [if_neg allowed]
        rfl
  · rename_i skipping
    cases opened
    rw [if_neg skipping]
    rfl

theorem flipBranch_onTopOf {next : State} (flipped : flipBranch state = .ok next) :
    flipBranch (state.onTopOf below) = .ok (next.onTopOf below) := by
  obtain ⟨taken, outer, isBranches, rfl⟩ := of_flipBranch_eq_ok flipped
  rw [flipBranch, State.branches_onTopOf, isBranches]
  rfl

theorem closeBranch_onTopOf {next : State} (closed : closeBranch state = .ok next) :
    closeBranch (state.onTopOf below) = .ok (next.onTopOf below) := by
  obtain ⟨taken, outer, isBranches, rfl⟩ := of_closeBranch_eq_ok closed
  rw [closeBranch, State.branches_onTopOf, isBranches]
  rfl

theorem moveToAlt_onTopOf {next : State} (moved : moveToAlt state = .ok next) :
    moveToAlt (state.onTopOf below) = .ok (next.onTopOf below) := by
  obtain ⟨top, rest, isStack, rfl⟩ := of_moveToAlt_eq_ok moved
  rw [moveToAlt, State.stack_onTopOf, isStack]
  rfl

theorem moveFromAlt_onTopOf {next : State} (moved : moveFromAlt state = .ok next) :
    moveFromAlt (state.onTopOf below) = .ok (next.onTopOf below) := by
  obtain ⟨top, rest, isAlt, rfl⟩ := of_moveFromAlt_eq_ok moved
  rw [moveFromAlt, State.alt_onTopOf, isAlt]
  rfl

theorem giveAnswer_append {thenVerify accepted : Bool} {error : ScriptError} {rest left : Stack}
    (answered : giveAnswer thenVerify accepted error rest = .ok left) :
    giveAnswer thenVerify accepted error (rest ++ below) = .ok (left ++ below) := by
  obtain ⟨verified, rfl⟩ := giveAnswer_eq_ok_iff.mp answered
  exact giveAnswer_eq_ok_iff.mpr ⟨verified, List.append_assoc _ _ _⟩

theorem checkSignature_onTopOf (thenVerify : Bool) :
    Transfers (State.onTopOf below) (context.checkSignature thenVerify state)
      (context.checkSignature thenVerify (state.onTopOf below)) := by
  rw [checkSignature, checkSignature, State.stack_onTopOf]
  rcases state.stack with _ | ⟨key, _ | ⟨signature, rest⟩⟩
  · exact .fail _ _ _
  · exact .fail _ _ _
  · refine (Transfers.same _).bind fun accepted _ => .require_bind ?_
    refine (Transfers.ofExcept (· ++ below) fun _ => giveAnswer_append).bind ?_
    exact fun stack _ => .pure _ (state.withStack stack)

theorem multisigOperands_onTopOf {operands : MultisigOperands} {counted : State}
    (read : context.multisigOperands state = .ok (operands, counted)) :
    context.multisigOperands (state.onTopOf below) =
      .ok ({ operands with rest := operands.rest ++ below }, counted.onTopOf below) := by
  obtain ⟨laid, counts⟩ := laidOut_of_multisigOperands read
  exact multisigOperands_of_laidOut (laid.append below)
    (State.countOperations_onTopOf below _ counts)

theorem settleMultisig_onTopOf (thenVerify : Bool) (operands : MultisigOperands) (code : Script)
    (counted : State) :
    Transfers (State.onTopOf below) (context.settleMultisig thenVerify operands code counted)
      (context.settleMultisig thenVerify { operands with rest := operands.rest ++ below } code
        (counted.onTopOf below)) := by
  refine (Transfers.same _).bind fun accepted _ => .require_bind (.require_bind ?_)
  refine (Transfers.ofExcept (· ++ below) fun _ => giveAnswer_append).bind ?_
  exact fun stack _ => .pure _ (counted.withStack stack)

theorem checkMultisig_onTopOf (thenVerify : Bool) :
    Transfers (State.onTopOf below) (context.checkMultisig thenVerify state)
      (context.checkMultisig thenVerify (state.onTopOf below)) := by
  rw [checkMultisig_eq, checkMultisig_eq]
  refine (Transfers.ofExcept _ fun found => multisigOperands_onTopOf).bind fun found _ => ?_
  exact settleMultisig_onTopOf thenVerify found.1 _ found.2

/-- Every operation but one is carried out alike on top of other elements. -/
theorem operate_onTopOf {operation : Operation} (shallow : operation ≠ .stack .depth) :
    Transfers (State.onTopOf below) (context.operate index operation state)
      (context.operate index operation (state.onTopOf below)) := by
  cases operation with
  | number value => exact .pure _ (state.withStack (ScriptNumber.encode value :: state.stack))
  | nop => exact .pure _ state
  | reservedNop => exact reservedNop_onTopOf
  | checkLockTime => exact checkLockTime_onTopOf
  | checkSequence => exact checkSequence_onTopOf
  | openBranch negated => exact .ofExcept _ fun _ => openBranch_onTopOf
  | flipBranch => exact .ofExcept _ fun _ => flipBranch_onTopOf
  | closeBranch => exact .ofExcept _ fun _ => closeBranch_onTopOf
  | verify => exact onStack_onTopOf Stack.isLocal_applyVerify
  | fail => exact .fail _ _ _
  | toAlt => exact .ofExcept _ fun _ => moveToAlt_onTopOf
  | fromAlt => exact .ofExcept _ fun _ => moveFromAlt_onTopOf
  | stack change =>
      have other : change ≠ .depth := fun same => shallow (congrArg Operation.stack same)
      exact onStack_onTopOf (Stack.isLocal_apply other)
  | equal thenVerify => exact onStack_onTopOf (Stack.isLocal_applyEqual thenVerify)
  | unary change => exact onStack_onTopOf (Stack.isLocal_applyUnary change)
  | binary change => exact onStack_onTopOf (Stack.isLocal_applyBinary change)
  | numEqualVerify => exact onStack_onTopOf Stack.isLocal_applyNumEqualVerify
  | within => exact onStack_onTopOf Stack.isLocal_applyWithin
  | hash change => exact onStack_onTopOf (Stack.isLocal_applyHash change)
  | codeSeparator => exact .pure _ { state with codeStart := index + 1 }
  | checkSignature thenVerify => exact checkSignature_onTopOf thenVerify
  | checkMultisig thenVerify => exact checkMultisig_onTopOf thenVerify
  | bad => exact .fail _ _ _

end Context

/-! ## Instructions -/

/-- The opcode that pushes the number of elements on the stack. -/
def Opcode.depth : Opcode := ⟨0x74⟩

theorem Operation.of_ofOpcode_eq_depth {opcode : Opcode}
    (means : ofOpcode opcode = .stack .depth) : opcode = .depth := by
  obtain ⟨byte⟩ := opcode
  unfold ofOpcode at means
  split_ifs at means
  unfold ofByte at means
  split at means <;> cases means
  exact congrArg Opcode.mk (by assumption)

namespace Context

open Outcome

variable {context : Context} {index : Nat} {below : Stack} {state final : State}

theorem checkLimits_onTopOf {instruction : Instruction} {checked : State}
    (passed : checkLimits instruction state = .ok checked) :
    checkLimits instruction (state.onTopOf below) = .ok (checked.onTopOf below) := by
  obtain ⟨brief, enabled, few, rfl⟩ := checkLimits_eq_ok_iff.mp passed
  exact checkLimits_eq_ok_iff.mpr ⟨brief, enabled, few, rfl⟩

theorem carryOut_onTopOf (below : Stack) {instruction : Instruction}
    (shallow : instruction ≠ .op .depth) :
    Transfers (State.onTopOf below) (context.carryOut index instruction state)
      (context.carryOut index instruction (state.onTopOf below)) := by
  cases instruction with
  | push form data =>
      rw [carryOut, carryOut, State.executing_onTopOf]
      split
      · split
        · exact .fail _ _ _
        · exact .pure _ (state.withStack (data :: state.stack))
      · exact .pure _ state
  | op opcode =>
      rw [carryOut, carryOut, State.executing_onTopOf]
      split
      · refine operate_onTopOf fun means => shallow ?_
        rw [Operation.of_ofOpcode_eq_depth means]
      · exact .pure _ state

/-- An instruction with a part of the room already taken. -/
def stepBeside (context : Context) (taken index : Nat) (instruction : Instruction)
    (state : State) : Outcome State := do
  let next ← context.step index instruction state
  Outcome.require (next.stack.length + next.alt.length + taken ≤ Limits.maxStackSize) .stackSize
  return next

/-- A sequence of instructions with a part of the room already taken. -/
def stepsBeside (context : Context) (taken index : Nat) :
    List Instruction → State → Outcome State
  | [], state => return state
  | instruction :: rest, state => do
      let next ← context.stepBeside taken index instruction state
      context.stepsBeside taken (index + 1) rest next

/-- An evaluation with a part of the room already taken. -/
def evaluateBeside (context : Context) (taken : Nat) (stack : Stack) : Outcome Stack := do
  Outcome.require (context.script.length ≤ Limits.maxScriptSize) .scriptSize
  let state ← context.stepsBeside taken 0 context.script.instructions (.ofStack stack)
  Outcome.require context.script.isWhole .badOpcode
  Outcome.require state.branches.isEmpty .unbalancedConditional
  return state.stack

/-- On top of other elements an instruction does the same, in the room that these leave. -/
theorem step_onTopOf {instruction : Instruction} {next : State}
    (shallow : instruction ≠ .op .depth)
    (stepped : (context.step index instruction state).result = .ok next) :
    context.step index instruction (state.onTopOf below) =
      (context.stepBeside below.length index instruction state).map (State.onTopOf below) := by
  obtain ⟨checked, passed, carries, room⟩ := step_eq_ok_iff.mp stepped
  have carried := carryOut_onTopOf below shallow next carries
  have fits : (next.onTopOf below).stack.length + (next.onTopOf below).alt.length =
      next.stack.length + next.alt.length + below.length := by
    rw [State.stack_onTopOf, State.alt_onTopOf, List.length_append]
    omega
  rw [stepBeside, step, step, passed, checkLimits_onTopOf passed]
  change (context.carryOut index instruction (checked.onTopOf below) >>= _) =
    ((context.carryOut index instruction checked >>= _) >>= _).map _
  rw [carried, Outcome.map_bind, Outcome.bind_assoc, Outcome.bind_map]
  refine Outcome.bind_congr fun value reached => ?_
  obtain rfl : next = value := Except.ok.inj (carries.symm.trans reached)
  rw [Outcome.bind_assoc, Outcome.require_bind_of_met (decide_eq_true room), Outcome.pure_bind,
    fits, Outcome.bind_map]
  rfl

theorem stepBeside_eq_ok_iff {taken : Nat} {instruction : Instruction} {next : State} :
    (context.stepBeside taken index instruction state).result = .ok next ↔
      (context.step index instruction state).result = .ok next ∧
        next.stack.length + next.alt.length + taken ≤ Limits.maxStackSize := by
  rw [stepBeside, result_bind_eq_ok_iff]
  constructor
  · rintro ⟨value, stepped, reached⟩
    obtain ⟨room, reached⟩ := result_require_bind_eq_ok_iff.mp reached
    cases reached
    exact ⟨stepped, of_decide_eq_true room⟩
  · rintro ⟨stepped, room⟩
    exact ⟨next, stepped, result_require_bind_eq_ok_iff.mpr ⟨decide_eq_true room, rfl⟩⟩

theorem stepBeside_of_fits {taken : Nat} {instruction : Instruction} {next : State}
    (stepped : (context.step index instruction state).result = .ok next)
    (room : next.stack.length + next.alt.length + taken ≤ Limits.maxStackSize) :
    context.stepBeside taken index instruction state =
      context.step index instruction state := by
  refine (Outcome.bind_congr fun value reached => ?_).trans (andThen_succeed _)
  obtain rfl : next = value := Except.ok.inj (stepped.symm.trans reached)
  exact Outcome.require_bind_of_met (decide_eq_true room) _ _

theorem stepBeside_of_not_fits {taken : Nat} {instruction : Instruction} {next : State}
    (stepped : (context.step index instruction state).result = .ok next)
    (full : ¬ next.stack.length + next.alt.length + taken ≤ Limits.maxStackSize) :
    (context.stepBeside taken index instruction state).result = .error .stackSize := by
  rw [stepBeside, result_bind_of_ok _ stepped, result_require_bind, decide_eq_false full]
  rfl

/-! ## Runs -/

/-- On top of other elements a run does the same, in the room that these leave. -/
theorem steps_onTopOf (below : Stack) {instructions : List Instruction}
    (shallow : ∀ instruction ∈ instructions, instruction ≠ .op .depth)
    (reached : (context.steps index instructions state).result = .ok final) :
    context.steps index instructions (state.onTopOf below) =
      (context.stepsBeside below.length index instructions state).map (State.onTopOf below) := by
  induction instructions generalizing index state with
  | nil => rfl
  | cons instruction rest ih =>
      obtain ⟨first, shallow⟩ := List.forall_mem_cons.mp shallow
      obtain ⟨next, stepped, reached⟩ := result_bind_eq_ok_iff.mp reached
      rw [steps, step_onTopOf first stepped, stepsBeside, Outcome.map_bind, Outcome.bind_map]
      refine Outcome.bind_congr fun value found => ?_
      obtain rfl : next = value :=
        Except.ok.inj (stepped.symm.trans (stepBeside_eq_ok_iff.mp found).1)
      exact ih shallow reached

/-- Whether a run goes through is only a matter of room. -/
theorem stepsBeside_cases {instructions : List Instruction} (taken : Nat)
    (reached : (context.steps index instructions state).result = .ok final) :
    context.stepsBeside taken index instructions state =
        context.steps index instructions state ∨
      (context.stepsBeside taken index instructions state).result = .error .stackSize := by
  induction instructions generalizing index state with
  | nil => exact .inl rfl
  | cons instruction rest ih =>
      obtain ⟨next, stepped, reached⟩ := result_bind_eq_ok_iff.mp reached
      rw [stepsBeside, steps]
      by_cases room : next.stack.length + next.alt.length + taken ≤ Limits.maxStackSize
      · rw [stepBeside_of_fits stepped room, result_bind_of_ok _ stepped]
        refine (ih reached).imp_left fun same => Outcome.bind_congr fun value found => ?_
        obtain rfl : next = value := Except.ok.inj (stepped.symm.trans found)
        exact same
      · exact .inr (result_bind_of_error _ (stepBeside_of_not_fits stepped room))

/-- The first part of a run that succeeds succeeds. -/
theorem exists_stateAfter {stack : Stack} (count : Nat)
    (reached : (context.steps 0 context.script.instructions (.ofStack stack)).result =
      .ok final) : ∃ own, (context.stateAfter stack count).result = .ok own := by
  rw [← List.take_append_drop count context.script.instructions, steps_append] at reached
  obtain ⟨own, reached, -⟩ := result_bind_eq_ok_iff.mp reached
  exact ⟨own, reached⟩

section Evaluation

variable {stack left : Stack}
  (shallow : ∀ instruction ∈ context.script.instructions, instruction ≠ .op .depth)
  (evaluated : (context.evaluate stack).result = .ok left)

include evaluated in
theorem evaluateBeside_cases (taken : Nat) :
    context.evaluateBeside taken stack = context.evaluate stack ∨
      (context.evaluateBeside taken stack).result = .error .stackSize := by
  obtain ⟨short, -, final, reached, -⟩ := evaluate_eq_ok_iff.mp evaluated
  have unmet := decide_eq_true short
  rcases stepsBeside_cases taken reached with same | full
  · left
    rw [evaluateBeside, same]
    rfl
  · right
    rw [evaluateBeside, Outcome.require_bind_of_met unmet]
    exact result_bind_of_error _ full

include shallow evaluated in
/-- On top of other elements an evaluation does the same, in the room that these leave. -/
theorem evaluate_onTopOf (below : Stack) :
    context.evaluate (stack ++ below) =
      (context.evaluateBeside below.length stack).map (· ++ below) := by
  obtain ⟨short, -, final, reached, -⟩ := evaluate_eq_ok_iff.mp evaluated
  have run := steps_onTopOf below shallow reached
  change (Outcome.require _ _ >>= fun _ =>
    context.steps 0 context.script.instructions ((State.ofStack stack).onTopOf below) >>= _) = _
  rw [evaluateBeside, run, Outcome.bind_map]
  refine Outcome.bind_congr fun _ _ => ?_
  rw [Outcome.map_bind, Outcome.bind_map]
  refine Outcome.bind_congr fun state _ => ?_
  rw [Outcome.bind_map]
  refine Outcome.bind_congr fun _ _ => ?_
  rw [Outcome.bind_map]
  rfl

/-- After each instruction there is room for so many more elements. -/
def HasRoom (context : Context) (stack : Stack) (taken : Nat) : Prop :=
  ∀ index < context.script.instructions.length, ∀ state,
    (context.stateAfter stack (index + 1)).result = .ok state →
      state.stack.length + state.alt.length + taken ≤ Limits.maxStackSize

include shallow evaluated in
/-- Every state that is reached on top of other elements is the one that is reached without
them, and the same was asked before. -/
theorem stateAfter_onTopOf {below : Stack} {count : Nat} {state : State}
    (reached : (context.stateAfter (stack ++ below) count).result = .ok state) :
    ∃ own, context.stateAfter stack count =
        ⟨(context.stateAfter (stack ++ below) count).asked, .ok own⟩ ∧
      state = own.onTopOf below := by
  obtain ⟨-, -, final, whole, -⟩ := evaluate_eq_ok_iff.mp evaluated
  obtain ⟨own, found⟩ := exists_stateAfter count whole
  have run : context.stateAfter (stack ++ below) count = _ :=
    steps_onTopOf below (fun instruction member =>
      shallow instruction (List.mem_of_mem_take member)) found
  rcases stepsBeside_cases below.length found with same | full
  · rw [run, same, ← stateAfter, Outcome.map, found] at reached ⊢
    cases reached
    exact ⟨own, by rw [← found], rfl⟩
  · rw [run, Outcome.map, full] at reached
    cases reached

include shallow evaluated in
/-- With enough room a run on top of other elements goes as far as without them. -/
theorem stateAfter_of_hasRoom {below : Stack} (room : context.HasRoom stack below.length)
    {count : Nat} (inside : count ≤ context.script.instructions.length) :
    context.stateAfter (stack ++ below) count =
      (context.stateAfter stack count).map (State.onTopOf below) := by
  obtain ⟨-, -, final, whole, -⟩ := evaluate_eq_ok_iff.mp evaluated
  induction count with
  | zero => rfl
  | succ count ih =>
      have found := List.getElem?_eq_getElem inside
      have other := shallow _ (List.getElem_mem inside)
      obtain ⟨after, reached⟩ := exists_stateAfter (count + 1) whole
      have fits := room count inside after reached
      rw [stateAfter_succ context found] at reached
      obtain ⟨own, before, stepped⟩ := result_bind_eq_ok_iff.mp reached
      rw [stateAfter_succ context found, ih (Nat.le_of_lt inside), Outcome.map_bind,
        stateAfter_succ context found, Outcome.bind_map]
      refine Outcome.bind_congr fun value isOwn => ?_
      obtain rfl : own = value := Except.ok.inj (before.symm.trans isOwn)
      rw [step_onTopOf other stepped, stepBeside_of_fits stepped fits]

include shallow evaluated in
/-- On top of other elements an evaluation succeeds exactly if there is room for them. -/
theorem evaluate_onTopOf_eq_ok_iff (below : Stack) :
    (context.evaluate (stack ++ below)).result = .ok (left ++ below) ↔
      context.HasRoom stack below.length := by
  constructor
  · intro succeeded index inside own reached
    obtain ⟨-, -, final, whole, -⟩ := evaluate_eq_ok_iff.mp succeeded
    obtain ⟨state, found⟩ := exists_stateAfter (index + 1) whole
    obtain ⟨same, isOwn, rfl⟩ := stateAfter_onTopOf shallow evaluated found
    rw [isOwn] at reached
    cases reached
    have room := context.room_of_stateAfter inside found
    rw [State.stack_onTopOf, State.alt_onTopOf, List.length_append] at room
    omega
  · intro room
    have reached := stateAfter_of_hasRoom shallow evaluated room (Nat.le_refl _)
    obtain ⟨short, whole, final, run, closed, rfl⟩ := evaluate_eq_ok_iff.mp evaluated
    rw [stateAfter, stateAfter, List.take_length] at reached
    refine evaluate_eq_ok_iff.mpr ⟨short, whole, final.onTopOf below, ?_, closed, rfl⟩
    rw [reached, Outcome.map, run]
    rfl

end Evaluation

end Context

/-- What lies below the stack of an evaluation is neither looked at nor changed.  Let a script
without `OP_DEPTH` succeed on a stack.  On top of any other elements it succeeds with these
below what it leaves, and asks the same, or there is no room for them.  It succeeds exactly if
they fit after each instruction.  Whatever state is reached on top of them is the one that is
reached without them; and if others stand in their place, as many as they are, the same is asked
and the result is alike.  All this holds of the machine with a column, where they stand in front
of the stack. -/
theorem evaluation_leaves_alone_what_is_below (context : Context)
    (shallow : ∀ instruction ∈ context.script.instructions, instruction ≠ .op .depth)
    (stack left : Stack) (evaluated : (context.evaluate stack).result = .ok left)
    (below : Stack) :
    ((context.evaluate (stack ++ below)).result = .ok (left ++ below) ∧
        (context.evaluate (stack ++ below)).asked = (context.evaluate stack).asked ∨
      (context.evaluate (stack ++ below)).result = .error .stackSize) ∧
    ((context.evaluate (stack ++ below)).result = .ok (left ++ below) ↔
      context.HasRoom stack below.length) ∧
    (∀ count state, (context.stateAfter (stack ++ below) count).result = .ok state →
      ∃ own, context.stateAfter stack count =
          ⟨(context.stateAfter (stack ++ below) count).asked, .ok own⟩ ∧
        state = own.onTopOf below) ∧
    (∀ other : Stack, other.length = below.length →
      (context.evaluate (stack ++ other)).asked = (context.evaluate (stack ++ below)).asked ∧
        ((context.evaluate (stack ++ other)).result = .ok (left ++ other) ↔
          (context.evaluate (stack ++ below)).result = .ok (left ++ below))) ∧
    context.evaluateOnColumn (below.reverse ++ stack.reverse) =
      .done ((context.evaluate (stack ++ below)).map List.reverse) := by
  have fits := Context.evaluate_onTopOf_eq_ok_iff shallow evaluated
  have run := Context.evaluate_onTopOf shallow evaluated
  refine ⟨?_, fits below, ?_, ?_, ?_⟩
  · rw [run]
    rcases Context.evaluateBeside_cases evaluated below.length with same | full
    · left
      rw [same, Outcome.map, evaluated]
      exact ⟨rfl, rfl⟩
    · right
      rw [Outcome.map, full]
      rfl
  · intro count state reached
    exact Context.stateAfter_onTopOf shallow evaluated reached
  · intro other alike
    rw [fits other, fits below, run, run, alike]
    exact ⟨rfl, Iff.rfl⟩
  · have agrees := context.evaluate_agrees (stack ++ below)
    rwa [List.reverse_append] at agrees

/-- Fetches the second number to the top, and adds the two. -/
def Script.fetchesAndAdds : Script :=
  .ofInstructions [.op .one, .op ⟨0x7a⟩, .op ⟨0x93⟩]

theorem Script.instructions_fetchesAndAdds :
    Script.fetchesAndAdds.instructions = [.op .one, .op ⟨0x7a⟩, .op ⟨0x93⟩] :=
  instructions_ofInstructions (by decide)

/-- For the depth to fetch from there must be a third place above those below. -/
theorem fetchesAndAdds_leaves_alone_what_is_below :
    (∀ instruction ∈ Script.fetchesAndAdds.instructions, instruction ≠ .op .depth) ∧
    (Context.evaluate ⟨.fetchesAndAdds, .mandatory, .refuse, .base⟩ [[2], [3]]).result =
      .ok [[5]] ∧
    (Context.evaluate ⟨.fetchesAndAdds, .mandatory, .refuse, .base⟩
      ([[2], [3]] ++ [[], [7]])).result = .ok ([[5]] ++ [[], [7]]) ∧
    (Context.evaluate ⟨.fetchesAndAdds, .mandatory, .refuse, .base⟩
      ([[2], [3]] ++ List.replicate 998 [])).result = .error .stackSize := by
  have shallow : ∀ instruction ∈ Script.fetchesAndAdds.instructions,
      instruction ≠ .op .depth := by
    rw [Script.instructions_fetchesAndAdds]
    decide
  have evaluated : (Context.evaluate ⟨.fetchesAndAdds, .mandatory, .refuse, .base⟩
      [[2], [3]]).result = .ok [[5]] := by
    decide +kernel
  have pushed : (Context.stateAfter ⟨.fetchesAndAdds, .mandatory, .refuse, .base⟩ [[2], [3]]
      1).result = .ok ⟨[[1], [2], [3]], [], [], 0, 0⟩ := by
    rw [Context.stateAfter, Script.instructions_fetchesAndAdds]
    rfl
  obtain ⟨few, -⟩ := evaluation_leaves_alone_what_is_below _ shallow _ _ evaluated [[], [7]]
  obtain ⟨many, fits, -⟩ := evaluation_leaves_alone_what_is_below _ shallow _ _ evaluated
    (List.replicate 998 [])
  refine ⟨shallow, evaluated, (few.resolve_right (by decide +kernel)).1, ?_⟩
  refine many.resolve_left fun succeeded => ?_
  have room := fits.mp succeeded.1 0 (by rw [Script.instructions_fetchesAndAdds]; decide) _ pushed
  rw [List.length_replicate] at room
  exact absurd room (by decide)

end CoinSpend
