import Mathlib.Data.Nat.Bitwise
import CoinSpend.Proofs.ColumnMachine

/-!
# The machine agrees with the evaluation

Each operation of the machine agrees with the operation on stacks, so each instruction and
each run do.  Agreement says that nothing crashes, because the outcome of an evaluation is
no crash.
-/

namespace CoinSpend

namespace Context

open Checked

variable {context : Context}

/-! ## Operations -/

theorem onColumn_agrees {state : State} {columnChange : Column → Checked Column}
    {change : Stack → Except ScriptError Stack}
    (agrees : Agrees List.reverse (columnChange state.stack.reverse)
      (Outcome.ofExcept (change state.stack))) :
    Agrees State.upended (onColumn state.upended columnChange) (onStack state change) := by
  have stacked : onStack state change =
      Outcome.ofExcept (change state.stack >>= fun stack => .ok (state.withStack stack)) := by
    rw [onStack]
    cases change state.stack <;> rfl
  rw [stacked]
  exact agrees.bindExcept fun stack _ => .pure State.upended (state.withStack stack)

/-- The numbers of opcodes are computed without an overflow. -/
theorem numberWord_eq {opcode : Opcode} {value : Int}
    (means : Operation.ofOpcode opcode = .number value) :
    numberWord opcode = pure (Int64.ofInt value) ∧ (Int64.ofInt value).toInt = value := by
  have isValue : value = opcode.byte.toNat - 0x50 := by
    unfold Operation.ofOpcode at means
    split_ifs at means with isNegative isSmall
    · cases means
      rw [isNegative]
      rfl
    · cases means
      rfl
    · exact absurd means (Operation.ofByte_ne_number _ _)
  have byte := opcode.byte.toNat_lt
  have base : Word.sub 0x51 1 = pure 0x50 := rfl
  have small : value.natAbs < 2 ^ 63 := by omega
  refine ⟨?_, Word.toInt_ofInt small⟩
  rw [numberWord, base, Checked.pure_bind, Word.sub, Int64.toInt_ofNat_of_lt (by omega)]
  change Word.fit (opcode.byte.toNat - 0x50) = _
  rw [← isValue, Word.fit_of_natAbs_lt small]

theorem reservedNop_agrees (state : State) :
    Agrees State.upended (lift (context.reservedNop state.upended))
      (context.reservedNop state) := by
  unfold reservedNop
  cases !context.flags.has .discourageNops <;> rfl

theorem natAbs_lt_of_lockTimeOperand {state : State} {operand : Int}
    (read : context.lockTimeOperand state = .ok operand) :
    0 ≤ operand ∧ operand.natAbs < 2 ^ 63 := by
  unfold lockTimeOperand at read
  split at read
  · obtain ⟨number, isNumber, read⟩ := Except.bind_eq_ok_iff.mp read
    split at read
    · cases read
    · rename_i nonnegative
      cases read
      exact ⟨Int.not_lt.mp nonnegative, Word.natAbs_lt_of_number (by decide) isNumber⟩
  · cases read

theorem lockTimeWord_agrees (state : State) :
    Agrees Int64.ofInt (context.lockTimeWord state.upended)
      (Outcome.ofExcept (context.lockTimeOperand state)) := by
  rw [lockTimeWord, lockTimeOperand, State.stack_upended]
  match state.stack with
  | [] => rfl
  | top :: rest =>
      have found : Column.top (top :: rest).reverse 1 = pure top := Column.top_reverse 0 rfl
      rw [found, Checked.pure_bind]
      refine (ScriptNumber.readWord_agrees _ (by decide) top).bindExcept fun number read => ?_
      have negative := Word.lt_zero_iff (Word.natAbs_lt_of_number (by decide) read)
      by_cases below : number < 0
      · rw [if_pos (negative.mpr below), if_pos below]
        rfl
      · rw [if_neg (below ∘ negative.mp), if_neg below]
        rfl

theorem checkLockTime_agrees (state : State) :
    Agrees State.upended (context.checkLockTimeOnColumn state.upended)
      (context.checkLockTime state) := by
  unfold checkLockTimeOnColumn checkLockTime
  split
  · refine (lockTimeWord_agrees state).bind fun operand read => ?_
    rw [Word.toInt_ofInt (natAbs_lt_of_lockTimeOperand read).2]
    refine (Agrees.lift _).bind fun passed _ => ?_
    exact Agrees.require_bind fun _ => .pure State.upended state
  · exact reservedNop_agrees state

/-- The disable flag is the bit 31 of a word. -/
theorem and_flag_eq_zero_iff {operand : Int} (nonnegative : 0 ≤ operand) :
    Int64.ofInt operand &&& 0x80000000 = 0 ↔ operand.toNat.testBit 31 = false := by
  obtain ⟨number, rfl⟩ := Int.eq_ofNat_of_zero_le nonnegative
  have joined : Int64.ofInt number &&& 0x80000000 =
      Int64.ofNat ((number.testBit 31).toNat * 2 ^ 31) := by
    apply Int64.toBitVec_inj.mp
    rw [Int64.toBitVec_and, ← Nat.and_two_pow]
    exact BitVec.ofNat_and.symm
  rw [joined, Int.toNat_natCast]
  cases number.testBit 31 <;> decide

theorem checkSequence_agrees (state : State) :
    Agrees State.upended (context.checkSequenceOnColumn state.upended)
      (context.checkSequence state) := by
  unfold checkSequenceOnColumn checkSequence
  split
  · refine (lockTimeWord_agrees state).bind fun operand read => ?_
    obtain ⟨nonnegative, small⟩ := natAbs_lt_of_lockTimeOperand read
    have compared := and_flag_eq_zero_iff nonnegative
    rw [Word.toInt_ofInt small]
    cases flag : operand.toNat.testBit 31 with
    | true =>
        rw [flag] at compared
        rw [if_pos (compared.not.mpr Bool.noConfusion), if_pos rfl]
        exact .pure State.upended state
    | false =>
        rw [if_neg (not_not_intro (compared.mpr flag)), if_neg Bool.false_ne_true]
        refine (Agrees.lift _).bind fun passed _ => ?_
        exact Agrees.require_bind fun _ => .pure State.upended state
  · exact reservedNop_agrees state

theorem isMinimalConditionByPosition_eq (element : Bytes) :
    isMinimalConditionByPosition element = pure (isMinimalCondition element) := by
  match element with
  | [] => rfl
  | [byte] =>
      have one : isMinimalCondition [byte] = (byte == 1) := by
        simp [isMinimalCondition]
      rw [one]
      rfl
  | first :: second :: rest =>
      have several : 1 < (first :: second :: rest).length := Nat.le_add_left 2 rest.length
      have long : isMinimalCondition (first :: second :: rest) = false := by
        simp [isMinimalCondition]
      rw [isMinimalConditionByPosition, if_pos several, long]

theorem openBranch_agrees (negated : Bool) (state : State) :
    Agrees State.upended (context.openBranchOnColumn negated state.upended)
      (Outcome.ofExcept (context.openBranch negated state)) := by
  rw [openBranchOnColumn, openBranch, State.executing_upended, State.stack_upended,
    List.getLast?_reverse]
  cases state.executing with
  | false => rfl
  | true =>
      rw [if_pos rfl, if_pos rfl]
      cases state.stack with
      | nil => rfl
      | cons top rest =>
          dsimp only [List.head?_cons]
          rw [Column.pop_reverse, isMinimalConditionByPosition_eq]
          cases context.version == .witnessV0 && context.flags.has .minimalIf with
          | false => rfl
          | true => cases isMinimalCondition top <;> rfl

theorem flipBranch_agrees (state : State) :
    Agrees State.upended (lift (Outcome.ofExcept (flipBranch state.upended)))
      (Outcome.ofExcept (flipBranch state)) := by
  rw [flipBranch, flipBranch, State.branches_upended]
  cases state.branches <;> rfl

theorem closeBranch_agrees (state : State) :
    Agrees State.upended (lift (Outcome.ofExcept (closeBranch state.upended)))
      (Outcome.ofExcept (closeBranch state)) := by
  rw [closeBranch, closeBranch, State.branches_upended]
  cases state.branches <;> rfl

theorem moveToAlt_agrees (state : State) :
    Agrees State.upended (moveColumnToAlt state.upended)
      (Outcome.ofExcept (moveToAlt state)) := by
  rw [moveColumnToAlt, moveToAlt, State.stack_upended]
  cases state.stack with
  | nil => rfl
  | cons top rest =>
      rw [Column.pop_reverse]
      rfl

theorem moveFromAlt_agrees (state : State) :
    Agrees State.upended (moveColumnFromAlt state.upended)
      (Outcome.ofExcept (moveFromAlt state)) := by
  rw [moveColumnFromAlt, moveFromAlt, State.alt_upended, State.stack_upended]
  cases state.alt with
  | nil => rfl
  | cons top rest =>
      dsimp only
      rw [Column.push_reverse]
      rfl

theorem checkSignature_agrees (thenVerify : Bool) (state : State) :
    Agrees State.upended (context.checkSignatureOnColumn thenVerify state.upended)
      (context.checkSignature thenVerify state) := by
  rw [checkSignatureOnColumn, checkSignature, State.stack_upended]
  match state.stack with
  | [] | [_] => rfl
  | key :: signature :: rest =>
      have second : Column.top (key :: signature :: rest).reverse 2 = pure signature :=
        Column.top_reverse 1 rfl
      have first : Column.top (key :: signature :: rest).reverse 1 = pure key :=
        Column.top_reverse 0 rfl
      have position : Column.position (key :: signature :: rest).reverse 2 = pure rest.length :=
        Column.position_reverse rfl
      have below : (key :: signature :: rest).reverse.take rest.length = rest.reverse :=
        Column.take_reverse 2 rfl
      dsimp only
      rw [second, Checked.pure_bind, first, Checked.pure_bind]
      refine (Agrees.lift _).bind fun accepted _ => Agrees.require_bind fun _ => ?_
      rw [position, Checked.pure_bind, below]
      refine (Column.answer_agrees thenVerify accepted .checkSigVerify rest).bind ?_
      exact fun stack _ => .pure State.upended (state.withStack stack)

/-- Every opcode stays inside the column and inside the words. -/
theorem operate_agrees (index : Nat) (opcode : Opcode) (state : State) :
    Agrees State.upended (context.operateOnColumn index opcode state.upended)
      (context.operate index (.ofOpcode opcode) state) := by
  unfold operateOnColumn
  cases means : Operation.ofOpcode opcode with
  | number value =>
      obtain ⟨computed, isValue⟩ := numberWord_eq means
      dsimp only
      rw [computed, Checked.pure_bind, isValue, State.stack_upended, Column.push_reverse]
      exact .pure State.upended (state.withStack (ScriptNumber.encode value :: state.stack))
  | nop => exact .pure State.upended state
  | reservedNop => exact reservedNop_agrees state
  | checkLockTime => exact checkLockTime_agrees state
  | checkSequence => exact checkSequence_agrees state
  | openBranch negated => exact openBranch_agrees negated state
  | flipBranch => exact flipBranch_agrees state
  | closeBranch => exact closeBranch_agrees state
  | verify => exact onColumn_agrees (Column.applyVerify_agrees state.stack)
  | fail => exact .fail State.upended .returned
  | toAlt => exact moveToAlt_agrees state
  | fromAlt => exact moveFromAlt_agrees state
  | stack change => exact onColumn_agrees (Column.apply_agrees change state.stack)
  | equal thenVerify => exact onColumn_agrees (Column.applyEqual_agrees thenVerify state.stack)
  | unary change => exact onColumn_agrees (Column.applyUnary_agrees change state.stack)
  | binary change => exact onColumn_agrees (Column.applyBinary_agrees change state.stack)
  | numEqualVerify => exact onColumn_agrees (Column.applyNumEqualVerify_agrees state.stack)
  | within => exact onColumn_agrees (Column.applyWithin_agrees state.stack)
  | hash change => exact onColumn_agrees (Column.applyHash_agrees change state.stack)
  | codeSeparator => exact .pure State.upended { state with codeStart := index + 1 }
  | checkSignature thenVerify => exact checkSignature_agrees thenVerify state
  | checkMultisig thenVerify => exact context.checkMultisigOnColumn_agrees thenVerify state
  | bad => exact .fail State.upended .badOpcode

/-! ## Instructions and runs -/

theorem checkLimits_agrees (instruction : Instruction) (state : State) :
    Agrees State.upended (lift (Outcome.ofExcept (checkLimits instruction state.upended)))
      (Outcome.ofExcept (checkLimits instruction state)) := by
  unfold checkLimits
  split
  · exact .fail State.upended .pushSize
  · cases instruction.opcode.isCounted with
    | false => cases instruction.opcode.isDisabled <;> rfl
    | true =>
        rw [if_pos rfl, if_pos rfl, State.countOperations, State.countOperations,
          State.operations_upended]
        by_cases tooMany : Limits.maxOperations < state.operations + 1
        · rw [if_pos tooMany, if_pos tooMany]
          rfl
        · rw [if_neg tooMany, if_neg tooMany]
          cases instruction.opcode.isDisabled <;> rfl

theorem carryOut_agrees (index : Nat) (instruction : Instruction) (state : State) :
    Agrees State.upended (context.carryOutOnColumn index instruction state.upended)
      (context.carryOut index instruction state) := by
  cases instruction with
  | push form data =>
      rw [carryOutOnColumn, carryOut, State.executing_upended, State.stack_upended,
        Column.push_reverse]
      split
      · split
        · exact .fail State.upended .minimalData
        · exact .pure State.upended (state.withStack (data :: state.stack))
      · exact .pure State.upended state
  | op opcode =>
      rw [carryOutOnColumn, carryOut, State.executing_upended]
      split
      · exact operate_agrees index opcode state
      · exact .pure State.upended state

theorem step_agrees (index : Nat) (instruction : Instruction) (state : State) :
    Agrees State.upended (context.stepOnColumn index instruction state.upended)
      (context.step index instruction state) := by
  refine (checkLimits_agrees instruction state).bind fun checked _ => ?_
  refine (carryOut_agrees index instruction checked).bind fun next _ => ?_
  rw [State.stack_upended, List.length_reverse, State.alt_upended]
  exact Agrees.require_bind fun _ => .pure State.upended next

/-- No run of instructions crashes. -/
theorem steps_agrees (index : Nat) (instructions : List Instruction) (state : State) :
    Agrees State.upended (context.stepsOnColumn index instructions state.upended)
      (context.steps index instructions state) := by
  induction instructions generalizing index state with
  | nil => exact .pure State.upended state
  | cons instruction rest ih =>
      refine (step_agrees index instruction state).bind fun next _ => ?_
      exact ih (index + 1) next

theorem evaluate_agrees (context : Context) (stack : Stack) :
    Agrees List.reverse (context.evaluateOnColumn stack.reverse) (context.evaluate stack) := by
  refine Agrees.require_bind fun _ => ?_
  refine (steps_agrees 0 _ (.ofStack stack)).bind fun state _ => ?_
  refine Agrees.require_bind fun _ => Agrees.require_bind fun _ => ?_
  exact .pure List.reverse state.stack

end Context

/-- The machine never leaves its arrays, and none of its numbers overflows: every run and every
single instruction, from whatever state, has the outcome it has on stacks.  Once a multiple
check has found the places of its operands, nothing it looks at or takes away is missing. -/
theorem machine_never_crashes :
    (∀ (context : Context) (column : Column),
      context.evaluateOnColumn column =
        .done ((context.evaluate column.reverse).map List.reverse)) ∧
    (∀ (context : Context) (index : Nat) (instruction : Instruction) (state : State),
      context.stepOnColumn index instruction state.upended =
        .done ((context.step index instruction state).map State.upended)) ∧
    ∀ (context : Context) (thenVerify : Bool) (state counted : State) (places : MultisigPlaces),
      context.multisigPlaces state = pure (places, counted) →
        ∃ outcome, context.checkPlaces thenVerify places counted = .done outcome ∧
          outcome.result ≠ .error .invalidStackOperation := by
  refine ⟨fun context column => ?_, fun context index instruction state => ?_,
    fun context thenVerify _ _ _ found => context.checkPlaces_avoids thenVerify found⟩
  · have agrees := context.evaluate_agrees column.reverse
    rwa [List.reverse_reverse] at agrees
  · exact Context.step_agrees index instruction state

/-- Below the number of keys stand a key, the number of signatures and the unused element. -/
theorem machine_finds_places_of_one_key :
    Context.multisigPlaces ⟨.empty, .standard, .refuse, .base⟩ (.ofStack [[], [], [1], [1]]) =
        pure (⟨1, 2, 0, 4, 3, 4⟩, ⟨[[], [], [1], [1]], [], [], 1, 0⟩) ∧
      ∃ outcome, Context.checkPlaces ⟨.empty, .standard, .refuse, .base⟩ false
          ⟨1, 2, 0, 4, 3, 4⟩ ⟨[[], [], [1], [1]], [], [], 1, 0⟩ = .done outcome ∧
        outcome.result ≠ .error .invalidStackOperation := by
  have found : Context.multisigPlaces ⟨.empty, .standard, .refuse, .base⟩
      (.ofStack [[], [], [1], [1]]) =
        pure (⟨1, 2, 0, 4, 3, 4⟩, ⟨[[], [], [1], [1]], [], [], 1, 0⟩) := rfl
  exact ⟨found, machine_never_crashes.2.2 _ false _ _ _ found⟩

end CoinSpend
