import CoinSpend.Interpreter.Evaluation
import CoinSpend.Proofs.Instructions
import CoinSpend.Proofs.Outcome

/-!
# Scripts that only push

A script of pushes and small numbers puts one element on the stack for each of its
instructions and does nothing else.  So the top that it leaves is known from its last
instruction, without evaluating anything.
-/

namespace CoinSpend

/-! ## Single instructions -/

/-- What an instruction puts on the stack, if that is all it does. -/
def Instruction.pushed? : Instruction → Option Bytes
  | .push _ data => some data
  | .op opcode =>
      match Operation.ofOpcode opcode with
      | .number value => some (ScriptNumber.encode value)
      | _ => none

namespace Operation

theorem ofByte_of_le {byte : UInt8} (small : byte ≤ 0x60) : ofByte byte = .bad := by
  have below : byte.toNat < 0x61 := Nat.lt_succ_of_le (UInt8.le_iff_toNat_le.mp small)
  apply Bytes.of_table below
  decide +kernel

/-- The numbers are told apart before the table of meanings is consulted. -/
theorem ofByte_ne_number (byte : UInt8) (value : Int) : ofByte byte ≠ .number value := by
  unfold ofByte
  split <;> exact nofun

theorem ofOpcode_of_not_isCounted {opcode : Opcode} (uncounted : opcode.isCounted = false) :
    (∃ value, ofOpcode opcode = .number value) ∨ ofOpcode opcode = .bad := by
  unfold ofOpcode
  split
  · exact Or.inl ⟨_, rfl⟩
  · split
    · exact Or.inl ⟨_, rfl⟩
    · right
      apply ofByte_of_le
      rw [Opcode.isCounted, decide_eq_false_iff_not, UInt8.not_lt] at uncounted
      exact uncounted

end Operation

namespace Context

theorem checkLimits_eq_ok_iff {instruction : Instruction} {state checked : State} :
    checkLimits instruction state = .ok checked ↔
      (∀ data, instruction.data? = some data → data.length ≤ Limits.maxElementSize) ∧
        instruction.opcode.isDisabled = false ∧
        (instruction.opcode.isCounted = true → state.operations < Limits.maxOperations) ∧
        checked = { state with
          operations := state.operations + instruction.opcode.isCounted.toNat } := by
  have brief : ¬ (instruction.data?.any fun data => Limits.maxElementSize < data.length) = true ↔
      ∀ data, instruction.data? = some data → data.length ≤ Limits.maxElementSize := by
    cases instruction.data? <;> simp
  rw [← brief, checkLimits]
  split
  · rename_i long
    exact ⟨nofun, fun passed => absurd long passed.1⟩
  · rename_i short
    have enabled : ∀ counted, (if instruction.opcode.isDisabled then
        Except.error ScriptError.disabledOpcode else Except.ok counted) = .ok checked ↔
          instruction.opcode.isDisabled = false ∧ checked = counted := by
      intro counted
      cases instruction.opcode.isDisabled <;> simp [eq_comm]
    dsimp only
    cases instruction.opcode.isCounted with
    | false =>
        rw [if_neg Bool.false_ne_true, Except.bind_eq_ok_iff]
        simp [short, enabled]
    | true =>
        rw [if_pos rfl, Except.bind_eq_ok_iff]
        simp only [enabled, State.countOperations_eq_ok_iff]
        constructor
        · rintro ⟨_, ⟨few, rfl⟩, isEnabled, rfl⟩
          exact ⟨short, isEnabled, fun _ => few, rfl⟩
        · rintro ⟨-, isEnabled, few, rfl⟩
          exact ⟨_, ⟨few trivial, rfl⟩, isEnabled, rfl⟩

theorem of_checkLimits_eq_ok {instruction : Instruction} {state checked : State}
    (passed : checkLimits instruction state = .ok checked) :
    (∀ data, instruction.data? = some data → data.length ≤ Limits.maxElementSize) ∧
      checked = { state with
        operations := state.operations + instruction.opcode.isCounted.toNat } ∧
      (state.operations ≤ Limits.maxOperations → checked.operations ≤ Limits.maxOperations) := by
  obtain ⟨brief, -, few, rfl⟩ := checkLimits_eq_ok_iff.mp passed
  refine ⟨brief, rfl, ?_⟩
  cases counted : instruction.opcode.isCounted with
  | false => exact id
  | true => exact fun _ => few counted

theorem checkLimits_eq_ok {instruction : Instruction} {state checked : State}
    (passed : checkLimits instruction state = .ok checked) :
    (∃ operations, checked = { state with operations := operations }) ∧
      (instruction.opcode.isCounted = false → checked = state) := by
  obtain ⟨-, rfl, -⟩ := of_checkLimits_eq_ok passed
  refine ⟨⟨_, rfl⟩, fun uncounted => ?_⟩
  rw [uncounted]
  rfl

variable {context : Context} {index : Nat} {state final : State}

/-- A step checks the limits, carries the instruction out, and needs room for what it leaves. -/
theorem step_eq_ok_iff {instruction : Instruction} {next : State} :
    (context.step index instruction state).result = .ok next ↔
      ∃ checked, checkLimits instruction state = .ok checked ∧
        (context.carryOut index instruction checked).result = .ok next ∧
        next.stack.length + next.alt.length ≤ Limits.maxStackSize := by
  constructor
  · intro reached
    obtain ⟨checked, passed, reached⟩ := Outcome.result_bind_eq_ok_iff.mp reached
    obtain ⟨carried, carries, reached⟩ := Outcome.result_bind_eq_ok_iff.mp reached
    obtain ⟨room, reached⟩ := Outcome.result_require_bind_eq_ok_iff.mp reached
    cases reached
    exact ⟨checked, passed, carries, of_decide_eq_true room⟩
  · rintro ⟨checked, passed, carries, room⟩
    refine Outcome.result_bind_eq_ok_iff.mpr ⟨checked, passed, ?_⟩
    refine Outcome.result_bind_eq_ok_iff.mpr ⟨next, carries, ?_⟩
    exact Outcome.result_require_bind_eq_ok_iff.mpr ⟨decide_eq_true room, rfl⟩

/-- An evaluation runs a script that is short and whole, and must close its branches. -/
theorem evaluate_eq_ok_iff {stack left : Stack} :
    (context.evaluate stack).result = .ok left ↔
      context.script.length ≤ Limits.maxScriptSize ∧ context.script.isWhole = true ∧
        ∃ final, (context.steps 0 context.script.instructions (.ofStack stack)).result =
            .ok final ∧
          final.branches = [] ∧ left = final.stack := by
  constructor
  · intro evaluated
    obtain ⟨short, evaluated⟩ := Outcome.result_require_bind_eq_ok_iff.mp evaluated
    obtain ⟨final, reached, evaluated⟩ := Outcome.result_bind_eq_ok_iff.mp evaluated
    obtain ⟨whole, evaluated⟩ := Outcome.result_require_bind_eq_ok_iff.mp evaluated
    obtain ⟨closed, evaluated⟩ := Outcome.result_require_bind_eq_ok_iff.mp evaluated
    cases evaluated
    exact ⟨of_decide_eq_true short, whole, final, reached, List.isEmpty_iff.mp closed, rfl⟩
  · rintro ⟨short, whole, final, reached, closed, rfl⟩
    refine Outcome.result_require_bind_eq_ok_iff.mpr ⟨decide_eq_true short, ?_⟩
    refine Outcome.result_bind_eq_ok_iff.mpr ⟨final, reached, ?_⟩
    refine Outcome.result_require_bind_eq_ok_iff.mpr ⟨whole, ?_⟩
    exact Outcome.result_require_bind_eq_ok_iff.mpr ⟨List.isEmpty_iff.mpr closed, rfl⟩

theorem step_of_not_isCounted {instruction : Instruction} {next : State}
    (uncounted : instruction.opcode.isCounted = false) (executing : state.executing = true)
    (reached : (context.step index instruction state).result = .ok next) :
    ∃ element, instruction.pushed? = some element ∧
      next = state.withStack (element :: state.stack) := by
  obtain ⟨checked, passed, carries, -⟩ := step_eq_ok_iff.mp reached
  rw [(checkLimits_eq_ok passed).2 uncounted] at carries
  cases instruction with
  | push form data =>
      rw [carryOut, if_pos executing] at carries
      split at carries
      · cases carries
      · cases carries
        exact ⟨data, rfl, rfl⟩
  | op opcode =>
      rw [carryOut, if_pos (Bool.or_eq_true_iff.mpr (Or.inl executing))] at carries
      have single : opcode.isCounted = false := uncounted
      rcases Operation.ofOpcode_of_not_isCounted single with ⟨value, isNumber⟩ | isBad
      · rw [isNumber] at carries
        cases carries
        exact ⟨_, by rw [Instruction.pushed?, isNumber], rfl⟩
      · rw [isBad] at carries
        cases carries

/-! ## Sequences -/

theorem steps_of_not_isCounted {instructions : List Instruction}
    (uncounted : ∀ instruction ∈ instructions, instruction.opcode.isCounted = false)
    (executing : state.executing = true)
    (reached : (context.steps index instructions state).result = .ok final) :
    ∃ elements : List Bytes, instructions.map Instruction.pushed? = elements.map some ∧
      final = state.withStack (elements.reverse ++ state.stack) := by
  induction instructions generalizing index state with
  | nil =>
      cases reached
      exact ⟨[], rfl, rfl⟩
  | cons instruction rest ih =>
      obtain ⟨first, uncounted⟩ := List.forall_mem_cons.mp uncounted
      obtain ⟨next, stepped, reached⟩ := Outcome.result_bind_eq_ok_iff.mp reached
      obtain ⟨element, pushed, rfl⟩ := step_of_not_isCounted first executing stepped
      have stillExecuting : (state.withStack (element :: state.stack)).executing = true :=
        executing
      obtain ⟨elements, allPushed, rfl⟩ := ih uncounted stillExecuting reached
      refine ⟨element :: elements, ?_, ?_⟩
      · rw [List.map_cons, List.map_cons, pushed, allPushed]
      · rw [List.reverse_cons, List.append_assoc, List.singleton_append]
        rfl

end Context

theorem Script.isPushOnly_iff {script : Script} :
    script.isPushOnly = true ↔ script.isWhole = true ∧
      ∀ instruction ∈ script.instructions, instruction.opcode.isCounted = false := by
  rw [isPushOnly, Bool.and_eq_true, List.all_eq_true]
  simp only [Bool.not_eq_true']

namespace Context

variable {context : Context}

/-- A script that only pushes leaves one element for each instruction above the stack it
began with. -/
theorem evaluate_of_isPushOnly {stack left : Stack} (pushes : context.script.isPushOnly = true)
    (evaluated : (context.evaluate stack).result = .ok left) :
    ∃ elements : List Bytes,
      context.script.instructions.map Instruction.pushed? = elements.map some ∧
        left = elements.reverse ++ stack := by
  obtain ⟨-, -, final, reached, -, rfl⟩ := evaluate_eq_ok_iff.mp evaluated
  have uncounted := (Script.isPushOnly_iff.mp pushes).2
  obtain ⟨elements, pushed, rfl⟩ := steps_of_not_isCounted uncounted rfl reached
  exact ⟨elements, pushed, rfl⟩

end Context

/-! ## The redeem script -/

namespace Script

theorem last_pushed_of_evaluate {context : Context} {top : Bytes} {below : Stack}
    (pushes : context.script.isPushOnly = true)
    (evaluated : (context.evaluate []).result = .ok (top :: below)) :
    ∃ last, context.script.instructions.getLast? = some last ∧ last.pushed? = some top := by
  obtain ⟨elements, pushed, left⟩ := Context.evaluate_of_isPushOnly pushes evaluated
  rw [List.append_nil] at left
  have lastElement : elements.getLast? = some top := by
    rw [← List.head?_reverse, ← left]
    rfl
  have lastPushed : context.script.instructions.getLast?.map Instruction.pushed? =
      some (some top) := by
    rw [← List.getLast?_map, pushed, List.getLast?_map, lastElement, Option.map_some]
  exact Option.map_eq_some_iff.mp lastPushed

/-- The top that a script leaves which only pushes is its redeem script, unless it is a
small number. -/
theorem redeemScript?_of_evaluate {context : Context} {top : Bytes} {below : Stack}
    (pushes : context.script.isPushOnly = true)
    (evaluated : (context.evaluate []).result = .ok (top :: below)) :
    context.script.redeemScript? = some ⟨top⟩ ∨
      ∃ opcode, Instruction.pushed? (.op opcode) = some top ∧
        context.script.redeemScript? = some .empty := by
  obtain ⟨last, found, lastTop⟩ := last_pushed_of_evaluate pushes evaluated
  rw [redeemScript?, if_pos pushes, found, Option.map_some]
  cases last with
  | push form data =>
      cases lastTop
      exact Or.inl rfl
  | op opcode => exact Or.inr ⟨opcode, lastTop, rfl⟩

theorem isNumber_of_pushed?_op {opcode : Opcode} {top : Bytes}
    (pushed : Instruction.pushed? (.op opcode) = some top) :
    opcode = .negate1 ∨ opcode.isSmallNumber = true := by
  rw [Instruction.pushed?] at pushed
  unfold Operation.ofOpcode at pushed
  split_ifs at pushed with isNegative isSmall
  · exact Or.inl isNegative
  · exact Or.inr isSmall
  · split at pushed
    · rename_i isNumber
      exact absurd isNumber (Operation.ofByte_ne_number _ _)
    · cases pushed

theorem small_of_pushed?_op {opcode : Opcode} {top : Bytes}
    (pushed : Instruction.pushed? (.op opcode) = some top) :
    top = ScriptNumber.encode (-1) ∨
      ∃ number : Fin 17, top = ScriptNumber.encode (number : Nat) := by
  rcases isNumber_of_pushed?_op pushed with rfl | isSmall
  · cases pushed
    exact Or.inl rfl
  · have notNegative : opcode ≠ .negate1 := by
      rintro rfl
      cases isSmall
    rw [Instruction.pushed?, Operation.ofOpcode, if_neg notNegative, if_pos isSmall] at pushed
    cases pushed
    right
    obtain ⟨least, most⟩ := Opcode.isSmallNumber_iff.mp isSmall
    refine ⟨⟨opcode.byte.toNat - 0x50, by omega⟩, ?_⟩
    congr 1
    dsimp only
    omega

end Script

end CoinSpend
