import Mathlib.Data.List.Forall2
import CoinSpend.Proofs.Execution

/-!
# What scripts that only push leave

Instructions that are not counted push one element each, apart from the reserved one, which
fails.  Each of them passes if its push is allowed and there is room for it, so a whole script of
them succeeds exactly if every push is allowed and there is room for all.  Nothing is asked.
-/

namespace CoinSpend

/-- The opcode in front of the numbers from 1 to 16, which pushes nothing. -/
def Opcode.reserved : Opcode :=
  ⟨0x50⟩

namespace Instruction

/-- What an instruction puts on the stack: its data, or the number that its opcode stands for. -/
inductive Puts : Instruction → Bytes → Prop
  | data (form : PushForm) (bytes : Bytes) : Puts (.push form bytes) bytes
  | minusOne : Puts (.op .negate1) (ScriptNumber.encode (-1))
  | number {opcode : Opcode} {value : Nat} (positive : 1 ≤ value) (small : value ≤ 16)
      (named : opcode.byte.toNat = 0x50 + value) :
      Puts (.op opcode) (ScriptNumber.encode value)

theorem puts_of_pushed? {instruction : Instruction} {element : Bytes}
    (pushed : instruction.pushed? = some element) : instruction.Puts element := by
  cases instruction with
  | push form data =>
      cases pushed
      exact .data form _
  | op opcode =>
      rcases Script.isNumber_of_pushed?_op pushed with rfl | isSmall
      · cases pushed
        exact .minusOne
      · have notNegative : opcode ≠ .negate1 := by
          rintro rfl
          cases isSmall
        obtain ⟨least, most⟩ := Opcode.isSmallNumber_iff.mp isSmall
        rw [pushed?, Operation.ofOpcode, if_neg notNegative, if_pos isSmall] at pushed
        cases pushed
        have value : (opcode.byte.toNat : Int) - 0x50 = (opcode.byte.toNat - 0x50 : Nat) := by
          omega
        rw [value]
        exact .number (by omega) (by omega) (by omega)

theorem exists_pushed?_iff {instruction : Instruction} (wellFormed : instruction.WellFormed)
    (uncounted : instruction.opcode.isCounted = false) :
    (∃ element, instruction.pushed? = some element) ↔ instruction ≠ .op .reserved := by
  cases instruction with
  | push form data => exact iff_of_true ⟨data, rfl⟩ nofun
  | op opcode =>
      obtain ⟨byte⟩ := opcode
      have below : byte.toNat < 0x61 := by
        rw [opcode, Opcode.isCounted, decide_eq_false_iff_not, UInt8.not_lt] at uncounted
        exact Nat.lt_succ_of_le (UInt8.le_iff_toNat_le.mp uncounted)
      have all : (op ⟨byte⟩).WellFormed →
          ((pushed? (.op ⟨byte⟩)).isSome = true ↔ op ⟨byte⟩ ≠ .op .reserved) := by
        apply Bytes.of_table below
        decide +kernel
      rw [← Option.isSome_iff_exists]
      exact all wellFormed

end Instruction

namespace Context

variable {context : Context} {index : Nat} {state final : State}

/-! ## Single instructions -/

theorem isAllowed_of_step {instruction : Instruction} {next : State}
    (executing : state.executing = true)
    (reached : (context.step index instruction state).result = .ok next) :
    instruction.IsAllowed context.requireMinimal := by
  obtain ⟨checked, passed, carries, -⟩ := step_eq_ok_iff.mp reached
  obtain ⟨short, -, -⟩ := of_checkLimits_eq_ok passed
  have stillExecuting : checked.executing = true := by
    obtain ⟨⟨_, rfl⟩, -⟩ := checkLimits_eq_ok passed
    exact executing
  cases instruction with
  | op opcode => exact trivial
  | push form data =>
      refine ⟨short data rfl, fun required => ?_⟩
      rw [carryOut, if_pos stillExecuting, required, Bool.true_and] at carries
      by_contra wasteful
      rw [if_pos (by simpa using wasteful)] at carries
      cases carries

theorem asked_step_of_not_isCounted {instruction : Instruction}
    (uncounted : instruction.opcode.isCounted = false) :
    (context.step index instruction state).asked = [] := by
  have silent : ∀ checked, (context.carryOut index instruction checked).asked = [] := by
    intro checked
    cases instruction with
    | push form data =>
        rw [carryOut]
        split
        · split <;> rfl
        · rfl
    | op opcode =>
        have single : opcode.isCounted = false := uncounted
        rw [carryOut]
        split
        · rcases Operation.ofOpcode_of_not_isCounted single with ⟨value, isNumber⟩ | isBad
          · rw [isNumber]
            rfl
          · rw [isBad]
            rfl
        · rfl
  refine (Outcome.asked_bind_of_silent fun checked => ?_).trans rfl
  refine (Outcome.asked_bind_of_silent fun _ => ?_).trans (silent checked)
  exact Outcome.asked_require_bind rfl

/-! ## Sequences -/

theorem asked_steps_of_not_isCounted {instructions : List Instruction}
    (uncounted : ∀ instruction ∈ instructions, instruction.opcode.isCounted = false) :
    (context.steps index instructions state).asked = [] := by
  induction instructions generalizing index state with
  | nil => rfl
  | cons instruction rest ih =>
      obtain ⟨first, uncounted⟩ := List.forall_mem_cons.mp uncounted
      refine (Outcome.asked_bind_of_silent fun _ => ?_).trans (asked_step_of_not_isCounted first)
      exact ih uncounted

theorem isAllowed_of_steps {instructions : List Instruction}
    (uncounted : ∀ instruction ∈ instructions, instruction.opcode.isCounted = false)
    (executing : state.executing = true)
    (reached : (context.steps index instructions state).result = .ok final) :
    (∀ instruction ∈ instructions, instruction.IsAllowed context.requireMinimal) ∧
      (instructions ≠ [] →
        final.stack.length + final.alt.length ≤ Limits.maxStackSize) := by
  induction instructions generalizing index state with
  | nil => exact ⟨nofun, fun nonempty => absurd rfl nonempty⟩
  | cons instruction rest ih =>
      obtain ⟨first, uncounted⟩ := List.forall_mem_cons.mp uncounted
      obtain ⟨next, stepped, reached⟩ := Outcome.result_bind_eq_ok_iff.mp reached
      obtain ⟨-, -, -, room⟩ := step_eq_ok_iff.mp stepped
      have allowed := isAllowed_of_step executing stepped
      obtain ⟨element, -, rfl⟩ := step_of_not_isCounted first executing stepped
      have stillExecuting : (state.withStack (element :: state.stack)).executing = true :=
        executing
      obtain ⟨allAllowed, lastRoom⟩ := ih uncounted stillExecuting reached
      refine ⟨List.forall_mem_cons.mpr ⟨allowed, allAllowed⟩, fun _ => ?_⟩
      cases rest with
      | nil =>
          cases reached
          exact room
      | cons second later => exact lastRoom (List.cons_ne_nil _ _)

/-- Instructions that only push are carried out exactly if each is allowed and there is room for
all their elements. -/
theorem steps_of_not_isCounted_eq_ok_iff {instructions : List Instruction}
    (wellFormed : ∀ instruction ∈ instructions, instruction.WellFormed)
    (uncounted : ∀ instruction ∈ instructions, instruction.opcode.isCounted = false)
    (executing : state.executing = true) :
    (context.steps index instructions state).result = .ok final ↔
      (∀ instruction ∈ instructions, instruction.IsAllowed context.requireMinimal) ∧
        (instructions ≠ [] →
          state.stack.length + state.alt.length + instructions.length ≤ Limits.maxStackSize) ∧
        ∃ elements : List Bytes, instructions.map Instruction.pushed? = elements.map some ∧
          final = state.withStack (elements.reverse ++ state.stack) := by
  constructor
  · intro reached
    obtain ⟨allowed, room⟩ := isAllowed_of_steps uncounted executing reached
    obtain ⟨elements, pushed, rfl⟩ := steps_of_not_isCounted uncounted executing reached
    refine ⟨allowed, fun nonempty => ?_, elements, pushed, rfl⟩
    have enough := room nonempty
    have count := congrArg List.length pushed
    simp only [List.length_map] at count
    simp only [State.withStack, List.length_append, List.length_reverse] at enough
    omega
  · rintro ⟨allowed, room, elements, pushed, rfl⟩
    cases instructions with
    | nil =>
        obtain rfl : elements = [] := List.map_eq_nil_iff.mp pushed.symm
        rfl
    | cons instruction rest =>
        rw [steps_of_pushed? wellFormed pushed allowed executing (room (List.cons_ne_nil _ _))]
        rfl

/-! ## Whole scripts -/

theorem asked_evaluate_of_isPushOnly (pushes : context.script.isPushOnly = true)
    (stack : Stack) : (context.evaluate stack).asked = [] := by
  obtain ⟨-, uncounted⟩ := Script.isPushOnly_iff.mp pushes
  refine Outcome.asked_require_bind ?_
  refine (Outcome.asked_bind_of_silent fun _ => ?_).trans (asked_steps_of_not_isCounted uncounted)
  exact Outcome.asked_require_bind (Outcome.asked_require_bind rfl)

theorem evaluate_of_isPushOnly_eq_ok_iff {stack left : Stack}
    (pushes : context.script.isPushOnly = true) :
    (context.evaluate stack).result = .ok left ↔
      context.script.length ≤ Limits.maxScriptSize ∧
        (∀ instruction ∈ context.script.instructions,
          instruction.IsAllowed context.requireMinimal) ∧
        (context.script.instructions ≠ [] →
          stack.length + context.script.instructions.length ≤ Limits.maxStackSize) ∧
        ∃ elements : List Bytes,
          context.script.instructions.map Instruction.pushed? = elements.map some ∧
            left = elements.reverse ++ stack := by
  obtain ⟨whole, uncounted⟩ := Script.isPushOnly_iff.mp pushes
  have run : ∀ final, (context.steps 0 context.script.instructions (.ofStack stack)).result =
      .ok final ↔ _ := fun _ =>
    steps_of_not_isCounted_eq_ok_iff (fun _ => Script.wellFormed_of_mem_instructions) uncounted rfl
  rw [evaluate_eq_ok_iff]
  constructor
  · rintro ⟨short, -, final, reached, -, rfl⟩
    obtain ⟨allowed, room, elements, pushed, rfl⟩ := (run final).mp reached
    exact ⟨short, allowed, room, elements, pushed, rfl⟩
  · rintro ⟨short, allowed, room, elements, pushed, rfl⟩
    exact ⟨short, whole, _, (run _).mpr ⟨allowed, room, elements, pushed, rfl⟩, rfl, rfl⟩

end Context

/-- A script that only pushes succeeds exactly if it is short, has no reserved opcode, pushes in
an allowed way and has room for all that it pushes.  It puts one element for each instruction on
the stack, in order, and asks nothing. -/
theorem push_only_scripts_only_push {context : Context}
    (pushes : context.script.isPushOnly = true) (nonempty : context.script.instructions ≠ [])
    (stack : Stack) :
    ((∃ left, (context.evaluate stack).result = .ok left) ↔
      context.script.length ≤ 10000 ∧
      .op .reserved ∉ context.script.instructions ∧
      (∀ form data, .push form data ∈ context.script.instructions →
        data.length ≤ 520 ∧ (context.flags.has .minimalData = true →
          Instruction.isMinimalPush (form.opcode data.length) data = true)) ∧
      stack.length + context.script.instructions.length ≤ 1000) ∧
    (∀ left, (context.evaluate stack).result = .ok left →
      ∃ elements, List.Forall₂ Instruction.Puts context.script.instructions elements ∧
        left = elements.reverse ++ stack) ∧
    (context.evaluate stack).asked = [] := by
  have uncounted := (Script.isPushOnly_iff.mp pushes).2
  have succeeds : ∀ left, (context.evaluate stack).result = .ok left ↔ _ :=
    fun _ => Context.evaluate_of_isPushOnly_eq_ok_iff pushes
  have unreserved : ∀ instruction ∈ context.script.instructions,
      (∃ element, instruction.pushed? = some element) ↔ instruction ≠ .op .reserved :=
    fun instruction member => Instruction.exists_pushed?_iff
      (Script.wellFormed_of_mem_instructions member) (uncounted instruction member)
  refine ⟨⟨?_, ?_⟩, ?_, Context.asked_evaluate_of_isPushOnly pushes stack⟩
  · rintro ⟨left, evaluated⟩
    obtain ⟨short, allowed, room, elements, pushed, -⟩ := (succeeds left).mp evaluated
    have allPush := exists_map_eq_map_some_iff.mp ⟨elements, pushed⟩
    refine ⟨short, fun member => ?_, fun form data => allowed (.push form data), room nonempty⟩
    exact (unreserved _ member).mp (allPush _ member) rfl
  · rintro ⟨short, free, allowed, room⟩
    obtain ⟨elements, pushed⟩ := exists_map_eq_map_some_iff.mpr fun instruction member =>
      (unreserved instruction member).mpr fun isReserved => free (isReserved ▸ member)
    refine ⟨_, (succeeds _).mpr ⟨short, ?_, fun _ => room, elements, pushed, rfl⟩⟩
    intro instruction member
    cases instruction with
    | push form data => exact allowed form data member
    | op opcode => exact trivial
  · intro left evaluated
    obtain ⟨-, -, -, elements, pushed, rfl⟩ := (succeeds left).mp evaluated
    refine ⟨elements, ?_, rfl⟩
    rw [← List.forall₂_eq_eq_eq, List.forall₂_map_left_iff, List.forall₂_map_right_iff] at pushed
    exact pushed.imp fun _ _ => Instruction.puts_of_pushed?

def Script.pushesFive : Script :=
  .ofInstructions [.push .direct [7, 8], .push .oneByte [7, 8], .op .negate1, .op .sixteen,
    .push .direct []]

def Context.pushingFive (flags : Flags) : Context :=
  ⟨.pushesFive, flags, .refuse, .base⟩

/-- The last element is uppermost.  Where the shortest form of a push is required one of them is
refused. -/
theorem five_instructions_only_push :
    Script.pushesFive.isPushOnly = true ∧ Script.pushesFive.instructions ≠ [] ∧
    ((Context.pushingFive .none).evaluate [[3]]).result =
      .ok [[], [16], [0x81], [7, 8], [7, 8], [3]] ∧
    (∃ elements, List.Forall₂ Instruction.Puts Script.pushesFive.instructions elements ∧
      [[], [16], [0x81], [7, 8], [7, 8], [3]] = elements.reverse ++ [[3]]) ∧
    ((Context.pushingFive .none).evaluate [[3]]).asked = [] ∧
    ¬ ∃ left, ((Context.pushingFive .standard).evaluate [[3]]).result = .ok left := by
  have instructions : Script.pushesFive.instructions = [.push .direct [7, 8],
      .push .oneByte [7, 8], .op .negate1, .op .sixteen, .push .direct []] :=
    Script.instructions_ofInstructions (by decide)
  have pushes (flags : Flags) : (Context.pushingFive flags).script.isPushOnly = true :=
    Script.isPushOnly_ofInstructions (by decide) (by decide)
  have nonempty : Script.pushesFive.instructions ≠ [] := by
    rw [instructions]
    exact List.cons_ne_nil _ _
  obtain ⟨-, leaves, silent⟩ := push_only_scripts_only_push (pushes .none) nonempty [[3]]
  obtain ⟨passes, -, -⟩ := push_only_scripts_only_push (pushes .standard) nonempty [[3]]
  have evaluated : ((Context.pushingFive .none).evaluate [[3]]).result =
      .ok [[], [16], [0x81], [7, 8], [7, 8], [3]] := by
    decide +kernel
  refine ⟨pushes .none, nonempty, evaluated, leaves _ evaluated, silent, fun succeeds => ?_⟩
  obtain ⟨-, -, allowed, -⟩ := passes.mp succeeds
  have wasteful := allowed .oneByte [7, 8] (instructions ▸ by decide)
  exact absurd (wasteful.2 (by decide)) (by decide)

end CoinSpend
