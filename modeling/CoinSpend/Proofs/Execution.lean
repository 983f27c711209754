import CoinSpend.Proofs.PushOnly

/-!
# Running known instructions

Where the instructions of a script are known it is run forward: each kind of instruction
has a law that gives the state after it, and a sequence is run by chaining these laws.
Nothing is asked on the way.
-/

namespace CoinSpend

namespace Outcome

variable {α β : Type}

theorem pure_bind (value : α) (next : α → Outcome β) : (pure value >>= next) = next value :=
  rfl

theorem require_of_met {condition : Bool} (met : condition = true) (error : ScriptError) :
    require condition error = pure () := by
  rw [require, if_pos met]
  rfl

theorem bind_assoc {γ : Type} (first : Outcome α) (next : α → Outcome β) (last : β → Outcome γ) :
    (first >>= next >>= last) = first >>= fun value => next value >>= last :=
  andThen_assoc first next last

theorem bind_pure_unit (outcome : Outcome Unit) : (outcome >>= fun _ => pure ()) = outcome :=
  andThen_succeed outcome

theorem require_bind_of_met {condition : Bool} (met : condition = true) (error : ScriptError)
    (next : Unit → Outcome β) : (require condition error >>= next) = next () := by
  rw [require_of_met met, pure_bind]

theorem require_bind_of_unmet {condition : Bool} (unmet : condition = false) (error : ScriptError)
    (next : Unit → Outcome β) : (require condition error >>= next) = fail error := by
  rw [unmet]
  rfl

end Outcome

/-! ## Limits -/

theorem Opcode.isCounted_of_isDisabled {opcode : Opcode} (disabled : opcode.isDisabled = true) :
    opcode.isCounted = true := by
  have table : ∀ byte ∈ ([0x7e, 0x7f, 0x80, 0x81, 0x83, 0x84, 0x85, 0x86, 0x8d, 0x8e,
      0x95, 0x96, 0x97, 0x98, 0x99] : List UInt8), 0x60 < byte := by
    decide +kernel
  exact decide_eq_true (table opcode.byte (List.contains_iff_mem.mp disabled))

namespace Instruction

instance (instruction : Instruction) : Decidable instruction.WellFormed :=
  match instruction with
  | push form data => inferInstanceAs (Decidable (data.length ≤ form.maxLength))
  | op opcode => inferInstanceAs (Decidable (PushForm.ofOpcode? opcode = none))

/-- Whether a push is short enough, and in its shortest form if that is required. -/
def IsAllowed (requireMinimal : Bool) : Instruction → Prop
  | push form data =>
      data.length ≤ Limits.maxElementSize ∧
        (requireMinimal = true → isMinimalPush (form.opcode data.length) data = true)
  | op _ => True

instance (requireMinimal : Bool) (instruction : Instruction) :
    Decidable (instruction.IsAllowed requireMinimal) :=
  match instruction with
  | push form data => inferInstanceAs (Decidable (data.length ≤ Limits.maxElementSize ∧
      (requireMinimal = true → isMinimalPush (form.opcode data.length) data = true)))
  | op _ => inferInstanceAs (Decidable True)

theorem isCounted_push {form : PushForm} {data : Bytes} (wellFormed : (push form data).WellFormed) :
    (push form data).opcode.isCounted = false := by
  cases form with
  | direct =>
      have small : data.length ≤ 75 := wellFormed
      have value : (UInt8.ofNat data.length).toNat = data.length :=
        UInt8.toNat_ofNat_of_lt' (Nat.lt_of_le_of_lt small (by decide))
      have unlisted : ¬ (0x60 : UInt8) < UInt8.ofNat data.length := by
        rw [UInt8.lt_iff_toNat_lt, value]
        exact Nat.not_lt_of_le (Nat.le_trans small (by decide))
      exact decide_eq_false unlisted
  | oneByte => rfl
  | twoBytes => rfl
  | fourBytes => rfl

theorem isCounted_op_of_pushed? {opcode : Opcode} {element : Bytes}
    (pushed : pushed? (.op opcode) = some element) : opcode.isCounted = false := by
  rcases Script.isNumber_of_pushed?_op pushed with rfl | isSmall
  · rfl
  · have most := (Opcode.isSmallNumber_iff.mp isSmall).2
    exact decide_eq_false (fun above => Nat.not_lt_of_le most (UInt8.lt_iff_toNat_lt.mp above))

theorem isCounted_of_pushed? {instruction : Instruction} {element : Bytes}
    (wellFormed : instruction.WellFormed) (pushed : instruction.pushed? = some element) :
    instruction.opcode.isCounted = false := by
  cases instruction with
  | push form data => exact isCounted_push wellFormed
  | op opcode => exact isCounted_op_of_pushed? pushed

end Instruction

namespace Context

variable {context : Context} {index : Nat} {state next : State}

/-- Instructions that are not counted pass the limits unless they push too much. -/
theorem checkLimits_of_not_isCounted {instruction : Instruction}
    (uncounted : instruction.opcode.isCounted = false)
    (short : ∀ data, instruction.data? = some data → data.length ≤ Limits.maxElementSize) :
    checkLimits instruction state = .ok state := by
  have enabled : instruction.opcode.isDisabled = false := by
    rw [← Bool.not_eq_true]
    intro disabled
    rw [Opcode.isCounted_of_isDisabled disabled] at uncounted
    cases uncounted
  refine checkLimits_eq_ok_iff.mpr ⟨short, enabled, ?_, ?_⟩
  · rw [uncounted]
    exact nofun
  · rw [uncounted]
    rfl

theorem checkLimits_of_isCounted {opcode : Opcode} (counted : opcode.isCounted = true)
    (enabled : opcode.isDisabled = false) (few : state.operations < Limits.maxOperations) :
    checkLimits (.op opcode) state =
      .ok { state with operations := state.operations + 1 } := by
  refine checkLimits_eq_ok_iff.mpr ⟨nofun, enabled, fun _ => few, ?_⟩
  rw [Instruction.opcode, counted]
  rfl

/-! ## Steps -/

/-- What an instruction leaves must fit. -/
theorem step_of_carryOut {instruction : Instruction} {checked : State}
    (passed : checkLimits instruction state = .ok checked)
    (carries : context.carryOut index instruction checked = pure next) :
    context.step index instruction state = (do
      Outcome.require (next.stack.length + next.alt.length ≤ Limits.maxStackSize) .stackSize
      return next) := by
  rw [step, passed]
  change (context.carryOut index instruction checked >>= _) = _
  rw [carries, Outcome.pure_bind]

theorem step_of_carryOut_of_fits {instruction : Instruction} {checked : State}
    (passed : checkLimits instruction state = .ok checked)
    (carries : context.carryOut index instruction checked = pure next)
    (fits : next.stack.length + next.alt.length ≤ Limits.maxStackSize) :
    context.step index instruction state = pure next := by
  rw [step_of_carryOut passed carries, Outcome.require_bind_of_met (decide_eq_true fits)]

section Operation

variable {opcode : Opcode} (counted : opcode.isCounted = true)
  (enabled : opcode.isDisabled = false) (executing : state.executing = true)
  (few : state.operations < Limits.maxOperations)

include counted enabled executing few

/-- An operation that is executed is counted first, and what it leaves must fit. -/
theorem step_op :
    context.step index (.op opcode) state = (do
      let next ← context.operate index (.ofOpcode opcode)
        { state with operations := state.operations + 1 }
      Outcome.require (next.stack.length + next.alt.length ≤ Limits.maxStackSize) .stackSize
      return next) := by
  have stillExecuting :
      ({ state with operations := state.operations + 1 } : State).executing = true := executing
  rw [step, checkLimits_of_isCounted counted enabled few]
  change (context.carryOut index (.op opcode) _ >>= _) = _
  rw [carryOut, stillExecuting, Bool.true_or, if_pos rfl]

theorem step_of_operate
    (operates : context.operate index (.ofOpcode opcode)
      { state with operations := state.operations + 1 } = pure next)
    (fits : next.stack.length + next.alt.length ≤ Limits.maxStackSize) :
    context.step index (.op opcode) state = pure next := by
  rw [step_op counted enabled executing few, operates, Outcome.pure_bind,
    Outcome.require_bind_of_met (decide_eq_true fits)]

end Operation

/-- An instruction that pushes puts its element on top, if there is room for it. -/
theorem step_pushed? {instruction : Instruction} {element : Bytes}
    (wellFormed : instruction.WellFormed) (pushed : instruction.pushed? = some element)
    (allowed : instruction.IsAllowed context.requireMinimal) (executing : state.executing = true) :
    context.step index instruction state = (do
      Outcome.require (state.stack.length + 1 + state.alt.length ≤ Limits.maxStackSize) .stackSize
      return state.withStack (element :: state.stack)) := by
  have uncounted := Instruction.isCounted_of_pushed? wellFormed pushed
  cases instruction with
  | push form data =>
      obtain rfl : data = element := Option.some.inj pushed
      obtain ⟨short, minimal⟩ := allowed
      have briefData : ∀ other, (Instruction.push form data).data? = some other →
          other.length ≤ Limits.maxElementSize := by
        rintro _ ⟨⟩
        exact short
      have accepted : ¬ (context.requireMinimal &&
          !Instruction.isMinimalPush (form.opcode data.length) data) = true := by
        cases required : context.requireMinimal with
        | false => exact Bool.false_ne_true
        | true =>
            rw [minimal required]
            exact Bool.false_ne_true
      have carries : context.carryOut index (.push form data) state =
          pure (state.withStack (data :: state.stack)) := by
        rw [carryOut, if_pos executing, if_neg accepted]
      exact step_of_carryOut (checkLimits_of_not_isCounted uncounted briefData) carries
  | op opcode =>
      have noData : ∀ data, (Instruction.op opcode).data? = some data →
          data.length ≤ Limits.maxElementSize := fun _ isData => by cases isData
      have carries : context.carryOut index (.op opcode) state =
          pure (state.withStack (element :: state.stack)) := by
        rw [Instruction.pushed?] at pushed
        rw [carryOut, executing, Bool.true_or, if_pos rfl]
        split at pushed
        · rename_i value isNumber
          cases pushed
          rw [isNumber]
          rfl
        · cases pushed
      exact step_of_carryOut (checkLimits_of_not_isCounted uncounted noData) carries

theorem step_of_pushed? {instruction : Instruction} {element : Bytes}
    (wellFormed : instruction.WellFormed) (pushed : instruction.pushed? = some element)
    (allowed : instruction.IsAllowed context.requireMinimal) (executing : state.executing = true)
    (room : state.stack.length + state.alt.length < Limits.maxStackSize) :
    context.step index instruction state = pure (state.withStack (element :: state.stack)) := by
  rw [step_pushed? wellFormed pushed allowed executing,
    Outcome.require_bind_of_met (decide_eq_true (by omega))]

/-! ## Runs -/

/-- Instructions that push put their elements on top, the last one uppermost. -/
theorem steps_of_pushed? {instructions : List Instruction} {elements : List Bytes}
    (wellFormed : ∀ instruction ∈ instructions, instruction.WellFormed)
    (pushed : instructions.map Instruction.pushed? = elements.map some)
    (allowed : ∀ instruction ∈ instructions, instruction.IsAllowed context.requireMinimal)
    (executing : state.executing = true)
    (room : state.stack.length + state.alt.length + instructions.length ≤ Limits.maxStackSize) :
    context.steps index instructions state =
      pure (state.withStack (elements.reverse ++ state.stack)) := by
  induction instructions generalizing index state elements with
  | nil =>
      cases elements with
      | nil => rfl
      | cons element later => cases pushed
  | cons instruction rest ih =>
      cases elements with
      | nil => cases pushed
      | cons element later =>
          rw [List.map_cons, List.map_cons, List.cons.injEq] at pushed
          obtain ⟨firstPushed, pushed⟩ := pushed
          obtain ⟨first, wellFormed⟩ := List.forall_mem_cons.mp wellFormed
          obtain ⟨firstAllowed, allowed⟩ := List.forall_mem_cons.mp allowed
          rw [List.length_cons] at room
          have stillExecuting : (state.withStack (element :: state.stack)).executing = true :=
            executing
          have lessRoom : (state.withStack (element :: state.stack)).stack.length +
              (state.withStack (element :: state.stack)).alt.length + rest.length ≤
                Limits.maxStackSize := by
            change state.stack.length + 1 + state.alt.length + rest.length ≤ _
            omega
          rw [steps, step_of_pushed? first firstPushed firstAllowed executing (by omega),
            Outcome.pure_bind, ih wellFormed pushed allowed stillExecuting lessRoom,
            List.reverse_cons, List.append_assoc]
          rfl

section Whole

variable {stack : Stack} (short : context.script.length ≤ Limits.maxScriptSize)
  (whole : context.script.brokenEnd = [])

include short whole

/-- A script runs its instructions, if they are all whole, and must close its branches. -/
theorem evaluate_of_whole :
    context.evaluate stack = (do
      let state ← context.steps 0 context.script.instructions (.ofStack stack)
      Outcome.require state.branches.isEmpty .unbalancedConditional
      return state.stack) := by
  have decoded : Instruction.decode context.script.bytes = (context.script.instructions, []) :=
    Prod.ext rfl whole
  rw [evaluate, Outcome.require_bind_of_met (decide_eq_true short), decoded]
  dsimp only
  simp only [Outcome.require_bind_of_met List.isEmpty_nil]

theorem evaluate_of_steps
    (reached : context.steps 0 context.script.instructions (.ofStack stack) = pure next)
    (closed : next.branches = []) : context.evaluate stack = pure next.stack := by
  have noBranches : next.branches.isEmpty = true := List.isEmpty_iff.mpr closed
  rw [evaluate_of_whole short whole, reached, Outcome.pure_bind,
    Outcome.require_bind_of_met noBranches]

end Whole

end Context

/-! ## Scripts made of known instructions -/

namespace Script

theorem brokenEnd_ofInstructions {instructions : List Instruction}
    (wellFormed : ∀ instruction ∈ instructions, instruction.WellFormed) :
    (ofInstructions instructions).brokenEnd = [] := by
  have decoded := Instruction.decode_flatMap_encode_append wellFormed []
  rw [List.append_nil, Instruction.decode_nil, List.append_nil] at decoded
  exact congrArg Prod.snd decoded

theorem isWhole_ofInstructions {instructions : List Instruction}
    (wellFormed : ∀ instruction ∈ instructions, instruction.WellFormed) :
    (ofInstructions instructions).isWhole = true :=
  List.isEmpty_iff.mpr (brokenEnd_ofInstructions wellFormed)

theorem isPushOnly_ofInstructions {instructions : List Instruction}
    (wellFormed : ∀ instruction ∈ instructions, instruction.WellFormed)
    (uncounted : ∀ instruction ∈ instructions, instruction.opcode.isCounted = false) :
    (ofInstructions instructions).isPushOnly = true := by
  rw [isPushOnly_iff, instructions_ofInstructions wellFormed]
  exact ⟨isWhole_ofInstructions wellFormed, uncounted⟩

/-- Data is pushed by an instruction that can be read back, unless it is too long for any. -/
theorem wellFormed_pushOf {data : Bytes} (fits : data.length ≤ PushForm.fourBytes.maxLength) :
    (pushOf data).WellFormed := by
  change data.length ≤ (PushForm.shortest data.length).maxLength
  unfold PushForm.shortest
  split_ifs with direct oneByte twoBytes
  · exact direct
  · exact oneByte
  · exact twoBytes
  · exact fits

theorem isAllowed_pushOf {data : Bytes} (long : 2 ≤ data.length)
    (short : data.length ≤ Limits.maxElementSize) (requireMinimal : Bool) :
    (pushOf data).IsAllowed requireMinimal := by
  refine ⟨short, fun _ => ?_⟩
  match data, long with
  | _ :: _ :: _, _ => exact beq_self_eq_true _

theorem pushed?_numberOf {number : Nat} (small : number ≤ 16) (requireMinimal : Bool) :
    (numberOf number).WellFormed ∧ (numberOf number).IsAllowed requireMinimal ∧
      (numberOf number).pushed? = some (ScriptNumber.encode number) := by
  have table : ∀ number : Fin 17, ∀ requireMinimal : Bool,
      (numberOf (number : Nat)).WellFormed ∧ (numberOf (number : Nat)).IsAllowed requireMinimal ∧
        (numberOf (number : Nat)).pushed? = some (ScriptNumber.encode (number : Nat)) := by
    decide +kernel
  exact table ⟨number, Nat.lt_succ_of_le small⟩ requireMinimal

end Script

theorem Context.evaluate_ofInstructions_of_pushed? {instructions : List Instruction}
    {elements : List Bytes} {flags : Flags} {checker : Checker} {version : SignatureVersion}
    {stack : Stack} (wellFormed : ∀ instruction ∈ instructions, instruction.WellFormed)
    (pushed : instructions.map Instruction.pushed? = elements.map some)
    (allowed : ∀ instruction ∈ instructions, instruction.IsAllowed (flags.has .minimalData))
    (short : (Script.ofInstructions instructions).length ≤ Limits.maxScriptSize)
    (room : stack.length + instructions.length ≤ Limits.maxStackSize) :
    evaluate ⟨.ofInstructions instructions, flags, checker, version⟩ stack =
      pure (elements.reverse ++ stack) := by
  have reached : steps ⟨.ofInstructions instructions, flags, checker, version⟩ 0
      (Script.ofInstructions instructions).instructions (.ofStack stack) =
        pure ((State.ofStack stack).withStack (elements.reverse ++ stack)) := by
    rw [Script.instructions_ofInstructions wellFormed]
    exact steps_of_pushed? wellFormed pushed allowed rfl room
  exact evaluate_of_steps short (Script.brokenEnd_ofInstructions wellFormed) reached rfl

/-! ## Scripts of one instruction -/

theorem Script.length_single (instruction : Instruction) :
    (ofInstructions [instruction]).length = instruction.size := by
  rw [length, ofInstructions, List.flatMap_singleton, Instruction.length_encode]

theorem Instruction.size_le_of_isAllowed {instruction : Instruction} {requireMinimal : Bool}
    (allowed : instruction.IsAllowed requireMinimal) :
    instruction.size ≤ 5 + Limits.maxElementSize := by
  cases instruction with
  | op opcode =>
      rw [size]
      decide
  | push form data =>
      have header : form.lengthWidth ≤ 4 := by cases form <;> decide
      have short := allowed.1
      rw [size]
      omega

theorem Script.length_single_le {instruction : Instruction} {requireMinimal : Bool}
    (allowed : instruction.IsAllowed requireMinimal) :
    (ofInstructions [instruction]).length ≤ Limits.maxScriptSize := by
  rw [length_single]
  exact Nat.le_trans (Instruction.size_le_of_isAllowed allowed) (by decide)

/-- A script of one allowed instruction that pushes puts its element on top. -/
theorem Context.evaluate_single {instruction : Instruction} {element : Bytes} {flags : Flags}
    (wellFormed : instruction.WellFormed) (pushed : instruction.pushed? = some element)
    (allowed : instruction.IsAllowed (flags.has .minimalData)) (checker : Checker)
    (version : SignatureVersion) {stack : Stack} (room : stack.length < Limits.maxStackSize) :
    evaluate ⟨.ofInstructions [instruction], flags, checker, version⟩ stack =
      pure (element :: stack) := by
  have allPushed : [instruction].map Instruction.pushed? = [element].map some :=
    congrArg ([·]) pushed
  exact evaluate_ofInstructions_of_pushed? (List.forall_mem_singleton.mpr wellFormed) allPushed
    (List.forall_mem_singleton.mpr allowed) (Script.length_single_le allowed) room

end CoinSpend
