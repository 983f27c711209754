import CoinSpend.Proofs.MultisigOperands
import CoinSpend.Proofs.PushOnly
import CoinSpend.Script.SignatureCount

/-!
# The checks counted in a script bound the checks that are made

Counting looks at the opcodes of a script without running it, and trusts the number that
stands before a multiple check.  A run never asks for more signatures than were counted:
where that number is trusted it was pushed by the instruction before, so it is the number
of keys on top of the stack.
-/

namespace CoinSpend

/-! ## Questions about signatures -/

def Question.isSignature : Question → Bool
  | .signature _ _ _ _ => true
  | _ => false

namespace Outcome

variable {α β : Type}

/-- How many signatures were asked for on the way to an outcome. -/
def signatureQuestions (outcome : Outcome α) : Nat :=
  outcome.asked.countP Question.isSignature

/-- At most so many signatures are asked for, whether the outcome is a success or not. -/
def AsksAtMost (outcome : Outcome α) (bound : Nat) : Prop :=
  outcome.signatureQuestions ≤ bound

namespace AsksAtMost

theorem not_isSignature {outcome : Outcome α} (asks : outcome.AsksAtMost 0)
    {question : Question} (asked : question ∈ outcome.asked) :
    ¬ question.isSignature = true :=
  List.countP_eq_zero.mp (Nat.le_zero.mp asks) question asked

theorem mono {outcome : Outcome α} {less more : Nat} (asks : outcome.AsksAtMost less)
    (within : less ≤ more) : outcome.AsksAtMost more :=
  Nat.le_trans asks within

theorem pure (value : α) (bound : Nat) : AsksAtMost (Pure.pure value) bound :=
  Nat.zero_le bound

theorem fail (error : ScriptError) (bound : Nat) :
    AsksAtMost (Outcome.fail error : Outcome α) bound :=
  Nat.zero_le bound

theorem ofExcept (result : Except ScriptError α) (bound : Nat) :
    AsksAtMost (Outcome.ofExcept result) bound :=
  Nat.zero_le bound

theorem require (condition : Bool) (error : ScriptError) (bound : Nat) :
    AsksAtMost (Outcome.require condition error) bound := by
  cases condition with
  | true => exact pure () bound
  | false => exact fail error bound

theorem ask (checker : Checker) (question : Question) :
    AsksAtMost (Outcome.ask checker question) 1 :=
  List.countP_le_length

theorem ask_of_not_isSignature (checker : Checker) {question : Question}
    (other : question.isSignature = false) :
    AsksAtMost (Outcome.ask checker question) 0 := by
  have uncounted : ¬ question.isSignature = true := by
    rw [other]
    exact nofun
  exact Nat.le_of_eq (List.countP_cons_of_neg uncounted)

theorem bind {first : Outcome α} {next : α → Outcome β} {before after : Nat}
    (asks : first.AsksAtMost before)
    (later : ∀ value, first.result = .ok value → (next value).AsksAtMost after) :
    AsksAtMost (first >>= next) (before + after) := by
  change (first.andThen next).AsksAtMost _
  cases finished : first.result with
  | error error =>
      rw [andThen_of_error next finished]
      exact Nat.le_trans asks (Nat.le_add_right _ _)
  | ok value =>
      rw [andThen_of_ok next finished, AsksAtMost, signatureQuestions, List.countP_append]
      exact Nat.add_le_add asks (later value finished)

theorem after_silent {first : Outcome α} {next : α → Outcome β} {bound : Nat}
    (silent : first.AsksAtMost 0)
    (later : ∀ value, first.result = .ok value → (next value).AsksAtMost bound) :
    AsksAtMost (first >>= next) bound :=
  (silent.bind later).mono (Nat.le_of_eq (Nat.zero_add bound))

theorem then_silent {first : Outcome α} {next : α → Outcome β} {bound : Nat}
    (asks : first.AsksAtMost bound) (silent : ∀ value, (next value).AsksAtMost 0) :
    AsksAtMost (first >>= next) bound :=
  asks.bind fun value _ => silent value

end AsksAtMost

end Outcome

/-! ## Counting -/

namespace Script

theorem countChecks_eq_add (trustNumbers : Bool) (total : Nat) (previous : Opcode)
    (opcodes : List Opcode) :
    countChecks trustNumbers total previous opcodes =
      total + countChecks trustNumbers 0 previous opcodes := by
  induction opcodes generalizing total previous with
  | nil => rfl
  | cons current rest ih =>
      rw [countChecks, countChecks, ih, ih (0 + _), Nat.zero_add, Nat.add_assoc]

theorem countChecks_cons (trustNumbers : Bool) (previous current : Opcode)
    (rest : List Opcode) :
    countChecks trustNumbers 0 previous (current :: rest) =
      instructionChecks trustNumbers previous current +
        countChecks trustNumbers 0 current rest := by
  rw [countChecks, countChecks_eq_add, Nat.zero_add]

theorem instructionChecks_le (previous current : Opcode) :
    instructionChecks true previous current ≤ instructionChecks false previous current := by
  unfold instructionChecks
  split
  · exact Nat.le_refl _
  · split
    · rw [Bool.true_and, Bool.false_and]
      split
      · rename_i isSmall
        have most := (Opcode.isSmallNumber_iff.mp isSmall).2
        change _ ≤ 20
        omega
      · exact Nat.le_refl _
    · exact Nat.le_refl _

theorem countChecks_le (previous : Opcode) (opcodes : List Opcode) :
    countChecks true 0 previous opcodes ≤ countChecks false 0 previous opcodes := by
  induction opcodes generalizing previous with
  | nil => exact Nat.le_refl _
  | cons current rest ih =>
      rw [countChecks_cons, countChecks_cons]
      exact Nat.add_le_add (instructionChecks_le previous current) (ih current)

theorem signatureChecks_true_le_false (script : Script) :
    script.signatureChecks true ≤ script.signatureChecks false :=
  countChecks_le _ _

end Script

namespace Context

open Outcome

variable (context : Context)

/-! ## Single operations -/

theorem checkPair_asksAtMost (code : Script) (signature key : Bytes) :
    (context.checkPair code signature key).AsksAtMost 1 :=
  .after_silent (.ofExcept _ _) fun _ _ =>
    .after_silent (.ofExcept _ _) fun _ _ => .ask _ _

theorem checkSignature_asksAtMost (thenVerify : Bool) (state : State) :
    (context.checkSignature thenVerify state).AsksAtMost 1 := by
  unfold checkSignature
  match state.stack with
  | [] => exact .fail _ _
  | [_] => exact .fail _ _
  | key :: signature :: rest =>
      refine .then_silent (context.checkPair_asksAtMost _ signature key) fun accepted => ?_
      exact .after_silent (.require _ _ _) fun _ _ =>
        .after_silent (.ofExcept _ _) fun _ _ => .pure _ _

/-- Every comparison uses up a key. -/
theorem matchSignatures_asksAtMost (code : Script) (signatures keys : List Bytes) :
    (context.matchSignatures code signatures keys).AsksAtMost keys.length := by
  induction keys generalizing signatures with
  | nil => cases signatures <;> exact .pure _ _
  | cons key keys ih =>
      cases signatures with
      | nil => exact .pure _ _
      | cons signature signatures =>
          rw [matchSignatures, List.length_cons, Nat.add_comm]
          refine (context.checkPair_asksAtMost code signature key).bind fun accepted _ => ?_
          generalize (if accepted then signatures else signature :: signatures) = left
          dsimp only
          split
          · exact .pure _ _
          · exact ih left

/-- A multiple check asks at most once for each key that it finds on the stack. -/
theorem checkMultisig_asksAtMost {state : State} {bound : Nat}
    (keys : ∀ operands counted, context.multisigOperands state = .ok (operands, counted) →
      operands.keys.length ≤ bound) (thenVerify : Bool) :
    (context.checkMultisig thenVerify state).AsksAtMost bound := by
  refine .after_silent (.ofExcept _ _) fun found isFound => ?_
  obtain ⟨operands, counted⟩ := found
  have matched := context.matchSignatures_asksAtMost
    (context.signedScript state operands.signatures) operands.signatures operands.keys
  refine .then_silent (matched.mono (keys operands counted isFound)) fun accepted => ?_
  refine .after_silent (.require _ _ _) fun _ _ => ?_
  refine .after_silent (.require _ _ _) fun _ _ => ?_
  exact .after_silent (.ofExcept _ _) fun _ _ => .pure _ _

end Context

/-! ## The number of keys -/

theorem Stack.operand_encode_of_le (requireMinimal : Bool) {number : Nat} (small : number ≤ 16) :
    operand requireMinimal (ScriptNumber.encode number) = .ok (number : Int) := by
  have table : ∀ number : Fin 17, ∀ requireMinimal : Bool,
      ScriptNumber.decode? (ScriptNumber.encode (number : Nat)) requireMinimal
        ScriptNumber.operandLength = some ((number : Nat) : Int) := by
    decide +kernel
  rw [operand, Stack.number, table ⟨number, Nat.lt_succ_of_le small⟩ requireMinimal]

namespace Context

variable (context : Context)

/-! ## Single instructions -/

theorem operate_asksAtMost_zero (index : Nat) {operation : Operation} (state : State)
    (notSingle : ∀ thenVerify, operation ≠ .checkSignature thenVerify)
    (notMultiple : ∀ thenVerify, operation ≠ .checkMultisig thenVerify) :
    (context.operate index operation state).AsksAtMost 0 := by
  have reserved : (context.reservedNop state).AsksAtMost 0 :=
    .after_silent (.require _ _ _) fun _ _ => .pure _ _
  cases operation with
  | number value => exact .pure _ _
  | nop => exact .pure _ _
  | reservedNop => exact reserved
  | checkLockTime =>
      rw [operate, checkLockTime]
      split
      · refine .after_silent (.ofExcept _ _) fun operand _ => ?_
        refine .after_silent (.ask_of_not_isSignature _ rfl) fun passed _ => ?_
        exact .after_silent (.require _ _ _) fun _ _ => .pure _ _
      · exact reserved
  | checkSequence =>
      rw [operate, checkSequence]
      split
      · refine .after_silent (.ofExcept _ _) fun operand _ => ?_
        split
        · exact .pure _ _
        · refine .after_silent (.ask_of_not_isSignature _ rfl) fun passed _ => ?_
          exact .after_silent (.require _ _ _) fun _ _ => .pure _ _
      · exact reserved
  | openBranch negated => exact .ofExcept _ _
  | flipBranch => exact .ofExcept _ _
  | closeBranch => exact .ofExcept _ _
  | verify => exact .ofExcept _ _
  | fail => exact .fail _ _
  | toAlt => exact .ofExcept _ _
  | fromAlt => exact .ofExcept _ _
  | stack change => exact .ofExcept _ _
  | equal thenVerify => exact .ofExcept _ _
  | unary change => exact .ofExcept _ _
  | binary change => exact .ofExcept _ _
  | numEqualVerify => exact .ofExcept _ _
  | within => exact .ofExcept _ _
  | hash change => exact .ofExcept _ _
  | codeSeparator => exact .pure _ _
  | checkSignature thenVerify => exact absurd rfl (notSingle thenVerify)
  | checkMultisig thenVerify => exact absurd rfl (notMultiple thenVerify)
  | bad => exact .fail _ _

end Context

namespace Operation

theorem of_ofOpcode_eq_checkSignature {opcode : Opcode} {thenVerify : Bool}
    (means : ofOpcode opcode = .checkSignature thenVerify) :
    opcode = .checkSig ∨ opcode = .checkSigVerify := by
  obtain ⟨byte⟩ := opcode
  unfold ofOpcode at means
  split_ifs at means
  unfold ofByte at means
  split at means <;> cases means
  · exact Or.inl (congrArg Opcode.mk (by assumption))
  · exact Or.inr (congrArg Opcode.mk (by assumption))

theorem of_ofOpcode_eq_checkMultisig {opcode : Opcode} {thenVerify : Bool}
    (means : ofOpcode opcode = .checkMultisig thenVerify) :
    opcode = .checkMultisig ∨ opcode = .checkMultisigVerify := by
  obtain ⟨byte⟩ := opcode
  unfold ofOpcode at means
  split_ifs at means
  unfold ofByte at means
  split at means <;> cases means
  · exact Or.inl (congrArg Opcode.mk (by assumption))
  · exact Or.inr (congrArg Opcode.mk (by assumption))

theorem ofOpcode_of_isSmallNumber {opcode : Opcode} (isSmall : opcode.isSmallNumber = true) :
    ofOpcode opcode = .number (opcode.byte.toNat - 0x50) := by
  have notNegative : opcode ≠ .negate1 := by
    rintro rfl
    cases isSmall
  rw [ofOpcode, if_neg notNegative, if_pos isSmall]

end Operation

namespace Context

/-- Where the instruction before was a small number and was executed, that number is on
top of the stack. -/
def Announced (previous : Opcode) (state : State) : Prop :=
  previous.isSmallNumber = true → state.executing = true →
    ∃ below, state.stack = ScriptNumber.encode (previous.byte.toNat - 0x50 : Nat) :: below

variable {context : Context} {index : Nat} {previous : Opcode} {state : State}

/-- The keys of a multiple check are no more than were counted for it, because a number that was
pushed is read back unchanged. -/
theorem keys_length_le {opcode : Opcode} {operands : MultisigOperands} {counted : State}
    (isMultiple : opcode = .checkMultisig ∨ opcode = .checkMultisigVerify)
    (announced : Announced previous state) (executing : state.executing = true)
    (read : context.multisigOperands state = .ok (operands, counted)) :
    operands.keys.length ≤ Script.instructionChecks true previous opcode := by
  obtain ⟨-, ⟨top, below, isTop, isCount⟩, most, -⟩ := of_multisigOperands_eq_ok read
  have notSingle : ¬ (opcode = .checkSig ∨ opcode = .checkSigVerify) := by
    rcases isMultiple with rfl | rfl <;> decide
  rw [Script.instructionChecks, if_neg notSingle, if_pos isMultiple, Bool.true_and]
  split
  · rename_i isSmall
    obtain ⟨others, isAnnounced⟩ := announced isSmall executing
    have small : previous.byte.toNat - 0x50 ≤ 16 := by
      have bounds := Opcode.isSmallNumber_iff.mp isSmall
      omega
    have asOperand := Stack.operand_encode_of_le context.requireMinimal small
    rw [isTop] at isAnnounced
    cases isAnnounced
    rw [isCount] at asOperand
    exact Nat.le_of_eq (Int.ofNat_inj.mp (Except.ok.inj asOperand))
  · exact most

/-- An instruction asks for no more signatures than are counted for it. -/
theorem step_asksAtMost (instruction : Instruction) (announced : Announced previous state) :
    (context.step index instruction state).AsksAtMost
      (Script.instructionChecks true previous instruction.opcode) := by
  refine .after_silent (.ofExcept _ _) fun checked passed => ?_
  refine .then_silent ?_ fun next => .after_silent (.require _ _ _) fun _ _ => .pure _ _
  obtain ⟨⟨operations, rfl⟩, -⟩ := checkLimits_eq_ok passed
  cases instruction with
  | push form data =>
      rw [carryOut]
      split
      · split
        · exact .fail _ _
        · exact .pure _ _
      · exact .pure _ _
  | op opcode =>
      rw [carryOut]
      split
      · rename_i carried
        by_cases isSingle : opcode = .checkSig ∨ opcode = .checkSigVerify
        · rw [Script.instructionChecks, Instruction.opcode, if_pos isSingle]
          rcases isSingle with rfl | rfl
          · exact context.checkSignature_asksAtMost false _
          · exact context.checkSignature_asksAtMost true _
        by_cases isMultiple : opcode = .checkMultisig ∨ opcode = .checkMultisigVerify
        · have notConditional : isConditional opcode = false := by
            rcases isMultiple with rfl | rfl <;> rfl
          rw [notConditional, Bool.or_false] at carried
          have stillAnnounced : Announced previous { state with operations } := announced
          have keys : ∀ operands counted,
              context.multisigOperands { state with operations } = .ok (operands, counted) →
                operands.keys.length ≤ Script.instructionChecks true previous opcode :=
            fun operands counted => keys_length_le isMultiple stillAnnounced carried
          rcases isMultiple with rfl | rfl
          · exact context.checkMultisig_asksAtMost keys false
          · exact context.checkMultisig_asksAtMost keys true
        · refine Outcome.AsksAtMost.mono ?_ (Nat.zero_le _)
          exact context.operate_asksAtMost_zero index _
            (fun _ means => isSingle (Operation.of_ofOpcode_eq_checkSignature means))
            (fun _ means => isMultiple (Operation.of_ofOpcode_eq_checkMultisig means))
      · exact .pure _ _

/-- A small number that is carried out is on top of the stack for the next instruction. -/
theorem announced_of_step {instruction : Instruction} {next : State}
    (wellFormed : instruction.WellFormed)
    (reached : (context.step index instruction state).result = .ok next) :
    Announced instruction.opcode next := by
  intro isSmall executing
  obtain ⟨checked, passed, carries, -⟩ := step_eq_ok_iff.mp reached
  cases instruction with
  | push form data =>
      have notSmall := PushForm.opcode_not_isSmallNumber wellFormed
      rw [Instruction.opcode, notSmall] at isSmall
      cases isSmall
  | op opcode =>
      rw [Instruction.opcode] at isSmall
      have least := (Opcode.isSmallNumber_iff.mp isSmall).1
      rw [carryOut, Operation.ofOpcode_of_isSmallNumber isSmall] at carries
      split at carries
      · cases carries
        refine ⟨checked.stack, ?_⟩
        rw [Instruction.opcode, Int.ofNat_sub (by omega)]
        rfl
      · rename_i skipped
        cases carries
        exact absurd (Bool.or_eq_true_iff.mpr (Or.inl executing)) skipped

/-! ## Sequences -/

/-- Instructions ask for no more signatures than are counted for them, as each hands the number
on top over to the next one. -/
theorem steps_asksAtMost {instructions : List Instruction}
    (wellFormed : ∀ instruction ∈ instructions, instruction.WellFormed)
    (announced : Announced previous state) :
    (context.steps index instructions state).AsksAtMost
      (Script.countChecks true 0 previous (instructions.map Instruction.opcode)) := by
  induction instructions generalizing index previous state with
  | nil => exact .pure _ _
  | cons instruction rest ih =>
      obtain ⟨first, wellFormed⟩ := List.forall_mem_cons.mp wellFormed
      rw [List.map_cons, Script.countChecks_cons]
      refine (step_asksAtMost instruction announced).bind fun next reached => ?_
      exact ih wellFormed (announced_of_step first reached)

theorem evaluate_asksAtMost (context : Context) (stack : Stack) :
    (context.evaluate stack).AsksAtMost (context.script.signatureChecks true) := by
  refine .after_silent (.require _ _ _) fun _ _ => ?_
  have unannounced : Announced ⟨0xff⟩ (.ofStack stack) := by
    intro isSmall
    cases isSmall
  refine .then_silent (steps_asksAtMost (fun _ => Script.wellFormed_of_mem_instructions)
    unannounced) fun state => ?_
  refine .after_silent (.require _ _ _) fun _ _ => ?_
  exact .after_silent (.require _ _ _) fun _ _ => .pure _ _

end Context

end CoinSpend
