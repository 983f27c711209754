import CoinSpend.Proofs.SpendBudget

/-!
# The redeem script that is counted and the one that is run

Counting finds the redeem script of a spend in the last instruction of its unlocking script.
Verification runs the unlocking script and takes the element on top.  The two differ only
where the last instruction is a number without data, and then neither of them has checks or
is a witness program.
-/

namespace CoinSpend

namespace Script

/-- Whether the last instruction is -1 or one of the numbers from 1 to 16. -/
def endsInNumber (script : Script) : Bool :=
  script.instructions.getLast?.any fun last =>
    last.opcode == .negate1 || last.opcode.isSmallNumber

variable {script : Script}

theorem instructions_eq_nil_iff (whole : script.isWhole = true) :
    script.instructions = [] ↔ script.isEmpty = true := by
  rw [isEmpty, List.isEmpty_iff]
  constructor
  · intro none
    rw [← ofInstructions_instructions whole, none]
    rfl
  · intro empty
    rw [instructions, empty, Instruction.decode_nil]

theorem redeemScript?_eq_none_iff :
    script.redeemScript? = none ↔ script.isPushOnly = false ∨ script.isEmpty = true := by
  rw [redeemScript?]
  cases pushes : script.isPushOnly with
  | false => simp
  | true =>
      have whole : script.isWhole = true := (Bool.and_eq_true_iff.mp pushes).1
      rw [if_pos rfl, Option.map_eq_none_iff, List.getLast?_eq_none_iff,
        instructions_eq_nil_iff whole]
      simp

end Script

theorem PushForm.opcode_ne_negate1 {form : PushForm} {length : Nat}
    (fits : length ≤ form.maxLength) : form.opcode length ≠ .negate1 := by
  intro same
  have begun := ofOpcode?_opcode fits
  rw [same] at begun
  cases begun

namespace Script

variable {script : Script} {last : Instruction}

theorem endsInNumber_of_push {form : PushForm} {data : Bytes}
    (found : script.instructions.getLast? = some (.push form data)) :
    script.endsInNumber = false := by
  have wellFormed := wellFormed_of_mem_instructions (List.mem_of_getLast? found)
  have notNegative := PushForm.opcode_ne_negate1 wellFormed
  have notSmall := PushForm.opcode_not_isSmallNumber wellFormed
  simp [endsInNumber, found, Instruction.opcode, notNegative, notSmall]

theorem endsInNumber_of_op {opcode : Opcode} {top : Bytes}
    (found : script.instructions.getLast? = some (.op opcode))
    (pushed : Instruction.pushed? (.op opcode) = some top) :
    script.endsInNumber = true := by
  rcases isNumber_of_pushed?_op pushed with rfl | isSmall
  · simp [endsInNumber, found, Instruction.opcode]
  · simp [endsInNumber, found, Instruction.opcode, isSmall]

/-- The redeem script is what lies on top, apart from numbers, which are taken for nothing. -/
theorem redeemScript?_eq_of_evaluate {context : Context} {top : Bytes} {below : Stack}
    (pushes : context.script.isPushOnly = true)
    (evaluated : (context.evaluate []).result = .ok (top :: below)) :
    context.script.redeemScript? =
      some (if context.script.endsInNumber then .empty else ⟨top⟩) := by
  obtain ⟨last, found, lastTop⟩ := last_pushed_of_evaluate pushes evaluated
  rw [redeemScript?, if_pos pushes, found, Option.map_some]
  cases last with
  | push form data =>
      cases lastTop
      rw [endsInNumber_of_push found]
      rfl
  | op opcode =>
      rw [endsInNumber_of_op found lastTop]
      rfl

theorem signatureChecks_empty : empty.signatureChecks true = 0 := by
  simp [signatureChecks, instructions, empty, countChecks]

/-- The script that is counted has the checks and the witness program of the one that is
run. -/
theorem counted_alike_of_evaluate {context : Context} {top : Bytes} {below : Stack}
    (pushes : context.script.isPushOnly = true)
    (evaluated : (context.evaluate []).result = .ok (top :: below)) :
    signatureChecks (if context.script.endsInNumber then .empty else ⟨top⟩) true =
        signatureChecks ⟨top⟩ true ∧
      witnessProgram? (if context.script.endsInNumber then .empty else ⟨top⟩) =
        witnessProgram? ⟨top⟩ := by
  obtain ⟨last, found, lastTop⟩ := last_pushed_of_evaluate pushes evaluated
  cases last with
  | push form data =>
      rw [endsInNumber_of_push found]
      exact ⟨rfl, rfl⟩
  | op opcode =>
      obtain ⟨noChecks, noProgram⟩ := checks_of_pushed?_op lastTop
      rw [endsInNumber_of_op found lastTop, noChecks, noProgram]
      exact ⟨signatureChecks_empty, rfl⟩

theorem ne_nil_of_evaluate {context : Context} {left : Stack}
    (pushes : context.script.isPushOnly = true) (nonempty : context.script.instructions ≠ [])
    (evaluated : (context.evaluate []).result = .ok left) : left ≠ [] := by
  obtain ⟨elements, pushed, rfl⟩ := Context.evaluate_of_isPushOnly pushes evaluated
  rintro nothing
  have none : elements = [] := by simpa using nothing
  rw [none, List.map_nil, List.map_eq_nil_iff] at pushed
  exact nonempty pushed

end Script

/-- Counting and verification see the same redeem script.  Whenever an unlocking script of at
least one push succeeds, its redeem script is the element it leaves on top, unless its last
instruction is a number, which is counted as the empty script; even then the checks are the
same and so is the witness program.  No other script has a redeem script. -/
theorem counted_redeem_script_is_the_one_run :
    (∀ (context : Context) (left : Stack), context.script.isPushOnly = true →
      context.script.instructions ≠ [] → (context.evaluate []).result = .ok left →
        ∃ top below redeem, left = top :: below ∧
          context.script.redeemScript? = some redeem ∧
          redeem = (if context.script.endsInNumber then .empty else ⟨top⟩) ∧
          redeem.signatureChecks true = Script.signatureChecks ⟨top⟩ true ∧
          redeem.witnessProgram? = Script.witnessProgram? ⟨top⟩) ∧
    ∀ script : Script,
      script.redeemScript? = none ↔ script.isPushOnly = false ∨ script.isEmpty = true := by
  refine ⟨?_, fun script => Script.redeemScript?_eq_none_iff⟩
  intro context left pushes nonempty evaluated
  match left, Script.ne_nil_of_evaluate pushes nonempty evaluated with
  | top :: below, _ =>
      obtain ⟨sameChecks, sameProgram⟩ := Script.counted_alike_of_evaluate pushes evaluated
      exact ⟨top, below, _, rfl, Script.redeemScript?_eq_of_evaluate pushes evaluated, rfl,
        sameChecks, sameProgram⟩

def Script.offersOneCheck : Script :=
  ⟨[0x51, 0x01, 0xac]⟩

def Script.offersSixteen : Script :=
  ⟨[0x01, 0xac, 0x60]⟩

/-- The push on top is the redeem script and has one check.  The number on top is not, and has
none, like the empty script that is counted for it. -/
theorem redeem_scripts_of_one_check_and_of_sixteen :
    (Script.offersOneCheck.isPushOnly = true ∧ Script.offersOneCheck.instructions ≠ [] ∧
      (Context.evaluate ⟨.offersOneCheck, .standard, .refuse, .base⟩ []).result =
        .ok [[0xac], [1]] ∧
      ∃ redeem, Script.offersOneCheck.redeemScript? = some redeem ∧ redeem = ⟨[0xac]⟩ ∧
        redeem.signatureChecks true = 1) ∧
    Script.offersSixteen.isPushOnly = true ∧ Script.offersSixteen.instructions ≠ [] ∧
      (Context.evaluate ⟨.offersSixteen, .standard, .refuse, .base⟩ []).result =
        .ok [[16], [0xac]] ∧
      ∃ redeem, Script.offersSixteen.redeemScript? = some redeem ∧ redeem = .empty ∧
        redeem.signatureChecks true = Script.signatureChecks ⟨[16]⟩ true := by
  have onePushes : Script.offersOneCheck.isPushOnly = true := by decide +kernel
  have oneHolds : Script.offersOneCheck.instructions ≠ [] := by decide +kernel
  have oneRuns : (Context.evaluate ⟨.offersOneCheck, .standard, .refuse, .base⟩ []).result =
      .ok [[0xac], [1]] := by decide +kernel
  have oneIsData : Script.offersOneCheck.endsInNumber = false := by decide +kernel
  have sixteenPushes : Script.offersSixteen.isPushOnly = true := by decide +kernel
  have sixteenHolds : Script.offersSixteen.instructions ≠ [] := by decide +kernel
  have sixteenRuns : (Context.evaluate ⟨.offersSixteen, .standard, .refuse, .base⟩ []).result =
      .ok [[16], [0xac]] := by decide +kernel
  have sixteenIsNumber : Script.offersSixteen.endsInNumber = true := by decide +kernel
  refine ⟨⟨onePushes, oneHolds, oneRuns, ?_⟩, sixteenPushes, sixteenHolds, sixteenRuns, ?_⟩
  · obtain ⟨top, below, redeem, isLeft, found, isTop, checks, -⟩ :=
      counted_redeem_script_is_the_one_run.1 _ _ onePushes oneHolds oneRuns
    cases isLeft
    rw [oneIsData, if_neg Bool.false_ne_true] at isTop
    exact ⟨redeem, found, isTop, checks.trans (by decide +kernel)⟩
  · obtain ⟨top, below, redeem, isLeft, found, isEmpty, checks, -⟩ :=
      counted_redeem_script_is_the_one_run.1 _ _ sixteenPushes sixteenHolds sixteenRuns
    cases isLeft
    rw [sixteenIsNumber, if_pos rfl] at isEmpty
    exact ⟨redeem, found, isEmpty, checks⟩

end CoinSpend
