import CoinSpend.Proofs.SignatureBudget
import CoinSpend.Proofs.Spend
import CoinSpend.Proofs.Templates
import CoinSpend.Validation.SignatureCost

/-!
# The checks counted for a spend bound the checks that are made

A spend evaluates up to four scripts: the unlocking and the locking script, the script
whose hash is named, and that of a witness program.  The last two are not found in the same
way when checks are counted and when scripts are run, but they are the same scripts, or
ones without any check.
-/

namespace CoinSpend

/-! ## Witness programs and redeem scripts -/

theorem Script.signatureChecks_payToKeyHash {hash : Bytes} (length : hash.length = 20) :
    (payToKeyHash hash).signatureChecks true = 1 := by
  have direct : PushForm.shortest hash.length = .direct := by
    rw [length]
    rfl
  rw [signatureChecks, instructions_payToKeyHash length, payToKeyHashInstructions, pushOf, direct]
  simp only [List.map, Instruction.opcode, length]
  decide

theorem WitnessProgram.verify_asksAtMost (program : WitnessProgram) (witness : Witness)
    (flags : Flags) (checker : Checker) :
    (program.verify witness flags checker).AsksAtMost (program.checks witness) := by
  rw [verify]
  split
  · rename_i versionZero
    refine .after_silent (.ofExcept _ _) fun started starts => ?_
    obtain ⟨stack, script⟩ := started
    refine .after_silent (.require _ _ _) fun _ _ => ?_
    refine .then_silent ?_ fun _ => .require _ _ _
    refine (Context.evaluate_asksAtMost ⟨script, flags, checker, .witnessV0⟩ stack).mono ?_
    change WitnessProgram.start program witness = .ok (stack, script) at starts
    rw [checks, if_pos versionZero]
    rw [start] at starts
    split_ifs at starts with hashOfScript hashOfKey
    · rw [if_neg (by omega), if_pos hashOfScript, ← List.head?_reverse]
      split at starts
      · cases starts
      · rename_i last below reversed
        split_ifs at starts
        cases starts
        rw [reversed]
        exact Nat.le_refl _
    · cases starts
      rw [if_pos hashOfKey, Script.signatureChecks_payToKeyHash hashOfKey]
  · exact .require _ _ _

namespace Script

/-- The elements that small numbers leave hold no checks and are no witness programs. -/
theorem checks_of_pushed?_op {opcode : Opcode} {top : Bytes}
    (pushed : Instruction.pushed? (.op opcode) = some top) :
    signatureChecks ⟨top⟩ true = 0 ∧ witnessProgram? ⟨top⟩ = none := by
  have table : ∀ number : Fin 17,
      signatureChecks ⟨ScriptNumber.encode (number : Nat)⟩ true = 0 ∧
        witnessProgram? ⟨ScriptNumber.encode (number : Nat)⟩ = none := by
    decide +kernel
  rcases small_of_pushed?_op pushed with rfl | ⟨number, rfl⟩
  · decide +kernel
  · exact table number

theorem witnessProgram?_of_isPayToScriptHash {script : Script}
    (isHash : script.isPayToScriptHash = true) : script.witnessProgram? = none := by
  rw [isPayToScriptHash, Bool.and_eq_true, Bool.and_eq_true, beq_iff_eq, beq_iff_eq] at isHash
  obtain ⟨⟨-, front⟩, -⟩ := isHash
  rw [witnessProgram?]
  split
  · rename_i version size data bytes
    rw [bytes] at front
    cases front
    split
    · rfl
    · rfl
  · rfl

end Script

namespace Spend

variable (spend : Spend)

/-- The checks of the script whose hash is named, if such hashes have a meaning. -/
def redeemChecks : Nat :=
  if spend.flags.has .p2sh && spend.locking.isPayToScriptHash then
    match spend.unlocking.redeemScript? with
    | some redeem => redeem.signatureChecks true
    | none => 0
  else
    0

def witnessChecks : Nat :=
  CoinSpend.witnessChecks spend.unlocking spend.locking spend.witness spend.flags

theorem followWitness_asksAtMost (script expected : Script) (error : ScriptError)
    {bound : Nat}
    (counted : spend.flags.has .witness = true → ∀ program,
      script.witnessProgram? = some program → program.checks spend.witness ≤ bound) :
    (spend.followWitness script expected error).AsksAtMost bound := by
  cases on : spend.flags.has .witness with
  | false =>
      rw [followWitness_of_off spend on]
      exact .pure _ _
  | true =>
      cases recognized : script.witnessProgram? with
      | none =>
          rw [followWitness_of_none spend recognized]
          exact .pure _ _
      | some program =>
          rw [followWitness_of_some spend on recognized]
          refine .after_silent (.require _ _ _) fun _ _ => ?_
          refine .then_silent ?_ fun _ => .pure _ _
          exact (program.verify_asksAtMost _ _ _).mono (counted on program recognized)

theorem followWitness_locking_asksAtMost (expected : Script) (error : ScriptError) :
    (spend.followWitness spend.locking expected error).AsksAtMost spend.witnessChecks := by
  refine spend.followWitness_asksAtMost _ _ _ fun on program recognized => ?_
  rw [witnessChecks, CoinSpend.witnessChecks, if_pos on, followedProgram?, recognized]

/-- The script on top of the stack is the redeem script, or a small number that asks for
nothing. -/
theorem followRedeem_asksAtMost {saved : Stack}
    (looked : (spend.flags.has .p2sh && spend.locking.isPayToScriptHash) = true)
    (unlocks : (spend.evaluateBase spend.unlocking []).result = .ok saved) :
    (spend.followRedeem saved).AsksAtMost (spend.redeemChecks + spend.witnessChecks) := by
  refine .after_silent (.require _ _ _) fun _ pushes => ?_
  have pushes := Outcome.result_require_eq_ok_iff.mp pushes
  match saved with
  | [] => exact .fail _ _
  | top :: below =>
      have found := @Script.redeemScript?_of_evaluate
        ⟨spend.unlocking, spend.flags, spend.checker, .base⟩ top below pushes unlocks
      have isHash : spend.locking.isPayToScriptHash = true := (Bool.and_eq_true_iff.mp looked).2
      have notNative := Script.witnessProgram?_of_isPayToScriptHash isHash
      have scriptChecks : Script.signatureChecks ⟨top⟩ true ≤ spend.redeemChecks := by
        rcases found with isRedeem | ⟨opcode, pushed, -⟩
        · rw [redeemChecks, if_pos looked, isRedeem]
        · rw [(Script.checks_of_pushed?_op pushed).1]
          exact Nat.zero_le _
      have programChecks : spend.flags.has .witness = true → ∀ program,
          Script.witnessProgram? ⟨top⟩ = some program →
            program.checks spend.witness ≤ spend.witnessChecks := by
        intro on program recognized
        rcases found with isRedeem | ⟨opcode, pushed, -⟩
        · rw [witnessChecks, CoinSpend.witnessChecks, if_pos on, followedProgram?, notNative,
            if_pos isHash, isRedeem, Option.bind_some, recognized]
        · rw [(Script.checks_of_pushed?_op pushed).2] at recognized
          cases recognized
      have evaluated : (spend.evaluateBase ⟨top⟩ below).AsksAtMost spend.redeemChecks :=
        (Context.evaluate_asksAtMost _ _).mono scriptChecks
      refine evaluated.bind fun stack _ => ?_
      refine .after_silent (.require _ _ _) fun _ _ => ?_
      exact .then_silent (spend.followWitness_asksAtMost _ _ _ programChecks)
        fun _ => .pure _ _

theorem follow_asksAtMost {unlocked : Stack} (opened : Stack)
    (unlocks : (spend.evaluateBase spend.unlocking []).result = .ok unlocked) :
    Outcome.AsksAtMost
      (spend.followWitness spend.locking .empty .witnessMalleated >>= fun native =>
        spend.settled unlocked opened native >>= spend.finish native)
      (spend.redeemChecks + spend.witnessChecks) := by
  have finishes : ∀ native left, (spend.finish native left).AsksAtMost 0 := fun native left =>
    .after_silent (.require _ _ _) fun _ _ => .require _ _ _
  cases looked : spend.flags.has .p2sh && spend.locking.isPayToScriptHash with
  | true =>
      have isHash : spend.locking.isPayToScriptHash = true := (Bool.and_eq_true_iff.mp looked).2
      rw [followWitness_of_none spend (Script.witnessProgram?_of_isPayToScriptHash isHash)]
      refine .after_silent (.pure _ _) fun native _ => ?_
      rw [settled_of_nested spend looked]
      exact .then_silent (spend.followRedeem_asksAtMost looked unlocks) (finishes native)
  | false =>
      have within : spend.witnessChecks ≤ spend.redeemChecks + spend.witnessChecks :=
        Nat.le_add_left _ _
      refine .then_silent ((spend.followWitness_locking_asksAtMost _ _).mono within)
        fun native => ?_
      rw [settled_of_plain spend looked]
      exact .after_silent (.pure _ _) fun left _ => finishes native left

theorem verify_asksAtMost :
    spend.verify.AsksAtMost
      (spend.unlocking.signatureChecks true + (spend.locking.signatureChecks true +
        (spend.redeemChecks + spend.witnessChecks))) := by
  refine .after_silent (.require _ _ _) fun _ _ => ?_
  refine Outcome.AsksAtMost.bind (Context.evaluate_asksAtMost _ _) fun unlocked unlocks => ?_
  refine Outcome.AsksAtMost.bind (Context.evaluate_asksAtMost _ _) fun opened _ => ?_
  refine .after_silent (.require _ _ _) fun _ _ => ?_
  have follows := spend.follow_asksAtMost opened unlocks
  simp only [settled_finish] at follows
  exact follows

end Spend

/-- The checks that are counted bound the signatures that are asked for, in one script and
in a whole spend, whether it succeeds or fails. -/
theorem counted_checks_bound_signature_questions :
    (∀ (context : Context) (stack : Stack),
      (context.evaluate stack).signatureQuestions ≤ context.script.signatureChecks true) ∧
    (∀ script : Script, script.signatureChecks true ≤ script.signatureChecks false) ∧
    ∀ spend : Spend,
      spend.verify.signatureQuestions ≤
        spend.unlocking.signatureChecks true + spend.locking.signatureChecks true +
          spend.redeemChecks +
          witnessChecks spend.unlocking spend.locking spend.witness spend.flags := by
  refine ⟨Context.evaluate_asksAtMost, Script.signatureChecks_true_le_false, fun spend => ?_⟩
  have bounded := spend.verify_asksAtMost
  rw [← Nat.add_assoc, ← Nat.add_assoc] at bounded
  exact bounded

end CoinSpend
