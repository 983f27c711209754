import CoinSpend.Interpreter.Spend
import CoinSpend.Proofs.Outcome

/-!
# What a successful spend went through

A spend succeeds exactly if its guards hold and its scripts run to their ends.  A
witness program is followed in one of two places, and each of the two ways to look at a
script has its own law.
-/

namespace CoinSpend.Spend

/-- The state at the end of a spend, before the last two guards: the stack that is
left and whether a witness program was followed in the nested script. -/
def settled (spend : Spend) (unlocked opened : Stack) (native : Bool) :
    Outcome (Stack × Bool) :=
  if spend.flags.has .p2sh && spend.locking.isPayToScriptHash then
    spend.followRedeem unlocked
  else
    pure (settle native opened, false)

/-- The last two guards of a spend. -/
def finish (spend : Spend) (native : Bool) : Stack × Bool → Outcome Unit
  | (stack, nested) => do
      Outcome.require (!spend.flags.has .cleanStack || stack.length == 1) .cleanStack
      Outcome.require
        (!spend.flags.has .witness || native || nested || spend.witness.isEmpty)
        .witnessUnexpected

theorem settled_of_nested (spend : Spend)
    (looked : (spend.flags.has .p2sh && spend.locking.isPayToScriptHash) = true)
    (unlocked opened : Stack) (native : Bool) :
    spend.settled unlocked opened native = spend.followRedeem unlocked :=
  if_pos looked

theorem settled_of_plain (spend : Spend)
    (looked : (spend.flags.has .p2sh && spend.locking.isPayToScriptHash) = false)
    (unlocked opened : Stack) (native : Bool) :
    spend.settled unlocked opened native = pure (settle native opened, false) :=
  if_neg (Bool.not_eq_true _ ▸ looked)

theorem settled_finish (spend : Spend) (unlocked opened : Stack) (native : Bool) :
    (spend.settled unlocked opened native >>= spend.finish native) =
      if spend.flags.has .p2sh && spend.locking.isPayToScriptHash then
        spend.followRedeem unlocked >>= spend.finish native
      else
        pure (settle native opened, false) >>= spend.finish native := by
  unfold settled
  split
  · rfl
  · rfl

theorem verify_eq (spend : Spend) :
    spend.verify = (do
      Outcome.require
        (!spend.flags.has .pushOnly || spend.unlocking.isPushOnly) .signaturePushOnly
      let unlocked ← spend.evaluateBase spend.unlocking []
      let opened ← spend.evaluateBase spend.locking unlocked
      Outcome.require opened.topIsTrue .evalFalse
      let native ← spend.followWitness spend.locking .empty .witnessMalleated
      spend.settled unlocked opened native >>= spend.finish native) := by
  simp only [settled_finish]
  rfl

/-- What a successful spend went through. -/
theorem verify_eq_ok_iff (spend : Spend) :
    spend.verify.result = .ok () ↔
      (!spend.flags.has .pushOnly || spend.unlocking.isPushOnly) = true ∧
        ∃ unlocked, (spend.evaluateBase spend.unlocking []).result = .ok unlocked ∧
        ∃ opened, (spend.evaluateBase spend.locking unlocked).result = .ok opened ∧
          opened.topIsTrue = true ∧
        ∃ native, (spend.followWitness spend.locking .empty .witnessMalleated).result =
            .ok native ∧
        ∃ stack nested, (spend.settled unlocked opened native).result = .ok (stack, nested) ∧
          (!spend.flags.has .cleanStack || stack.length == 1) = true ∧
          (!spend.flags.has .witness || native || nested || spend.witness.isEmpty) = true := by
  constructor
  · intro accepted
    obtain ⟨pushes, accepted⟩ := Outcome.result_require_bind_eq_ok_iff.mp accepted
    obtain ⟨unlocked, unlocks, accepted⟩ := Outcome.result_bind_eq_ok_iff.mp accepted
    obtain ⟨opened, opens, accepted⟩ := Outcome.result_bind_eq_ok_iff.mp accepted
    obtain ⟨top, accepted⟩ := Outcome.result_require_bind_eq_ok_iff.mp accepted
    obtain ⟨native, witnessed, accepted⟩ := Outcome.result_bind_eq_ok_iff.mp accepted
    have joined := (congrArg Outcome.result
      (settled_finish spend unlocked opened native)).trans accepted
    obtain ⟨⟨stack, nested⟩, settles, accepted⟩ := Outcome.result_bind_eq_ok_iff.mp joined
    obtain ⟨clean, expected⟩ := Outcome.result_require_bind_eq_ok_iff.mp accepted
    exact ⟨pushes, unlocked, unlocks, opened, opens, top, native, witnessed, stack, nested,
      settles, clean, Outcome.result_require_eq_ok_iff.mp expected⟩
  · rintro ⟨pushes, unlocked, unlocks, opened, opens, top, native, witnessed, stack, nested,
      settles, clean, expected⟩
    refine Outcome.result_require_bind_eq_ok_iff.mpr ⟨pushes, ?_⟩
    refine Outcome.result_bind_eq_ok_iff.mpr ⟨unlocked, unlocks, ?_⟩
    refine Outcome.result_bind_eq_ok_iff.mpr ⟨opened, opens, ?_⟩
    refine Outcome.result_require_bind_eq_ok_iff.mpr ⟨top, ?_⟩
    refine Outcome.result_bind_eq_ok_iff.mpr ⟨native, witnessed, ?_⟩
    refine (congrArg Outcome.result (settled_finish spend unlocked opened native)).symm.trans ?_
    refine Outcome.result_bind_eq_ok_iff.mpr ⟨(stack, nested), settles, ?_⟩
    refine Outcome.result_require_bind_eq_ok_iff.mpr ⟨clean, ?_⟩
    exact Outcome.result_require_eq_ok_iff.mpr expected

theorem followWitness_of_off (spend : Spend) (off : spend.flags.has .witness = false)
    (script expected : Script) (error : ScriptError) :
    spend.followWitness script expected error = pure false := by
  rw [followWitness, off]
  rfl

theorem followWitness_of_none (spend : Spend) {script : Script}
    (recognized : script.witnessProgram? = none) (expected : Script) (error : ScriptError) :
    spend.followWitness script expected error = pure false := by
  rw [followWitness, recognized]
  split
  · rfl
  · rfl

theorem followWitness_of_some (spend : Spend) (on : spend.flags.has .witness = true)
    {script : Script} {program : WitnessProgram}
    (recognized : script.witnessProgram? = some program) (expected : Script)
    (error : ScriptError) :
    spend.followWitness script expected error = do
      Outcome.require (spend.unlocking = expected) error
      program.verify spend.witness spend.flags spend.checker
      return true := by
  rw [followWitness, on, recognized]
  rfl

theorem followWitness_eq_ok_true_iff {spend : Spend} {script expected : Script}
    {error : ScriptError} :
    (spend.followWitness script expected error).result = .ok true ↔
      spend.flags.has .witness = true ∧ spend.unlocking = expected ∧
        ∃ program, script.witnessProgram? = some program ∧
          (program.verify spend.witness spend.flags spend.checker).result = .ok () := by
  constructor
  · intro followed
    cases known : spend.flags.has .witness with
    | false => rw [followWitness_of_off spend known] at followed; cases followed
    | true =>
        cases recognized : script.witnessProgram? with
        | none => rw [followWitness_of_none spend recognized] at followed; cases followed
        | some program =>
            rw [followWitness_of_some spend known recognized] at followed
            obtain ⟨same, followed⟩ := Outcome.result_require_bind_eq_ok_iff.mp followed
            obtain ⟨⟨⟩, verified, -⟩ := Outcome.result_bind_eq_ok_iff.mp followed
            exact ⟨rfl, of_decide_eq_true same, program, rfl, verified⟩
  · rintro ⟨on, same, program, recognized, verified⟩
    rw [followWitness_of_some spend on recognized]
    refine Outcome.result_require_bind_eq_ok_iff.mpr ⟨decide_eq_true same, ?_⟩
    exact Outcome.result_bind_eq_ok_iff.mpr ⟨(), verified, rfl⟩

theorem witness_of_followed {spend : Spend} {script expected : Script} {error : ScriptError}
    (found : (spend.followWitness script expected error).result = .ok true) :
    spend.flags.has .witness = true :=
  (followWitness_eq_ok_true_iff.mp found).1

/-- The redeem script on top is run on what lies below it, behind an unlocking script that only
pushes. -/
theorem followRedeem_eq_ok_iff {spend : Spend} {redeem : Bytes} {below stack : Stack}
    {nested : Bool} :
    (spend.followRedeem (redeem :: below)).result = .ok (stack, nested) ↔
      spend.unlocking.isPushOnly = true ∧
        ∃ left, (spend.evaluateBase ⟨redeem⟩ below).result = .ok left ∧
          left.topIsTrue = true ∧
          (spend.followWitness ⟨redeem⟩ (Script.empty.appendData redeem)
            .witnessMalleatedNested).result = .ok nested ∧
          stack = settle nested left := by
  constructor
  · intro redeemed
    obtain ⟨pushes, redeemed⟩ := Outcome.result_require_bind_eq_ok_iff.mp redeemed
    obtain ⟨left, redeems, redeemed⟩ := Outcome.result_bind_eq_ok_iff.mp redeemed
    obtain ⟨holds, redeemed⟩ := Outcome.result_require_bind_eq_ok_iff.mp redeemed
    obtain ⟨followed, witnessed, redeemed⟩ := Outcome.result_bind_eq_ok_iff.mp redeemed
    cases redeemed
    exact ⟨pushes, left, redeems, holds, witnessed, rfl⟩
  · rintro ⟨pushes, left, redeems, holds, witnessed, rfl⟩
    refine Outcome.result_require_bind_eq_ok_iff.mpr ⟨pushes, ?_⟩
    refine Outcome.result_bind_eq_ok_iff.mpr ⟨left, redeems, ?_⟩
    refine Outcome.result_require_bind_eq_ok_iff.mpr ⟨holds, ?_⟩
    exact Outcome.result_bind_eq_ok_iff.mpr ⟨nested, witnessed, rfl⟩

end CoinSpend.Spend
