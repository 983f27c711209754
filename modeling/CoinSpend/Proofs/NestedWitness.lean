import CoinSpend.Proofs.Spend
import CoinSpend.Proofs.SpendBudget
import CoinSpend.Proofs.Templates

/-!
# Witness programs behind a hash

An output can name a witness program or the hash of one.  In the second form the unlocking
script pushes the program.  The two forms take different ways through verification, but
they come to the same end: the program decides, with the same questions, unless its data
does not even count as true.
-/

namespace CoinSpend

namespace Spend

variable {spend : Spend} {program : WitnessProgram}

/-- What a witness program makes of the witness, if its data counts as true. -/
def ofProgram (spend : Spend) (program : WitnessProgram) : Outcome Unit := do
  Outcome.require (ScriptNumber.isTrue program.data) .evalFalse
  program.verify spend.witness spend.flags spend.checker

/-- A spend whose two scripts are known to run through is left to its witness and its redeem
script. -/
theorem verify_of_opened {unlocked opened : Stack} (pushes : spend.unlocking.isPushOnly = true)
    (unlocks : spend.evaluateBase spend.unlocking [] = pure unlocked)
    (opens : spend.evaluateBase spend.locking unlocked = pure opened) :
    spend.verify = (do
      Outcome.require opened.topIsTrue .evalFalse
      let native ← spend.followWitness spend.locking .empty .witnessMalleated
      spend.settled unlocked opened native >>= spend.finish native) := by
  have allowed : (!spend.flags.has .pushOnly || spend.unlocking.isPushOnly) = true := by
    rw [pushes, Bool.or_true]
  rw [verify_eq, Outcome.require_bind_of_met allowed, unlocks, Outcome.pure_bind, opens,
    Outcome.pure_bind]

theorem finish_of_followed (spend : Spend) {native nested : Bool} {bottom : Bytes}
    (followed : (native || nested) = true) :
    spend.finish native ([bottom], nested) = pure () := by
  have expected : (!spend.flags.has .witness || native || nested || spend.witness.isEmpty) =
      true := by
    rw [Bool.or_assoc (!spend.flags.has .witness), followed, Bool.or_true, Bool.true_or]
  have clean : (!spend.flags.has .cleanStack || [bottom].length == 1) = true := Bool.or_true _
  rw [finish, Outcome.require_bind_of_met clean, Outcome.require_of_met expected]

/-- A program that is followed before something that cannot fail is all that counts. -/
theorem followWitness_bind (on : spend.flags.has .witness = true) {script expected : Script}
    (found : script.witnessProgram? = some program) (offered : spend.unlocking = expected)
    (error : ScriptError) {rest : Bool → Outcome Unit} (last : rest true = pure ()) :
    (spend.followWitness script expected error >>= rest) =
      program.verify spend.witness spend.flags spend.checker := by
  rw [followWitness_of_some spend on found,
    Outcome.require_bind_of_met (decide_eq_true offered), Outcome.bind_assoc]
  simp only [Outcome.pure_bind, last]
  exact Outcome.bind_pure_unit _

theorem verify_of_native (found : spend.locking.witnessProgram? = some program)
    (nothing : spend.unlocking = .empty) (witnessOn : spend.flags.has .witness = true) :
    spend.verify = spend.ofProgram program := by
  have pushes : spend.unlocking.isPushOnly = true := by
    rw [nothing]
    exact Script.isPushOnly_empty
  have unlocks : spend.evaluateBase spend.unlocking [] = pure [] := by
    rw [nothing]
    exact Script.evaluate_empty _ _ _ _
  have opens : spend.evaluateBase spend.locking [] =
      pure [program.data, ScriptNumber.encode program.version] :=
    Script.evaluate_of_witnessProgram? found _ _ _ (by decide)
  have plain : (spend.flags.has .p2sh && spend.locking.isPayToScriptHash) = false := by
    cases isHash : spend.locking.isPayToScriptHash with
    | false => exact Bool.and_false _
    | true =>
        rw [Script.witnessProgram?_of_isPayToScriptHash isHash] at found
        cases found
  rw [verify_of_opened pushes unlocks opens, ofProgram]
  refine congrArg (Outcome.require (ScriptNumber.isTrue program.data) .evalFalse >>= ·)
    (funext fun _ => followWitness_bind witnessOn found nothing _ ?_)
  rw [settled_of_plain _ plain, Outcome.pure_bind]
  exact finish_of_followed _ rfl

theorem unlocking_of_verify_native (found : spend.locking.witnessProgram? = some program)
    (witnessOn : spend.flags.has .witness = true) (accepted : spend.verify.result = .ok ()) :
    spend.unlocking = .empty := by
  obtain ⟨-, _, -, _, -, -, _, followed, -⟩ := spend.verify_eq_ok_iff.mp accepted
  rw [followWitness_of_some _ witnessOn found] at followed
  exact of_decide_eq_true (Outcome.result_require_bind_eq_ok_iff.mp followed).1

theorem verify_native_eq_ok_iff (found : spend.locking.witnessProgram? = some program)
    (witnessOn : spend.flags.has .witness = true) :
    spend.verify.result = .ok () ↔
      spend.unlocking = .empty ∧ ScriptNumber.isTrue program.data = true ∧
        (program.verify spend.witness spend.flags spend.checker).result = .ok () := by
  constructor
  · intro accepted
    have nothing := unlocking_of_verify_native found witnessOn accepted
    rw [verify_of_native found nothing witnessOn] at accepted
    exact ⟨nothing, Outcome.result_require_bind_eq_ok_iff.mp accepted⟩
  · rintro ⟨nothing, accepted⟩
    rw [verify_of_native found nothing witnessOn]
    exact Outcome.result_require_bind_eq_ok_iff.mpr accepted

theorem followRedeem_bind {wrapped : Script} (found : wrapped.witnessProgram? = some program)
    (offered : spend.unlocking = Script.empty.appendData wrapped.bytes)
    (witnessOn : spend.flags.has .witness = true) :
    (spend.followRedeem [wrapped.bytes] >>= spend.finish false) = spend.ofProgram program := by
  have pushes : spend.unlocking.isPushOnly = true := by
    rw [offered]
    exact Script.isPushOnly_appendData
      (Nat.le_trans (Script.length_of_witnessProgram? found).2 (by decide))
  have redeems : spend.evaluateBase ⟨wrapped.bytes⟩ [] =
      pure [program.data, ScriptNumber.encode program.version] :=
    Script.evaluate_of_witnessProgram? found _ _ _ (by decide)
  rw [followRedeem, Outcome.require_bind_of_met pushes]
  dsimp only
  rw [redeems, Outcome.pure_bind, Outcome.bind_assoc, ofProgram]
  refine congrArg (Outcome.require (ScriptNumber.isTrue program.data) .evalFalse >>= ·)
    (funext fun _ => ?_)
  rw [Outcome.bind_assoc]
  refine followWitness_bind witnessOn found offered _ ?_
  rw [Outcome.pure_bind]
  exact finish_of_followed _ rfl

theorem verify_of_nested {wrapped : Script} (found : wrapped.witnessProgram? = some program)
    (offered : spend.unlocking = Script.empty.appendData wrapped.bytes)
    (named : spend.locking = .payToScriptHash wrapped.hash160)
    (p2shOn : spend.flags.has .p2sh = true) (witnessOn : spend.flags.has .witness = true) :
    spend.verify = spend.ofProgram program := by
  obtain ⟨long, most⟩ := Script.length_of_witnessProgram? found
  have pushes : spend.unlocking.isPushOnly = true := by
    rw [offered]
    exact Script.isPushOnly_appendData (Nat.le_trans most (by decide))
  have unlocks : spend.evaluateBase spend.unlocking [] = pure [wrapped.bytes] := by
    rw [offered]
    exact Script.evaluate_appendData long (Nat.le_trans most (by decide)) _ _ _ (by decide)
  have opens : spend.evaluateBase spend.locking [wrapped.bytes] = pure [[1]] := by
    have same : decide ((CoinSpend.hash160 wrapped.bytes).bytes = wrapped.hash160.bytes) = true :=
      decide_eq_true rfl
    have compared : spend.evaluateBase (.payToScriptHash wrapped.hash160) [wrapped.bytes] = _ :=
      Script.evaluate_payToScriptHash (by decide)
    rw [named, compared, same]
    rfl
  have isHash : spend.locking.isPayToScriptHash = true := by
    rw [named]
    exact Script.isPayToScriptHash_payToScriptHash _
  have looked : (spend.flags.has .p2sh && spend.locking.isPayToScriptHash) = true := by
    rw [p2shOn, isHash]
    rfl
  have isTrue : Stack.topIsTrue [[1]] = true := rfl
  rw [verify_of_opened pushes unlocks opens, Outcome.require_bind_of_met isTrue,
    followWitness_of_none _ (Script.witnessProgram?_of_isPayToScriptHash isHash),
    Outcome.pure_bind, settled_of_nested _ looked]
  exact followRedeem_bind found offered witnessOn

end Spend

theorem witnessChecks_nested {wrapped : Script} (recognized : wrapped.witnessProgram?.isSome = true)
    (witness : Witness) (flags : Flags) :
    witnessChecks (Script.empty.appendData wrapped.bytes) (.payToScriptHash wrapped.hash160)
        witness flags =
      witnessChecks .empty wrapped witness flags := by
  obtain ⟨program, found⟩ := Option.isSome_iff_exists.mp recognized
  have fits : wrapped.bytes.length ≤ PushForm.fourBytes.maxLength :=
    Nat.le_trans (Script.length_of_witnessProgram? found).2 (by decide)
  have isHash := Script.isPayToScriptHash_payToScriptHash wrapped.hash160
  have followed : followedProgram? (Script.empty.appendData wrapped.bytes)
      (.payToScriptHash wrapped.hash160) = some program := by
    rw [followedProgram?, Script.witnessProgram?_of_isPayToScriptHash isHash, isHash,
      Script.redeemScript?_appendData fits]
    exact found
  have native : followedProgram? .empty wrapped = some program := by
    rw [followedProgram?, found]
  rw [witnessChecks, witnessChecks, followed, native]

/-- Whoever may spend a witness program may spend its hash with a push of it, and nobody
else: both forms have the same result and ask the same questions in the same order.  They
are also counted alike, whatever the flags. -/
theorem nesting_a_witness_program_changes_nothing (wrapped : Script)
    (recognized : wrapped.witnessProgram?.isSome = true) (witness : Witness) :
    (∀ (flags : Flags) (checker : Checker), flags.has .p2sh = true → flags.has .witness = true →
      Spend.verify ⟨Script.empty.appendData wrapped.bytes, .payToScriptHash wrapped.hash160,
          witness, flags, checker⟩ =
        Spend.verify ⟨.empty, wrapped, witness, flags, checker⟩) ∧
    ∀ flags : Flags,
      witnessChecks (Script.empty.appendData wrapped.bytes) (.payToScriptHash wrapped.hash160)
          witness flags =
        witnessChecks .empty wrapped witness flags := by
  obtain ⟨program, found⟩ := Option.isSome_iff_exists.mp recognized
  refine ⟨?_, witnessChecks_nested recognized witness⟩
  intro flags checker p2shOn witnessOn
  have hidden : Spend.verify ⟨Script.empty.appendData wrapped.bytes,
      .payToScriptHash wrapped.hash160, witness, flags, checker⟩ = _ :=
    Spend.verify_of_nested found rfl rfl p2shOn witnessOn
  have shown : Spend.verify ⟨.empty, wrapped, witness, flags, checker⟩ = _ :=
    Spend.verify_of_native found rfl witnessOn
  exact hidden.trans shown.symm

def Script.wantsFive : Script :=
  ⟨0x00 :: 0x20 :: (CoinSpend.sha256 [0x55, 0x87]).bytes⟩

theorem nested_wantsFive_is_spent_like_the_native_form :
    Script.wantsFive.witnessProgram?.isSome = true ∧
      Spend.verify ⟨Script.empty.appendData Script.wantsFive.bytes,
          .payToScriptHash Script.wantsFive.hash160, [[5], [0x55, 0x87]], .standard, .refuse⟩ =
        Spend.verify ⟨.empty, .wantsFive, [[5], [0x55, 0x87]], .standard, .refuse⟩ ∧
      (Spend.verify ⟨.empty, .wantsFive, [[5], [0x55, 0x87]], .standard, .refuse⟩).result =
        .ok () := by
  have recognized : Script.wantsFive.witnessProgram?.isSome = true := by decide +kernel
  refine ⟨recognized, ?_, by decide +kernel⟩
  exact (nesting_a_witness_program_changes_nothing _ recognized _).1 _ _ (by decide) (by decide)

end CoinSpend
