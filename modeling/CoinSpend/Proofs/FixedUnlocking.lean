import CoinSpend.Proofs.NestedWitness
import CoinSpend.Proofs.ScriptHash

/-!
# What a witness leaves of the unlocking script

A witness is only taken along to a witness program: one that the output is, or one whose hash the
output is.  In both places the unlocking script is prescribed to the last byte, so nobody on the
way can change it, and a witness that no program asks for is refused.
-/

namespace CoinSpend

namespace Spend

variable {spend : Spend} (witnessOn : spend.flags.has .witness = true)
  (offered : spend.witness ≠ []) (accepted : spend.verify.result = .ok ())

include witnessOn offered accepted

theorem native_of_plain
    (plain : (spend.flags.has .p2sh && spend.locking.isPayToScriptHash) = false) :
    ∃ program, (program.verify spend.witness spend.flags spend.checker).result = .ok () ∧
      spend.locking.witnessProgram? = some program ∧ spend.unlocking = .empty := by
  obtain ⟨-, unlocked, -, opened, -, -, native, followed, stack, nested, settles, -, expected⟩ :=
    spend.verify_eq_ok_iff.mp accepted
  rw [settled_of_plain spend plain] at settles
  cases settles
  have isNative : native = true := by simpa [witnessOn, offered] using expected
  rw [isNative] at followed
  obtain ⟨-, nothing, program, recognized, verified⟩ := followWitness_eq_ok_true_iff.mp followed
  exact ⟨program, verified, recognized, nothing⟩

theorem nested_of_looked
    (looked : (spend.flags.has .p2sh && spend.locking.isPayToScriptHash) = true) :
    ∃ program, (program.verify spend.witness spend.flags spend.checker).result = .ok () ∧
      ∃ wrapped : Script, wrapped.witnessProgram? = some program ∧
        spend.unlocking = Script.empty.appendData wrapped.bytes ∧
        spend.locking = .payToScriptHash wrapped.hash160 := by
  obtain ⟨saved, reached, stack, nested, redeemed, -, expected⟩ :=
    (verify_eq_ok_iff_of_looked looked).mp accepted
  obtain ⟨redeem, below, rfl, -, named⟩ := reached.exists_redeem
  obtain ⟨-, left, -, -, followed, -⟩ := followRedeem_eq_ok_iff.mp redeemed
  have isNested : nested = true := by simpa [witnessOn, offered] using expected
  rw [isNested] at followed
  obtain ⟨-, pushed, program, recognized, verified⟩ := followWitness_eq_ok_true_iff.mp followed
  exact ⟨program, verified, ⟨redeem⟩, recognized, pushed, named⟩

end Spend

/-- An output that is spent with a witness either is a witness program, and nothing unlocks it
but the witness; or it is the hash of a witness program, and the unlocking script is the one push
of that program.  The program accepts the witness, so none goes along for nothing. -/
theorem witness_fixes_the_unlocking_script (spend : Spend)
    (witnessOn : spend.flags.has .witness = true) (offered : spend.witness ≠ [])
    (accepted : spend.verify.result = .ok ()) :
    ∃ program, (program.verify spend.witness spend.flags spend.checker).result = .ok () ∧
      ((spend.locking.witnessProgram? = some program ∧ spend.unlocking = .empty) ∨
        (spend.flags.has .p2sh = true ∧ spend.locking.isPayToScriptHash = true ∧
          ∃ wrapped : Script, wrapped.witnessProgram? = some program ∧
            spend.unlocking = Script.empty.appendData wrapped.bytes ∧
            wrapped.hash160.bytes = (spend.locking.bytes.drop 2).take 20)) := by
  cases looked : (spend.flags.has .p2sh && spend.locking.isPayToScriptHash) with
  | false =>
      obtain ⟨program, verified, native⟩ := Spend.native_of_plain witnessOn offered accepted looked
      exact ⟨program, verified, Or.inl native⟩
  | true =>
      obtain ⟨p2shOn, isHash⟩ := Bool.and_eq_true_iff.mp looked
      obtain ⟨program, verified, wrapped, recognized, pushed, named⟩ :=
        Spend.nested_of_looked witnessOn offered accepted looked
      refine ⟨program, verified, Or.inr ⟨p2shOn, isHash, wrapped, recognized, pushed, ?_⟩⟩
      rw [named, Script.take_drop_payToScriptHash]

theorem witness_of_wantsFive_goes_with_a_push :
    Flags.standard.has .witness = true ∧ ([[5], [0x55, 0x87]] : Witness) ≠ [] ∧
      (Spend.verify ⟨Script.empty.appendData Script.wantsFive.bytes,
        .payToScriptHash Script.wantsFive.hash160, [[5], [0x55, 0x87]], .standard,
        .refuse⟩).result = .ok () ∧
      (∃ program, (program.verify [[5], [0x55, 0x87]] .standard .refuse).result = .ok () ∧
        ∃ wrapped : Script, wrapped.witnessProgram? = some program ∧
          Script.empty.appendData Script.wantsFive.bytes =
            Script.empty.appendData wrapped.bytes ∧
          wrapped.hash160.bytes = Script.wantsFive.hash160.bytes) ∧
      ¬ (Spend.verify ⟨.empty, ⟨[0x51]⟩, [[5], [0x55, 0x87]], .standard, .refuse⟩).result =
        .ok () := by
  have witnessOn : Flags.standard.has .witness = true := by decide
  have offered : ([[5], [0x55, 0x87]] : Witness) ≠ [] := List.cons_ne_nil _ _
  have accepted : (Spend.verify ⟨Script.empty.appendData Script.wantsFive.bytes,
      .payToScriptHash Script.wantsFive.hash160, [[5], [0x55, 0x87]], .standard,
      .refuse⟩).result = .ok () := by
    have found : Script.wantsFive.witnessProgram? =
        some ⟨0, (CoinSpend.sha256 [0x55, 0x87]).bytes⟩ := by decide +kernel
    have hidden : Spend.verify ⟨Script.empty.appendData Script.wantsFive.bytes,
        .payToScriptHash Script.wantsFive.hash160, [[5], [0x55, 0x87]], .standard, .refuse⟩ = _ :=
      Spend.verify_of_nested found rfl rfl (by decide) witnessOn
    exact (congrArg Outcome.result hidden).trans (by decide +kernel)
  refine ⟨witnessOn, offered, accepted, ?_, ?_⟩
  · obtain ⟨program, verified, ⟨recognized, -⟩ | ⟨-, -, wrapped, recognized, pushed, hashed⟩⟩ :=
      witness_fixes_the_unlocking_script ⟨_, _, _, _, _⟩ witnessOn offered accepted
    · rw [Script.witnessProgram?_of_isPayToScriptHash
        (Script.isPayToScriptHash_payToScriptHash _)] at recognized
      cases recognized
    · rw [Script.take_drop_payToScriptHash] at hashed
      exact ⟨program, verified, wrapped, recognized, pushed, hashed⟩
  · intro anyoneCan
    obtain ⟨program, -, ⟨recognized, -⟩ | ⟨-, isHash, -⟩⟩ :=
      witness_fixes_the_unlocking_script ⟨_, _, _, _, _⟩ witnessOn offered anyoneCan
    · cases recognized
    · cases isHash

end CoinSpend
