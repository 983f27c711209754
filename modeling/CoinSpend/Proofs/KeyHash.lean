import Mathlib.Data.List.Basic
import CoinSpend.Proofs.NestedWitness

/-!
# Spending the hash of a key

A witness program of twenty bytes is the hash of a key.  It is spent with a signature and
that key and in no other way, whatever else the flags ask for: the rules for pushes, for
failed checks and for what is left at the end have nothing to refuse here.
-/

namespace CoinSpend

/-! ## A signature and its key -/

namespace Context

variable {context : Context} {code : Script} {hash signature key : Bytes}

theorem checkPair_eq_ok_iff {accepted : Bool} :
    (context.checkPair code signature key).result = .ok accepted ↔
      Signature.checkEncoding signature context.flags = .ok () ∧
        PublicKey.checkEncoding key context.flags context.version = .ok () ∧
        context.checker.signature signature key code context.version = accepted := by
  constructor
  · intro checked
    obtain ⟨⟨⟩, signatureFormed, checked⟩ := Outcome.result_bind_eq_ok_iff.mp checked
    obtain ⟨⟨⟩, keyFormed, checked⟩ := Outcome.result_bind_eq_ok_iff.mp checked
    exact ⟨signatureFormed, keyFormed, Except.ok.inj checked⟩
  · rintro ⟨signatureFormed, keyFormed, rfl⟩
    refine Outcome.result_bind_eq_ok_iff.mpr ⟨(), signatureFormed, ?_⟩
    exact Outcome.result_bind_eq_ok_iff.mpr ⟨(), keyFormed, rfl⟩

/-- The key must have the hash, and the signature must hold for it.  What is asked of failed
checks does not matter to one that succeeds. -/
theorem unlockKeyHash_eq_true_iff :
    (context.unlockKeyHash hash signature key).result = .ok true ↔
      (CoinSpend.hash160 key).bytes = hash ∧
        Signature.checkEncoding signature context.flags = .ok () ∧
        PublicKey.checkEncoding key context.flags context.version = .ok () ∧
        context.checker.signature signature key
          (context.signedScript (.ofStack []) [signature]) context.version = true := by
  rw [unlockKeyHash, Outcome.result_require_bind_eq_ok_iff, decide_eq_true_iff,
    Outcome.result_bind_eq_ok_iff, ← checkPair_eq_ok_iff]
  refine and_congr_right fun _ => ?_
  constructor
  · rintro ⟨accepted, checked, answered⟩
    obtain ⟨-, answered⟩ := Outcome.result_require_bind_eq_ok_iff.mp answered
    rwa [← Except.ok.inj answered]
  · exact fun checked => ⟨true, checked, rfl⟩

end Context

/-! ## The witness -/

/-- The signature and the key that spend the hash of a key. -/
structure OpensKeyHash (hash : Bytes) (flags : Flags) (checker : Checker)
    (signature key : Bytes) : Prop where
  shortSignature : signature.length ≤ Limits.maxElementSize
  shortKey : key.length ≤ Limits.maxElementSize
  hashed : (CoinSpend.hash160 key).bytes = hash
  signatureFormed : Signature.checkEncoding signature flags = .ok ()
  keyFormed : PublicKey.checkEncoding key flags .witnessV0 = .ok ()
  holds : checker.signature signature key (.payToKeyHash hash) .witnessV0 = true

namespace WitnessProgram

variable {hash : Bytes} {flags : Flags} {checker : Checker}

theorem verify_of_pair (sized : hash.length = 20) (signature key : Bytes) :
    verify ⟨0, hash⟩ [signature, key] flags checker = (do
      Outcome.require ([key, signature].all fun element =>
        element.length ≤ Limits.maxElementSize) .pushSize
      let accepted ← Context.unlockKeyHash ⟨.payToKeyHash hash, flags, checker, .witnessV0⟩ hash
        signature key
      Outcome.require accepted .evalFalse) := by
  have starts : start ⟨0, hash⟩ [signature, key] = .ok ([key, signature], .payToKeyHash hash) := by
    rw [start, if_neg (by rw [sized]; decide), if_pos sized]
    rfl
  have answered : ∀ accepted : Bool,
      ([ScriptNumber.ofBool accepted].length == 1 &&
        Stack.topIsTrue [ScriptNumber.ofBool accepted]) = accepted := by
    decide
  have runs : Context.evaluate ⟨.payToKeyHash hash, flags, checker, .witnessV0⟩ [key, signature] =
      _ := Script.evaluate_payToKeyHash sized (by decide)
  rw [verify, if_pos rfl, starts]
  change (Outcome.require _ _ >>= _) = _
  simp only [runs, Outcome.bind_assoc, Outcome.pure_bind, answered]

theorem verify_keyHash_eq_ok_iff (sized : hash.length = 20) {witness : Witness} :
    (verify ⟨0, hash⟩ witness flags checker).result = .ok () ↔
      ∃ signature key, witness = [signature, key] ∧
        OpensKeyHash hash flags checker signature key := by
  by_cases pair : witness.length = 2
  · obtain ⟨signature, key, rfl⟩ := List.length_eq_two.mp pair
    rw [verify_of_pair sized, Outcome.result_require_bind_eq_ok_iff, List.all_eq_true,
      Outcome.result_bind_eq_ok_iff]
    simp only [List.forall_mem_cons, List.not_mem_nil, false_implies, implies_true, and_true,
      decide_eq_true_iff, Outcome.result_require_eq_ok_iff, exists_eq_right,
      Context.unlockKeyHash_eq_true_iff]
    constructor
    · rintro ⟨⟨shortKey, shortSignature⟩, hashed, signatureFormed, keyFormed, holds⟩
      exact ⟨signature, key, rfl, shortSignature, shortKey, hashed, signatureFormed, keyFormed,
        holds⟩
    · rintro ⟨_, _, ⟨⟩, opens⟩
      exact ⟨⟨opens.shortKey, opens.shortSignature⟩, opens.hashed, opens.signatureFormed,
        opens.keyFormed, opens.holds⟩
  · have refuses : start ⟨0, hash⟩ witness = .error .witnessProgramMismatch := by
      rw [start, if_neg (by rw [sized]; decide), if_pos sized, if_neg pair]
    rw [verify, if_pos rfl, refuses]
    constructor
    · intro impossible; cases impossible
    · rintro ⟨signature, key, rfl, -⟩
      exact absurd rfl pair

end WitnessProgram

/-! ## The spend -/

/-- An output that is the hash of a key can be spent exactly with an empty unlocking script and a
witness of two elements: a signature and the key with that hash, both short enough for the stack
and of good form, for which the checker says yes.  The hash must count as true, and no flag adds
or takes away anything but the rules of form. -/
theorem key_hash_is_spent_by_its_key_alone (hash : Bytes) (sized : hash.length = 20) :
    ∃ locking, Script.payToWitness ⟨0, hash⟩ = .ok locking ∧
      ∀ (unlocking : Script) (witness : Witness) (flags : Flags) (checker : Checker),
        flags.has .witness = true →
          ((Spend.verify ⟨unlocking, locking, witness, flags, checker⟩).result = .ok () ↔
            unlocking = .empty ∧ ScriptNumber.isTrue hash = true ∧
              ∃ signature key, witness = [signature, key] ∧
                OpensKeyHash hash flags checker signature key) := by
  have long : 2 ≤ hash.length := by rw [sized]; decide
  have short : hash.length ≤ 40 := by rw [sized]; decide
  obtain ⟨locking, built⟩ := Script.exists_payToWitness long short
  have found := Script.witnessProgram?_of_payToWitness built
  refine ⟨locking, built, ?_⟩
  intro unlocking witness flags checker witnessOn
  have decided : (Spend.verify ⟨unlocking, locking, witness, flags, checker⟩).result = .ok () ↔ _ :=
    Spend.verify_native_eq_ok_iff found witnessOn
  rw [decided]
  exact and_congr_right' (and_congr_right' (WitnessProgram.verify_keyHash_eq_ok_iff sized))

def PublicKey.ofOnes : Bytes :=
  0x02 :: List.replicate 32 1

/-- The shortest signature that is strict DER, with both numbers one. -/
def Signature.ofOnes : Bytes :=
  [0x30, 6, 0x02, 1, 1, 0x02, 1, 1, 1]

theorem ofOnes_spends_its_hash :
    (hash160 PublicKey.ofOnes).bytes.length = 20 ∧
      Flags.standard.has .witness = true ∧
      ∃ locking, Script.payToWitness ⟨0, (hash160 PublicKey.ofOnes).bytes⟩ = .ok locking ∧
        (Spend.verify ⟨.empty, locking, [Signature.ofOnes, PublicKey.ofOnes], .standard,
          { Checker.refuse with signature := fun _ _ _ _ => true }⟩).result = .ok () ∧
        ¬ (Spend.verify ⟨.empty, locking, [[], Signature.ofOnes, PublicKey.ofOnes], .standard,
          { Checker.refuse with signature := fun _ _ _ _ => true }⟩).result = .ok () := by
  have sized : (hash160 PublicKey.ofOnes).bytes.length = 20 := Digest.length_bytes _
  have witnessOn : Flags.standard.has .witness = true := by decide
  obtain ⟨locking, built, spent⟩ := key_hash_is_spent_by_its_key_alone _ sized
  refine ⟨sized, witnessOn, locking, built, ?_, ?_⟩
  · refine (spent _ _ _ _ witnessOn).mpr ⟨rfl, by decide +kernel, _, _, rfl, ?_⟩
    exact {
      shortSignature := by decide
      shortKey := by decide
      hashed := rfl
      signatureFormed := by decide +kernel
      keyFormed := by decide +kernel
      holds := rfl }
  · intro accepted
    obtain ⟨-, -, _, _, pair, -⟩ := (spent _ _ _ _ witnessOn).mp accepted
    cases pair

end CoinSpend
