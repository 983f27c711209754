import CoinSpend.Proofs.Spend
import CoinSpend.Proofs.SpendBudget
import CoinSpend.Proofs.Templates

/-!
# Spending the hash of a script

An output can be the hash of a script.  The stack that the unlocking script leaves is looked at
twice: the locking script replaces its top by whether it has the hash, and then the top of the
same stack, as it was before, is run on what lies below.  Both looks find one element, so
what is run is what was hashed.
-/

namespace CoinSpend

/-! ## The lock -/

theorem Stack.topIsTrue_ofBool (answer : Bool) (below : Stack) :
    Stack.topIsTrue (ScriptNumber.ofBool answer :: below) = answer := by
  cases answer <;> rfl

namespace Script

theorem take_drop_payToScriptHash (hash : Hash160) :
    ((payToScriptHash hash).bytes.drop 2).take 20 = hash.bytes := by
  rw [bytes_payToScriptHash]
  exact List.take_left' hash.length_bytes

theorem exists_eq_payToScriptHash {script : Script} (isHash : script.isPayToScriptHash = true) :
    ∃ hash, script = payToScriptHash hash := by
  obtain ⟨bytes⟩ := script
  simp only [isPayToScriptHash, Bool.and_eq_true, beq_iff_eq] at isHash
  obtain ⟨⟨sized, front⟩, last⟩ := isHash
  have length : bytes.length = 23 := sized
  have middle : ((bytes.drop 2).take 20).length = 20 := by simp [length]
  have parts : bytes = 0xa9 :: 20 :: ((bytes.drop 2).take 20 ++ [0x87]) := by
    calc bytes = bytes.take 2 ++ bytes.drop 2 := (List.take_append_drop 2 bytes).symm
      _ = bytes.take 2 ++ ((bytes.drop 2).take 20 ++ (bytes.drop 2).drop 20) := by
          rw [List.take_append_drop 20]
      _ = 0xa9 :: 20 :: ((bytes.drop 2).take 20 ++ [0x87]) := by
          rw [front, List.drop_drop, last]
          rfl
  refine ⟨⟨(bytes.drop 2).take 20, middle⟩, ?_⟩
  change Script.mk bytes = ⟨(payToScriptHash _).bytes⟩
  rw [bytes_payToScriptHash]
  exact congrArg Script.mk parts

section Evaluation

variable {hash : Hash160} {flags : Flags} {checker : Checker} {version : SignatureVersion}
  {stack opened : Stack}

theorem evaluate_payToScriptHash_eq_ok_iff :
    (Context.evaluate ⟨payToScriptHash hash, flags, checker, version⟩ stack).result = .ok opened ↔
      ∃ top below, stack = top :: below ∧ below.length + 2 ≤ Limits.maxStackSize ∧
        opened =
          ScriptNumber.ofBool ((CoinSpend.hash160 top).bytes = hash.bytes) :: below := by
  cases stack with
  | nil =>
      rw [evaluate_payToScriptHash_nil]
      constructor
      · intro impossible; cases impossible
      · rintro ⟨_, _, impossible, -⟩; cases impossible
  | cons top below =>
      rw [evaluate_payToScriptHash_cons, Outcome.result_require_bind_eq_ok_iff,
        decide_eq_true_iff]
      constructor
      · rintro ⟨room, evaluated⟩
        cases evaluated
        exact ⟨top, below, rfl, room, rfl⟩
      · rintro ⟨_, _, ⟨⟩, room, rfl⟩
        exact ⟨room, rfl⟩

theorem opens_payToScriptHash_iff :
    (∃ opened,
      (Context.evaluate ⟨payToScriptHash hash, flags, checker, version⟩ stack).result =
        .ok opened ∧ opened.topIsTrue = true) ↔
      ∃ top below, stack = top :: below ∧ below.length + 2 ≤ Limits.maxStackSize ∧
        CoinSpend.hash160 top = hash := by
  simp only [evaluate_payToScriptHash_eq_ok_iff]
  constructor
  · rintro ⟨_, ⟨top, below, rfl, room, rfl⟩, isTrue⟩
    rw [Stack.topIsTrue_ofBool, decide_eq_true_iff] at isTrue
    exact ⟨top, below, rfl, room, Digest.ext isTrue⟩
  · rintro ⟨top, below, rfl, room, rfl⟩
    refine ⟨_, ⟨top, below, rfl, room, rfl⟩, ?_⟩
    rw [Stack.topIsTrue_ofBool, decide_eq_true_iff]

end Evaluation

end Script

/-! ## The redeem stage -/

namespace Spend

variable {spend : Spend} {saved : Stack}

/-- Verification goes on to the redeem script, with the stack that the unlocking script left. -/
structure ReachesRedeem (spend : Spend) (saved : Stack) : Prop where
  looked : (spend.flags.has .p2sh && spend.locking.isPayToScriptHash) = true
  allowed : (!spend.flags.has .pushOnly || spend.unlocking.isPushOnly) = true
  unlocks : (spend.evaluateBase spend.unlocking []).result = .ok saved
  opens : ∃ opened, (spend.evaluateBase spend.locking saved).result = .ok opened ∧
    opened.topIsTrue = true

/-- On the way to the redeem script no witness program is met. -/
theorem verify_eq_ok_iff_of_looked
    (looked : (spend.flags.has .p2sh && spend.locking.isPayToScriptHash) = true) :
    spend.verify.result = .ok () ↔
      ∃ saved, spend.ReachesRedeem saved ∧
        ∃ stack nested, (spend.followRedeem saved).result = .ok (stack, nested) ∧
          (!spend.flags.has .cleanStack || stack.length == 1) = true ∧
          (!spend.flags.has .witness || nested || spend.witness.isEmpty) = true := by
  have isHash := (Bool.and_eq_true_iff.mp looked).2
  have plain : spend.followWitness spend.locking .empty .witnessMalleated = pure false :=
    followWitness_of_none spend (Script.witnessProgram?_of_isPayToScriptHash isHash) _ _
  rw [verify_eq_ok_iff, plain]
  simp only [settled_of_nested spend looked]
  constructor
  · rintro ⟨allowed, saved, unlocks, opened, opens, isTrue, native, ⟨⟩, stack, nested, redeemed,
      clean, expected⟩
    rw [Bool.or_false] at expected
    exact ⟨saved, ⟨looked, allowed, unlocks, opened, opens, isTrue⟩, stack, nested, redeemed,
      clean, expected⟩
  · rintro ⟨saved, ⟨-, allowed, unlocks, opened, opens, isTrue⟩, stack, nested, redeemed, clean,
      expected⟩
    refine ⟨allowed, saved, unlocks, opened, opens, isTrue, false, rfl, stack, nested, redeemed,
      clean, ?_⟩
    rwa [Bool.or_false]

theorem ReachesRedeem.result_verify (reached : spend.ReachesRedeem saved) :
    spend.verify.result = (spend.followRedeem saved >>= spend.finish false).result := by
  obtain ⟨looked, allowed, unlocks, opened, opens, isTrue⟩ := reached
  have isHash := (Bool.and_eq_true_iff.mp looked).2
  rw [verify_eq, Outcome.require_bind_of_met allowed, Outcome.result_bind_of_ok _ unlocks,
    Outcome.result_bind_of_ok _ opens, Outcome.require_bind_of_met isTrue,
    followWitness_of_none spend (Script.witnessProgram?_of_isPayToScriptHash isHash),
    Outcome.pure_bind, settled_of_nested spend looked]

/-- The stack that is saved for the redeem script has it on top, and it is the script that the
output names. -/
theorem ReachesRedeem.exists_redeem (reached : spend.ReachesRedeem saved) :
    ∃ redeem below, saved = redeem :: below ∧ below.length + 2 ≤ Limits.maxStackSize ∧
      spend.locking = .payToScriptHash (hash160 redeem) := by
  have isHash := (Bool.and_eq_true_iff.mp reached.looked).2
  obtain ⟨hash, named⟩ := Script.exists_eq_payToScriptHash isHash
  have opens := reached.opens
  rw [named] at opens
  obtain ⟨redeem, below, isSaved, room, hashed⟩ := Script.opens_payToScriptHash_iff.mp opens
  exact ⟨redeem, below, isSaved, room, named.trans (congrArg _ hashed.symm)⟩

end Spend

/-- What opens the hash of a script: an unlocking script that only pushes, and the script that
it leaves on top, run on what it leaves below. -/
structure OpensScriptHash (hash : Hash160) (flags : Flags) (checker : Checker)
    (unlocking : Script) (redeem : Bytes) (below left : Stack) : Prop where
  pushes : unlocking.isPushOnly = true
  unlocks : (Context.evaluate ⟨unlocking, flags, checker, .base⟩ []).result =
    .ok (redeem :: below)
  room : (redeem :: below).length ≤ 999
  hashed : hash160 redeem = hash
  redeems : (Context.evaluate ⟨⟨redeem⟩, flags, checker, .base⟩ below).result = .ok left
  holds : left.topIsTrue = true

theorem Spend.verify_scriptHash_eq_ok_iff {hash : Hash160} {unlocking : Script}
    {witness : Witness} {flags : Flags} {checker : Checker} (p2shOn : flags.has .p2sh = true)
    (witnessOff : flags.has .witness = false) (cleanOff : flags.has .cleanStack = false) :
    (verify ⟨unlocking, .payToScriptHash hash, witness, flags, checker⟩).result = .ok () ↔
      ∃ redeem below left, OpensScriptHash hash flags checker unlocking redeem below left := by
  have looked : (flags.has .p2sh && (Script.payToScriptHash hash).isPayToScriptHash) = true := by
    rw [p2shOn, Script.isPayToScriptHash_payToScriptHash]
    rfl
  refine (verify_eq_ok_iff_of_looked looked).trans ⟨?_, ?_⟩
  · rintro ⟨saved, reached, stack, nested, redeemed, -⟩
    obtain ⟨redeem, below, rfl, room, hashed⟩ := Script.opens_payToScriptHash_iff.mp reached.opens
    obtain ⟨pushes, left, redeems, holds, -⟩ := followRedeem_eq_ok_iff.mp redeemed
    have fits : (redeem :: below).length ≤ 999 := Nat.le_of_succ_le_succ room
    exact ⟨redeem, below, left, pushes, reached.unlocks, fits, hashed, redeems, holds⟩
  · rintro ⟨redeem, below, left, opens⟩
    have room : below.length + 2 ≤ Limits.maxStackSize := Nat.succ_le_succ opens.room
    have reached : ReachesRedeem ⟨unlocking, .payToScriptHash hash, witness, flags, checker⟩
        (redeem :: below) :=
      { looked
        allowed := by rw [opens.pushes, Bool.or_true]
        unlocks := opens.unlocks
        opens := Script.opens_payToScriptHash_iff.mpr ⟨redeem, below, rfl, room, opens.hashed⟩ }
    have unfollowed := followWitness_of_off
      ⟨unlocking, .payToScriptHash hash, witness, flags, checker⟩ witnessOff ⟨redeem⟩
      (Script.empty.appendData redeem) .witnessMalleatedNested
    refine ⟨_, reached, left, false, ?_, ?_, ?_⟩
    · refine followRedeem_eq_ok_iff.mpr ⟨opens.pushes, left, opens.redeems, opens.holds, ?_, rfl⟩
      rw [unfollowed]
      rfl
    · rw [cleanOff]
      rfl
    · rw [witnessOff]
      rfl

/-- An output that is the hash of a script can be spent exactly with pushes of which the last one
has the hash and, run on the others, leaves a top that counts as true, if neither witnesses nor
the number of elements left have rules.  Under all flags, the stack that is saved for the redeem
script has the script that the output names on top, so the redeem script is never missing. -/
theorem script_hash_is_spent_by_its_script :
    (∀ (hash : Hash160) (unlocking : Script) (witness : Witness) (flags : Flags)
        (checker : Checker), flags.has .p2sh = true → flags.has .witness = false →
          flags.has .cleanStack = false →
      ((Spend.verify ⟨unlocking, .payToScriptHash hash, witness, flags, checker⟩).result =
          .ok () ↔
        ∃ redeem below left, OpensScriptHash hash flags checker unlocking redeem below left)) ∧
    ∀ (spend : Spend) (saved : Stack), spend.ReachesRedeem saved →
      ∃ redeem below, saved = redeem :: below ∧
        spend.locking = .payToScriptHash (hash160 redeem) ∧
        spend.verify.result =
          (spend.followRedeem (redeem :: below) >>= spend.finish false).result := by
  refine ⟨?_, ?_⟩
  · intro hash unlocking witness flags checker p2shOn witnessOff cleanOff
    exact Spend.verify_scriptHash_eq_ok_iff p2shOn witnessOff cleanOff
  · intro spend saved reached
    obtain ⟨redeem, below, rfl, -, named⟩ := reached.exists_redeem
    exact ⟨redeem, below, rfl, named, reached.result_verify⟩

def Script.isFive : Script :=
  ⟨[0x55, 0x87]⟩

def Script.offersFive : Script :=
  ⟨[0x55, 0x02, 0x55, 0x87]⟩

theorem offersFive_spends_the_hash_of_isFive :
    Flags.mandatory.has .p2sh = true ∧ Flags.mandatory.has .witness = false ∧
      Flags.mandatory.has .cleanStack = false ∧
      (Spend.verify ⟨.offersFive, .payToScriptHash Script.isFive.hash160, [[1]], .mandatory,
        .refuse⟩).result = .ok () ∧
      ¬ (Spend.verify ⟨.empty, .payToScriptHash Script.isFive.hash160, [[1]], .mandatory,
        .refuse⟩).result = .ok () ∧
      Spend.ReachesRedeem ⟨.offersFive, .payToScriptHash Script.isFive.hash160, [[1]], .mandatory,
        .refuse⟩ [[0x55, 0x87], [5]] ∧
      ∃ redeem below, [[0x55, 0x87], [5]] = redeem :: below ∧
        Script.payToScriptHash Script.isFive.hash160 = .payToScriptHash (hash160 redeem) := by
  have p2shOn : Flags.mandatory.has .p2sh = true := by decide
  have witnessOff : Flags.mandatory.has .witness = false := by decide
  have cleanOff : Flags.mandatory.has .cleanStack = false := by decide
  have unlocks : (Context.evaluate ⟨.offersFive, .mandatory, .refuse, .base⟩ []).result =
      .ok [[0x55, 0x87], [5]] := by decide +kernel
  have looked : (Flags.mandatory.has .p2sh &&
      (Script.payToScriptHash Script.isFive.hash160).isPayToScriptHash) = true := by
    rw [p2shOn, Script.isPayToScriptHash_payToScriptHash]
    rfl
  have reached : Spend.ReachesRedeem ⟨.offersFive, .payToScriptHash Script.isFive.hash160, [[1]],
      .mandatory, .refuse⟩ [[0x55, 0x87], [5]] :=
    { looked
      allowed := by decide +kernel
      unlocks
      opens := Script.opens_payToScriptHash_iff.mpr ⟨_, _, rfl, by decide, rfl⟩ }
  refine ⟨p2shOn, witnessOff, cleanOff, ?_, ?_, reached, ?_⟩
  · refine (script_hash_is_spent_by_its_script.1 _ _ _ _ _ p2shOn witnessOff cleanOff).mpr
      ⟨[0x55, 0x87], [[5]], [[1]], ?_⟩
    exact {
      pushes := by decide +kernel
      unlocks
      room := by decide
      hashed := rfl
      redeems := by decide +kernel
      holds := rfl }
  · intro accepted
    obtain ⟨redeem, below, left, opens⟩ :=
      (script_hash_is_spent_by_its_script.1 _ _ _ _ _ p2shOn witnessOff cleanOff).mp accepted
    have nothing := opens.unlocks
    rw [Script.evaluate_empty] at nothing
    cases nothing
  · obtain ⟨redeem, below, isSaved, named, -⟩ :=
      script_hash_is_spent_by_its_script.2 _ _ reached
    exact ⟨redeem, below, isSaved, named⟩

end CoinSpend
