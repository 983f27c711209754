import CoinSpend.Proofs.ColumnMultisig

/-!
# What a multiple check leaves, and which of its errors it gives

A multiple check that succeeds replaces its operands by an answer and touches nothing below
them.  Once the comparisons are over, the rule about failed signatures looks at signatures
only, and the rule about the unused element comes after it.
-/

namespace CoinSpend

theorem MultisigOperands.LieOn.drop_eq_rest {operands : MultisigOperands} {stack : Stack}
    (lie : operands.LieOn stack) :
    stack.drop (operands.keys.length + operands.signatures.length + 3) = operands.rest ∧
      operands.keys.length + operands.signatures.length + 3 ≤ stack.length := by
  obtain ⟨passed, length, split⟩ := lie.split_at_signatures
  have front : stack = (passed ++ operands.signatures ++ [operands.extra]) ++ operands.rest := by
    simp [split]
  have depth : (passed ++ operands.signatures ++ [operands.extra]).length =
      operands.keys.length + operands.signatures.length + 3 := by
    simp only [List.length_append, List.length_singleton, length]
    omega
  constructor
  · rw [front, ← depth, List.drop_left]
  · rw [front, ← depth, @List.length_append _ _ operands.rest]
    exact Nat.le_add_right _ _

namespace Context

theorem giveAnswer_eq_ok_iff {thenVerify accepted : Bool} {error : ScriptError}
    {rest left : Stack} :
    giveAnswer thenVerify accepted error rest = .ok left ↔
      (thenVerify = true → accepted = true) ∧
        left = (if thenVerify then [] else [ScriptNumber.ofBool accepted]) ++ rest := by
  cases thenVerify <;> cases accepted <;> simp [giveAnswer, eq_comm]

theorem map_giveAnswer_ne_error {thenVerify accepted : Bool} {error other : ScriptError}
    {rest : Stack} (change : Stack → State) (different : error ≠ other) :
    (giveAnswer thenVerify accepted error rest).map change ≠ .error other := by
  cases thenVerify <;> cases accepted <;> simp [giveAnswer, Except.map, different]

variable {context : Context} {thenVerify accepted : Bool} {state counted final : State}
  {operands : MultisigOperands} {code : Script}

theorem breaks_nullFail_iff :
    (accepted || !context.flags.has .nullFail || operands.signatures.all List.isEmpty) = false ↔
      accepted = false ∧ context.flags.has .nullFail = true ∧
        ∃ signature ∈ operands.signatures, signature ≠ [] := by
  simp [and_assoc]

theorem breaks_nullDummy_iff :
    (!context.flags.has .nullDummy || operands.extra.isEmpty) = false ↔
      context.flags.has .nullDummy = true ∧ operands.extra ≠ [] := by
  simp

section Matched

variable (matched :
  (context.matchSignatures code operands.signatures operands.keys).result = .ok accepted)

include matched

/-- After the comparisons two rules are left, and the answer. -/
theorem result_settleMultisig :
    (context.settleMultisig thenVerify operands code counted).result =
      if accepted || !context.flags.has .nullFail || operands.signatures.all List.isEmpty then
        if !context.flags.has .nullDummy || operands.extra.isEmpty then
          (giveAnswer thenVerify accepted .checkMultisigVerify operands.rest).map
            counted.withStack
        else .error .signatureNullDummy
      else .error .nullFail := by
  rw [settleMultisig, Outcome.result_bind_of_ok _ matched, Outcome.result_require_bind,
    Outcome.result_require_bind]
  cases giveAnswer thenVerify accepted .checkMultisigVerify operands.rest <;> rfl

theorem settleMultisig_eq_nullFail_iff :
    (context.settleMultisig thenVerify operands code counted).result = .error .nullFail ↔
      accepted = false ∧ context.flags.has .nullFail = true ∧
        ∃ signature ∈ operands.signatures, signature ≠ [] := by
  rw [result_settleMultisig matched, ← breaks_nullFail_iff]
  cases accepted || !context.flags.has .nullFail || operands.signatures.all List.isEmpty with
  | false => exact ⟨fun _ => rfl, fun _ => rfl⟩
  | true =>
      refine ⟨fun failed => absurd failed ?_, nofun⟩
      rw [if_pos rfl]
      split
      · exact map_giveAnswer_ne_error counted.withStack nofun
      · exact nofun

theorem settleMultisig_eq_nullDummy_iff
    (passed : (context.settleMultisig thenVerify operands code counted).result ≠
      .error .nullFail) :
    (context.settleMultisig thenVerify operands code counted).result =
        .error .signatureNullDummy ↔
      context.flags.has .nullDummy = true ∧ operands.extra ≠ [] := by
  rw [result_settleMultisig matched] at passed ⊢
  cases met : accepted || !context.flags.has .nullFail ||
      operands.signatures.all List.isEmpty with
  | false =>
      rw [met] at passed
      exact absurd rfl passed
  | true =>
      rw [if_pos rfl, ← breaks_nullDummy_iff]
      cases !context.flags.has .nullDummy || operands.extra.isEmpty with
      | false => exact ⟨fun _ => rfl, fun _ => rfl⟩
      | true =>
          refine ⟨fun failed => absurd failed ?_, nofun⟩
          exact map_giveAnswer_ne_error counted.withStack nofun

end Matched

/-- A multiple check that succeeds puts its answer in the place of its operands. -/
theorem of_settleMultisig_eq_ok
    (settled : (context.settleMultisig thenVerify operands code counted).result = .ok final) :
    ∃ accepted,
      (context.matchSignatures code operands.signatures operands.keys).result = .ok accepted ∧
      (thenVerify = true → accepted = true) ∧
      final = counted.withStack
        ((if thenVerify then [] else [ScriptNumber.ofBool accepted]) ++ operands.rest) := by
  obtain ⟨accepted, matched, settled⟩ := Outcome.result_bind_eq_ok_iff.mp settled
  obtain ⟨-, settled⟩ := Outcome.result_require_bind_eq_ok_iff.mp settled
  obtain ⟨-, settled⟩ := Outcome.result_require_bind_eq_ok_iff.mp settled
  obtain ⟨left, answers, settled⟩ := Outcome.result_bind_eq_ok_iff.mp settled
  obtain ⟨verified, rfl⟩ := giveAnswer_eq_ok_iff.mp answers
  cases settled
  exact ⟨accepted, matched, verified, rfl⟩

theorem result_checkMultisig
    (read : context.multisigOperands state = .ok (operands, counted)) :
    (context.checkMultisig thenVerify state).result =
      (context.settleMultisig thenVerify operands
        (context.signedScript state operands.signatures) counted).result := by
  rw [checkMultisig_eq, read]
  rfl

end Context

/-- The effect of a multiple check, and its rules about empty elements.  The machine with its
countdown does the same as the check on stacks.  A success takes away exactly the two counts,
the keys, the signatures and the unused element, and puts the answer there, unless a verifying
check leaves nothing, for which its signatures must match.  Once the comparisons are over, the
check fails with `nullFail` exactly if they failed although a signature is not empty and the
flag is set; and otherwise with `signatureNullDummy` exactly if the unused element is not empty
and that flag is set. -/
theorem multisig_takes_its_operands_and_obeys_null_rules (context : Context) (thenVerify : Bool)
    (state : State) :
    context.checkMultisigOnColumn thenVerify state.upended =
        .done ((context.checkMultisig thenVerify state).map State.upended) ∧
    (∀ final, (context.checkMultisig thenVerify state).result = .ok final →
      ∃ (operands : MultisigOperands) (accepted : Bool),
        operands.LaidOut context.requireMinimal state.stack ∧
        (context.matchSignatures (context.signedScript state operands.signatures)
          operands.signatures operands.keys).result = .ok accepted ∧
        (thenVerify = true → accepted = true) ∧
        operands.keys.length + operands.signatures.length + 3 ≤ state.stack.length ∧
        final = { state with
          stack := (if thenVerify then [] else [ScriptNumber.ofBool accepted]) ++
            state.stack.drop (operands.keys.length + operands.signatures.length + 3)
          operations := state.operations + operands.keys.length }) ∧
    ∀ (operands : MultisigOperands) (counted : State) (accepted : Bool),
      context.multisigOperands state = .ok (operands, counted) →
      (context.matchSignatures (context.signedScript state operands.signatures)
        operands.signatures operands.keys).result = .ok accepted →
        operands.LaidOut context.requireMinimal state.stack ∧
        ((context.checkMultisig thenVerify state).result = .error .nullFail ↔
          accepted = false ∧ context.flags.has .nullFail = true ∧
            ∃ signature ∈ operands.signatures, signature ≠ []) ∧
        ((context.checkMultisig thenVerify state).result ≠ .error .nullFail →
          ((context.checkMultisig thenVerify state).result = .error .signatureNullDummy ↔
            context.flags.has .nullDummy = true ∧ operands.extra ≠ [])) := by
  refine ⟨context.checkMultisigOnColumn_agrees thenVerify state, ?_, ?_⟩
  · intro final succeeded
    obtain ⟨⟨operands, counted⟩, read, settled⟩ := Outcome.result_bind_eq_ok_iff.mp succeeded
    obtain ⟨laid, counts⟩ := Context.laidOut_of_multisigOperands read
    obtain ⟨accepted, matched, verified, rfl⟩ := Context.of_settleMultisig_eq_ok settled
    obtain ⟨isRest, deep⟩ := laid.lieOn.drop_eq_rest
    refine ⟨operands, accepted, laid, matched, verified, deep, ?_⟩
    rw [(State.countOperations_eq_ok_iff.mp counts).2, isRest]
    rfl
  · intro operands counted accepted read matched
    rw [Context.result_checkMultisig read]
    exact ⟨(Context.laidOut_of_multisigOperands read).1,
      Context.settleMultisig_eq_nullFail_iff matched,
      Context.settleMultisig_eq_nullDummy_iff matched⟩

def Context.refusing : Context :=
  ⟨.empty, .ofList [.nullFail, .nullDummy], .refuse, .base⟩

def State.oneKey (signature extra : Bytes) : State :=
  .ofStack [[1], [7], [1], signature, extra, [5]]

/-- A signature that is not empty fails the check, then an unused element that is not empty
does.  Without both the check takes five elements and answers no. -/
theorem one_refused_key_under_null_rules :
    (Context.refusing.multisigOperands (.oneKey [9] []) =
        .ok (⟨[[7]], [[9]], [], [[5]]⟩, { State.oneKey [9] [] with operations := 1 }) ∧
      (Context.refusing.checkMultisig false (.oneKey [9] [])).result = .error .nullFail) ∧
    (Context.refusing.multisigOperands (.oneKey [] [9]) =
        .ok (⟨[[7]], [[]], [9], [[5]]⟩, { State.oneKey [] [9] with operations := 1 }) ∧
      (Context.refusing.checkMultisig false (.oneKey [] [9])).result =
        .error .signatureNullDummy) ∧
    (Context.refusing.checkMultisig false (.oneKey [] [])).result =
        .ok ⟨[[], [5]], [], [], 1, 0⟩ ∧
      ∃ operands : MultisigOperands,
        operands.LaidOut false (State.oneKey [] []).stack ∧
        operands.keys.length + operands.signatures.length + 3 ≤ 6 := by
  have readFailed : Context.refusing.multisigOperands (.oneKey [9] []) =
      .ok (⟨[[7]], [[9]], [], [[5]]⟩, { State.oneKey [9] [] with operations := 1 }) := by
    decide +kernel
  have readUnused : Context.refusing.multisigOperands (.oneKey [] [9]) =
      .ok (⟨[[7]], [[]], [9], [[5]]⟩, { State.oneKey [] [9] with operations := 1 }) := by
    decide +kernel
  have succeeded : (Context.refusing.checkMultisig false (.oneKey [] [])).result =
      .ok ⟨[[], [5]], [], [], 1, 0⟩ := by
    decide +kernel
  have failed :=
    ((multisig_takes_its_operands_and_obeys_null_rules .refusing false (.oneKey [9] [])).2.2
      _ _ false readFailed (by decide +kernel)).2.1.mpr
        ⟨rfl, by decide, [9], List.mem_singleton_self _, by decide⟩
  have unused :=
    ((multisig_takes_its_operands_and_obeys_null_rules .refusing false (.oneKey [] [9])).2.2
      _ _ false readUnused (by decide +kernel)).2.2 (by decide +kernel) |>.mpr
        ⟨by decide, by decide⟩
  obtain ⟨operands, -, laid, -, -, deep, -⟩ :=
    (multisig_takes_its_operands_and_obeys_null_rules .refusing false (.oneKey [] [])).2.1
      _ succeeded
  exact ⟨⟨readFailed, failed⟩, ⟨readUnused, unused⟩, succeeded, operands, laid, deep⟩

end CoinSpend
