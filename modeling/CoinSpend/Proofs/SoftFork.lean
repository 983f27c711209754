import CoinSpend.Proofs.Spend

/-!
# Flags only restrict

Each flag adds a rule.  A run under many flags is therefore followed, step by step,
by the same run under fewer of them, with the same stack.  The exceptions are the
flags that change what is looked at: an operation that gets a meaning from a flag
must not count as reserved without it, and a clean stack is only comparable where
the same scripts were evaluated.
-/

namespace CoinSpend

/-! ## Operands -/

namespace Stack

variable {loose strict : Bool} (weaker : loose = true → strict = true)

include weaker

theorem number_relaxes (maxLength : Nat) (element : Bytes) :
    Relaxes (number loose maxLength element) (number strict maxLength element) := by
  cases loose with
  | true => rw [weaker rfl]; exact .refl _
  | false =>
      intro value succeeded
      unfold number ScriptNumber.decode? at succeeded ⊢
      split at succeeded
      · rename_i found
        split at found
        · cases found
        · rename_i short
          rw [if_neg short]
          split at found
          · cases found
          · cases found
            exact succeeded
      · cases succeeded

theorem operand_relaxes (element : Bytes) :
    Relaxes (operand loose element) (operand strict element) :=
  number_relaxes weaker ScriptNumber.operandLength element

theorem fetchAt_relaxes (moved : Bool) (stack : Stack) :
    Relaxes (fetchAt loose moved stack) (fetchAt strict moved stack) := by
  match stack with
  | [] => exact .refl _
  | [_] => exact .refl _
  | top :: next :: rest => exact .bind (operand_relaxes weaker top) fun _ => .refl _

/-- Only the operations that read a depth depend on the form of numbers. -/
theorem apply_relaxes (operation : StackOperation) (stack : Stack) :
    Relaxes (apply loose operation stack) (apply strict operation stack) := by
  unfold apply
  split
  all_goals first
    | exact fetchAt_relaxes weaker _ _
    | exact .refl _

theorem applyUnary_relaxes (operation : UnaryOperation) (stack : Stack) :
    Relaxes (applyUnary loose operation stack) (applyUnary strict operation stack) := by
  match stack with
  | [] => exact .refl _
  | a :: rest => exact .bind (operand_relaxes weaker a) fun _ => .refl _

theorem applyBinary_relaxes (operation : BinaryOperation) (stack : Stack) :
    Relaxes (applyBinary loose operation stack) (applyBinary strict operation stack) := by
  match stack with
  | [] => exact .refl _
  | [_] => exact .refl _
  | b :: a :: rest =>
      exact .bind (operand_relaxes weaker a) fun _ =>
        .bind (operand_relaxes weaker b) fun _ => .refl _

theorem applyNumEqualVerify_relaxes (stack : Stack) :
    Relaxes (applyNumEqualVerify loose stack) (applyNumEqualVerify strict stack) := by
  match stack with
  | [] => exact .refl _
  | [_] => exact .refl _
  | b :: a :: rest =>
      exact .bind (operand_relaxes weaker a) fun _ =>
        .bind (operand_relaxes weaker b) fun _ => .refl _

theorem applyWithin_relaxes (stack : Stack) :
    Relaxes (applyWithin loose stack) (applyWithin strict stack) := by
  match stack with
  | [] => exact .refl _
  | [_] => exact .refl _
  | [_, _] => exact .refl _
  | upper :: lower :: value :: rest =>
      exact .bind (operand_relaxes weaker value) fun _ =>
        .bind (operand_relaxes weaker lower) fun _ =>
          .bind (operand_relaxes weaker upper) fun _ => .refl _

end Stack

theorem MultisigOperands.readCount_relaxes {loose strict : Bool}
    (weaker : loose = true → strict = true) (most : Nat) (error : ScriptError)
    (stack : Stack) :
    Relaxes (readCount loose most error stack) (readCount strict most error stack) := by
  match stack with
  | [] => exact .refl _
  | top :: rest => exact .bind (Stack.operand_relaxes weaker top) fun _ => .refl _

/-! ## Forms of signatures and keys -/

namespace Flags

/-- Every rule of the first set is a rule of the second. -/
def IsSubset (few many : Flags) : Prop :=
  ∀ flag, few.has flag = true → many.has flag = true

def AgreeOn (left right : Flags) (flag : Flag) : Prop :=
  left.has flag = right.has flag

theorem IsSubset.of_bits {few many : Flags} (within : few.bits &&& many.bits = few.bits) :
    few.IsSubset many := by
  intro flag present
  simp only [has, bne_iff_ne] at present ⊢
  intro absent
  apply present
  rw [← within, UInt32.and_assoc, absent, UInt32.and_zero]

/-- What a run under few flags needs in order to follow a run under many. -/
structure Follows (few many : Flags) : Prop where
  subset : few.IsSubset many
  lockTime : few.has .discourageNops = true → few.AgreeOn many .checkLockTime
  sequence : few.has .discourageNops = true → few.AgreeOn many .checkSequence

instance (left right : Flags) (flag : Flag) : Decidable (left.AgreeOn right flag) :=
  inferInstanceAs (Decidable (_ = _))

theorem IsSubset.not_has {few many : Flags} (subset : few.IsSubset many) (flag : Flag)
    (off : (!many.has flag) = true) : (!few.has flag) = true := by
  cases known : few.has flag with
  | false => rfl
  | true => rwa [subset flag known] at off

/-- A guard that a flag switches on is met under few flags if it is under many. -/
theorem IsSubset.guard {few many : Flags} (subset : few.IsSubset many) (flag : Flag)
    {met : Bool} (strict : (!many.has flag || met) = true) :
    (!few.has flag || met) = true := by
  cases known : few.has flag with
  | false => rfl
  | true => rwa [subset flag known] at strict

end Flags

theorem Signature.checkEncoding_eq_ok_iff (signature : Bytes) (flags : Flags) :
    checkEncoding signature flags = .ok () ↔
      signature = [] ∨
        ((flags.has .strictDer = true ∨ flags.has .lowS = true ∨
            flags.has .strictEncoding = true → isStrict signature = true) ∧
          (flags.has .lowS = true → isLow signature = true) ∧
          (flags.has .strictEncoding = true → hasKnownHashType signature = true)) := by
  unfold checkEncoding
  by_cases empty : signature = []
  · simp [empty]
  · cases flags.has .strictDer <;> cases flags.has .lowS <;>
      cases flags.has .strictEncoding <;> cases isStrict signature <;>
      cases isLow signature <;> cases hasKnownHashType signature <;> simp [empty]

theorem PublicKey.checkEncoding_eq_ok_iff (key : Bytes) (flags : Flags)
    (version : SignatureVersion) :
    checkEncoding key flags version = .ok () ↔
      (flags.has .strictEncoding = true → isCompressed key = true ∨ isPlain key = true) ∧
        (flags.has .compressedKeys = true → version = .witnessV0 →
          isCompressed key = true) := by
  unfold checkEncoding
  cases version <;> cases flags.has .strictEncoding <;> cases flags.has .compressedKeys <;>
    cases isCompressed key <;> cases isPlain key <;> simp

section Encodings

variable {few many : Flags} (subset : few.IsSubset many)

include subset

theorem Signature.checkEncoding_relaxes (signature : Bytes) :
    Relaxes (checkEncoding signature few) (checkEncoding signature many) := by
  rintro ⟨⟩ accepted
  rw [checkEncoding_eq_ok_iff] at accepted ⊢
  rcases accepted with empty | ⟨strict, low, known⟩
  · exact Or.inl empty
  · refine Or.inr ⟨?_, fun needed => low (subset _ needed), fun needed => known (subset _ needed)⟩
    rintro (needed | needed | needed)
    · exact strict (Or.inl (subset _ needed))
    · exact strict (Or.inr (Or.inl (subset _ needed)))
    · exact strict (Or.inr (Or.inr (subset _ needed)))

theorem PublicKey.checkEncoding_relaxes (key : Bytes) (version : SignatureVersion) :
    Relaxes (checkEncoding key few version) (checkEncoding key many version) := by
  rintro ⟨⟩ accepted
  rw [checkEncoding_eq_ok_iff] at accepted ⊢
  exact ⟨fun needed => accepted.1 (subset _ needed), fun needed => accepted.2 (subset _ needed)⟩

end Encodings

/-! ## One evaluation -/

def Context.withFlags (context : Context) (flags : Flags) : Context :=
  { context with flags := flags }

namespace Context

section Evaluation

variable {few many : Flags} (follows : few.Follows many) (context : Context)

include follows

theorem requireMinimal_of_follows :
    (context.withFlags few).requireMinimal = true →
      (context.withFlags many).requireMinimal = true :=
  follows.subset .minimalData

theorem checkPair_relaxes (code : Script) (signature key : Bytes) :
    Outcome.Relaxes ((context.withFlags few).checkPair code signature key)
      ((context.withFlags many).checkPair code signature key) :=
  .bind (.ofExcept (Signature.checkEncoding_relaxes follows.subset signature)) fun _ =>
    .bind (.ofExcept (PublicKey.checkEncoding_relaxes follows.subset key context.version))
      fun _ => .refl _

theorem checkSignature_relaxes (thenVerify : Bool) (state : State) :
    Outcome.Relaxes ((context.withFlags few).checkSignature thenVerify state)
      ((context.withFlags many).checkSignature thenVerify state) := by
  unfold checkSignature
  match state.stack with
  | [] => exact .refl _
  | [_] => exact .refl _
  | key :: signature :: rest =>
      refine .bind (checkPair_relaxes follows context _ signature key) fun accepted => ?_
      refine .bind (.require ?_ _) fun _ => .refl _
      intro met
      cases accepted with
      | true => rfl
      | false => exact follows.subset.guard .nullFail met

theorem matchSignatures_relaxes (code : Script) (signatures keys : List Bytes) :
    Outcome.Relaxes ((context.withFlags few).matchSignatures code signatures keys)
      ((context.withFlags many).matchSignatures code signatures keys) := by
  induction keys generalizing signatures with
  | nil => cases signatures <;> exact .refl _
  | cons key keys ih =>
      cases signatures with
      | nil => exact .refl _
      | cons signature signatures =>
          refine .bind (checkPair_relaxes follows context code signature key) fun accepted => ?_
          exact .ite (.refl _) (ih _)

theorem multisigOperands_relaxes (state : State) :
    Relaxes ((context.withFlags few).multisigOperands state)
      ((context.withFlags many).multisigOperands state) :=
  .bind (MultisigOperands.readCount_relaxes (requireMinimal_of_follows follows context) _ _ _)
    fun _ => .bind (.refl _) fun _ =>
      .bind (MultisigOperands.readCount_relaxes (requireMinimal_of_follows follows context)
        _ _ _) fun _ => .refl _

theorem checkMultisig_relaxes (thenVerify : Bool) (state : State) :
    Outcome.Relaxes ((context.withFlags few).checkMultisig thenVerify state)
      ((context.withFlags many).checkMultisig thenVerify state) := by
  refine .bind (.ofExcept (multisigOperands_relaxes follows context state)) ?_
  rintro ⟨operands, counted⟩
  refine .bind (matchSignatures_relaxes follows context _ _ _) fun accepted => ?_
  refine .bind (.require ?_ _) fun _ => .bind (.require ?_ _) fun _ => .refl _
  · intro met
    cases accepted with
    | true => rfl
    | false => exact follows.subset.guard .nullFail met
  · exact follows.subset.guard .nullDummy

theorem reservedNop_relaxes (state : State) :
    Outcome.Relaxes ((context.withFlags few).reservedNop state)
      ((context.withFlags many).reservedNop state) :=
  .bind (.require (follows.subset.not_has .discourageNops) _) fun _ => .refl _

/-- An operation that gets its meaning from a flag and leaves the state as it is may
be skipped under few flags, unless skipping it is refused. -/
theorem named_or_reserved_relaxes {flag : Flag}
    (agree : few.has .discourageNops = true → few.AgreeOn many flag)
    {loose strict : Outcome State} {state : State} (relaxed : loose.Relaxes strict)
    (kept : ∀ next, strict.result = .ok next → next = state) :
    Outcome.Relaxes
      (if few.has flag then loose else (context.withFlags few).reservedNop state)
      (if many.has flag then strict else (context.withFlags many).reservedNop state) := by
  cases knownFew : few.has flag with
  | true => rw [follows.subset flag knownFew]; exact relaxed
  | false =>
      cases knownMany : many.has flag with
      | false => exact reservedNop_relaxes follows context state
      | true =>
          intro next succeeded
          rw [kept next succeeded]
          have allowed : (!few.has .discourageNops) = true := by
            cases discouraged : few.has .discourageNops with
            | false => rfl
            | true =>
                have same : few.has flag = many.has flag := agree discouraged
                rw [knownFew, knownMany] at same
                cases same
          exact Outcome.result_bind_eq_ok_iff.mpr
            ⟨(), Outcome.result_require_eq_ok_iff.mpr allowed, rfl⟩

theorem lockTimeOperand_relaxes (state : State) :
    Relaxes ((context.withFlags few).lockTimeOperand state)
      ((context.withFlags many).lockTimeOperand state) := by
  unfold lockTimeOperand
  match state.stack with
  | [] => exact .refl _
  | top :: rest =>
      exact .bind
        (Stack.number_relaxes (requireMinimal_of_follows follows context) _ top)
        fun _ => .refl _

theorem checkLockTime_relaxes (state : State) :
    Outcome.Relaxes ((context.withFlags few).checkLockTime state)
      ((context.withFlags many).checkLockTime state) := by
  refine named_or_reserved_relaxes follows context follows.lockTime ?_ ?_
  · exact .bind (.ofExcept (lockTimeOperand_relaxes follows context state)) fun _ => .refl _
  · intro next succeeded
    obtain ⟨operand, -, succeeded⟩ := Outcome.result_bind_eq_ok_iff.mp succeeded
    obtain ⟨passed, -, succeeded⟩ := Outcome.result_bind_eq_ok_iff.mp succeeded
    obtain ⟨-, -, succeeded⟩ := Outcome.result_bind_eq_ok_iff.mp succeeded
    cases succeeded
    rfl

theorem checkSequence_relaxes (state : State) :
    Outcome.Relaxes ((context.withFlags few).checkSequence state)
      ((context.withFlags many).checkSequence state) := by
  refine named_or_reserved_relaxes follows context follows.sequence ?_ ?_
  · exact .bind (.ofExcept (lockTimeOperand_relaxes follows context state)) fun _ => .refl _
  · intro next succeeded
    obtain ⟨operand, -, succeeded⟩ := Outcome.result_bind_eq_ok_iff.mp succeeded
    split at succeeded
    · cases succeeded
      rfl
    · obtain ⟨passed, -, succeeded⟩ := Outcome.result_bind_eq_ok_iff.mp succeeded
      obtain ⟨-, -, succeeded⟩ := Outcome.result_bind_eq_ok_iff.mp succeeded
      cases succeeded
      rfl

theorem openBranch_relaxes (negated : Bool) (state : State) :
    Relaxes ((context.withFlags few).openBranch negated state)
      ((context.withFlags many).openBranch negated state) := by
  unfold openBranch
  split
  · match state.stack with
    | [] => exact .refl _
    | top :: rest =>
        refine .guarded ?_ _ _
        intro refused
        simp only [Bool.and_eq_true] at refused ⊢
        exact ⟨⟨refused.1.1, follows.subset _ refused.1.2⟩, refused.2⟩
  · exact .refl _

/-- Every operation that succeeds under many flags has the same effect under few. -/
theorem operate_relaxes (index : Nat) (operation : Operation) (state : State) :
    Outcome.Relaxes ((context.withFlags few).operate index operation state)
      ((context.withFlags many).operate index operation state) := by
  have weaker := requireMinimal_of_follows follows context
  cases operation with
  | reservedNop => exact reservedNop_relaxes follows context state
  | checkLockTime => exact checkLockTime_relaxes follows context state
  | checkSequence => exact checkSequence_relaxes follows context state
  | openBranch negated => exact .ofExcept (openBranch_relaxes follows context negated state)
  | stack change => exact .ofExcept (.map _ (Stack.apply_relaxes weaker change _))
  | unary change => exact .ofExcept (.map _ (Stack.applyUnary_relaxes weaker change _))
  | binary change => exact .ofExcept (.map _ (Stack.applyBinary_relaxes weaker change _))
  | numEqualVerify => exact .ofExcept (.map _ (Stack.applyNumEqualVerify_relaxes weaker _))
  | within => exact .ofExcept (.map _ (Stack.applyWithin_relaxes weaker _))
  | checkSignature thenVerify => exact checkSignature_relaxes follows context thenVerify state
  | checkMultisig thenVerify => exact checkMultisig_relaxes follows context thenVerify state
  | number | nop | flipBranch | closeBranch | verify | fail | toAlt | fromAlt | equal | hash
  | codeSeparator | bad => exact .refl _

theorem carryOut_relaxes (index : Nat) (instruction : Instruction) (state : State) :
    Outcome.Relaxes ((context.withFlags few).carryOut index instruction state)
      ((context.withFlags many).carryOut index instruction state) := by
  cases instruction with
  | push form data =>
      refine .ite (.guarded ?_ _ _) (.refl _)
      intro refused
      simp only [Bool.and_eq_true] at refused ⊢
      exact ⟨requireMinimal_of_follows follows context refused.1, refused.2⟩
  | op opcode => exact .ite (operate_relaxes follows context index _ state) (.refl _)

theorem step_relaxes (index : Nat) (instruction : Instruction) (state : State) :
    Outcome.Relaxes ((context.withFlags few).step index instruction state)
      ((context.withFlags many).step index instruction state) :=
  .bind (.refl _) fun checked =>
    .bind (carryOut_relaxes follows context index instruction checked) fun _ => .refl _

theorem steps_relaxes (index : Nat) (instructions : List Instruction) (state : State) :
    Outcome.Relaxes ((context.withFlags few).steps index instructions state)
      ((context.withFlags many).steps index instructions state) := by
  induction instructions generalizing index state with
  | nil => exact .refl _
  | cons instruction rest ih =>
      exact .bind (step_relaxes follows context index instruction state) fun next =>
        ih (index + 1) next

theorem evaluate_relaxes (stack : Stack) :
    Outcome.Relaxes ((context.withFlags few).evaluate stack)
      ((context.withFlags many).evaluate stack) :=
  .bind (.refl _) fun _ =>
    .bind (steps_relaxes follows context 0 _ (.ofStack stack)) fun _ => .refl _

end Evaluation

end Context

/-! ## Whole spends -/

theorem WitnessProgram.verify_relaxes {few many : Flags} (follows : few.Follows many)
    (program : WitnessProgram) (witness : Witness) (checker : Checker) :
    Outcome.Relaxes (program.verify witness few checker)
      (program.verify witness many checker) := by
  refine .ite ?_ (.require (follows.subset.not_has .discourageWitnessVersions) _)
  refine .bind (.refl _) ?_
  rintro ⟨stack, script⟩
  exact .bind (.refl _) fun _ =>
    .bind (Context.evaluate_relaxes follows ⟨script, few, checker, .witnessV0⟩ stack) fun _ =>
      .refl _

namespace Spend

def withFlags (spend : Spend) (flags : Flags) : Spend :=
  { spend with flags := flags }

/-- Where both sets agree on witnesses, they follow the same witness programs. -/
theorem followed_of_agree {few many : Flags} (spend : Spend) {script expected : Script}
    {error : ScriptError} {followed : Bool} (agree : few.AgreeOn many .witness)
    (found : ((spend.withFlags many).followWitness script expected error).result =
      .ok followed) :
    (few.has .witness && followed) = followed := by
  cases followed with
  | false => exact Bool.and_false _
  | true =>
      have known : many.has .witness = true := witness_of_followed found
      rw [agree, known]
      rfl

section Dispatch

variable {few many : Flags} (follows : few.Follows many) (spend : Spend)

include follows

theorem evaluateBase_relaxes (script : Script) (stack : Stack) :
    Outcome.Relaxes ((spend.withFlags few).evaluateBase script stack)
      ((spend.withFlags many).evaluateBase script stack) :=
  Context.evaluate_relaxes follows ⟨script, few, spend.checker, .base⟩ stack

theorem followWitness_of_many {script expected : Script} {error : ScriptError}
    {followed : Bool}
    (found : ((spend.withFlags many).followWitness script expected error).result =
      .ok followed) :
    ((spend.withFlags few).followWitness script expected error).result =
      .ok (few.has .witness && followed) := by
  cases known : few.has .witness with
  | false => rw [followWitness_of_off (spend.withFlags few) known]; rfl
  | true =>
      cases recognized : script.witnessProgram? with
      | none =>
          rw [followWitness_of_none (spend.withFlags many) recognized] at found
          rw [followWitness_of_none (spend.withFlags few) recognized]
          cases found
          rfl
      | some program =>
          have knownMany : (spend.withFlags many).flags.has .witness = true :=
            follows.subset .witness known
          rw [followWitness_of_some (spend.withFlags many) knownMany recognized] at found
          rw [followWitness_of_some (spend.withFlags few) known recognized]
          obtain ⟨same, found⟩ := Outcome.result_require_bind_eq_ok_iff.mp found
          obtain ⟨_, verified, found⟩ := Outcome.result_bind_eq_ok_iff.mp found
          cases found
          refine Outcome.result_require_bind_eq_ok_iff.mpr ⟨same, ?_⟩
          refine Outcome.result_bind_eq_ok_iff.mpr ⟨(), ?_, rfl⟩
          exact program.verify_relaxes follows spend.witness spend.checker () verified

theorem followRedeem_of_many {saved stack : Stack} {nested : Bool}
    (found : ((spend.withFlags many).followRedeem saved).result = .ok (stack, nested)) :
    ∃ left, ((spend.withFlags few).followRedeem saved).result =
        .ok (left, few.has .witness && nested) ∧
      (few.AgreeOn many .witness → left = stack) := by
  obtain ⟨pushes, found⟩ := Outcome.result_require_bind_eq_ok_iff.mp found
  cases saved with
  | nil => cases found
  | cons top below =>
      obtain ⟨final, evaluated, found⟩ := Outcome.result_bind_eq_ok_iff.mp found
      obtain ⟨isTrue, found⟩ := Outcome.result_require_bind_eq_ok_iff.mp found
      obtain ⟨followed, witnessed, found⟩ := Outcome.result_bind_eq_ok_iff.mp found
      cases found
      refine ⟨settle (few.has .witness && nested) final, ?_, ?_⟩
      · refine Outcome.result_require_bind_eq_ok_iff.mpr ⟨pushes, ?_⟩
        refine Outcome.result_bind_eq_ok_iff.mpr
          ⟨final, evaluateBase_relaxes follows spend _ below final evaluated, ?_⟩
        refine Outcome.result_require_bind_eq_ok_iff.mpr ⟨isTrue, ?_⟩
        exact Outcome.result_bind_eq_ok_iff.mpr
          ⟨_, followWitness_of_many follows spend witnessed, rfl⟩
      · intro agree
        rw [followed_of_agree spend agree witnessed]

/-- Few flags leave the same stack, unless they differ in which scripts are looked
at. -/
theorem settled_of_many {unlocked opened stack : Stack} {native nested : Bool}
    (witnessed : ((spend.withFlags many).followWitness spend.locking .empty
      .witnessMalleated).result = .ok native)
    (found : ((spend.withFlags many).settled unlocked opened native).result =
      .ok (stack, nested)) :
    ∃ left inner, ((spend.withFlags few).settled unlocked opened
        (few.has .witness && native)).result = .ok (left, inner) ∧
      (few.AgreeOn many .p2sh → inner = (few.has .witness && nested)) ∧
      (few.AgreeOn many .p2sh → few.AgreeOn many .witness → left = stack) := by
  cases looked : few.has .p2sh && spend.locking.isPayToScriptHash with
  | true =>
      have lookedMany : (many.has .p2sh && spend.locking.isPayToScriptHash) = true := by
        rw [Bool.and_eq_true] at looked ⊢
        exact ⟨follows.subset .p2sh looked.1, looked.2⟩
      rw [settled_of_nested (spend.withFlags many) lookedMany] at found
      obtain ⟨left, redeemed, same⟩ := followRedeem_of_many follows spend found
      refine ⟨left, _, ?_, fun _ => rfl, fun _ agree => same agree⟩
      rw [settled_of_nested (spend.withFlags few) looked]
      exact redeemed
  | false =>
      have plain (agree : few.AgreeOn many .p2sh) :
          stack = settle native opened ∧ nested = false := by
        have lookedMany : (many.has .p2sh && spend.locking.isPayToScriptHash) = false :=
          agree ▸ looked
        rw [settled_of_plain (spend.withFlags many) lookedMany] at found
        cases found
        exact ⟨rfl, rfl⟩
      refine ⟨settle (few.has .witness && native) opened, false, ?_, ?_, ?_⟩
      · rw [settled_of_plain (spend.withFlags few) looked]
        rfl
      · intro agree
        rw [(plain agree).2, Bool.and_false]
      · intro agree sameWitness
        rw [(plain agree).1, followed_of_agree spend sameWitness witnessed]

/-- A spend that succeeds under many flags succeeds under few, if a clean stack is
asked for only where the same scripts are looked at, and witnesses only where the same
scripts are nested. -/
theorem verify_of_many
    (clean : few.has .cleanStack = true →
      few.AgreeOn many .p2sh ∧ few.AgreeOn many .witness)
    (nesting : few.has .witness = true → few.AgreeOn many .p2sh)
    (accepted : (spend.withFlags many).verify.result = .ok ()) :
    (spend.withFlags few).verify.result = .ok () := by
  obtain ⟨pushes, unlocked, unlocks, opened, opens, top, native, witnessed, stack, nested,
    settles, cleaned, expected⟩ := (verify_eq_ok_iff _).mp accepted
  obtain ⟨left, inner, leaves, sameInner, sameStack⟩ :=
    settled_of_many follows spend witnessed settles
  refine (verify_eq_ok_iff _).mpr
    ⟨follows.subset.guard .pushOnly pushes,
      unlocked, evaluateBase_relaxes follows spend _ _ unlocked unlocks,
      opened, evaluateBase_relaxes follows spend _ _ opened opens, top,
      few.has .witness && native, followWitness_of_many follows spend witnessed,
      left, inner, leaves, ?_, ?_⟩
  · cases asked : few.has .cleanStack with
    | false => exact Bool.or_eq_true_iff.mpr (.inl (congrArg not asked))
    | true =>
        obtain ⟨agreeNested, agreeWitness⟩ := clean asked
        rw [sameStack agreeNested agreeWitness]
        exact follows.subset.guard .cleanStack cleaned
  · cases known : few.has .witness with
    | false => rw [show (spend.withFlags few).flags.has .witness = false from known]; rfl
    | true =>
        have knownMany : (spend.withFlags many).flags.has .witness = true :=
          follows.subset .witness known
        rw [sameInner (nesting known), known]
        rw [knownMany] at expected
        rw [show (spend.withFlags few).flags.has .witness = true from known]
        exact expected

end Dispatch

end Spend

/-! ## Soft forks -/

/-- Taking flags away never makes a success a failure.  A script that runs to its end
leaves the same stack, and a spend stays valid. -/
theorem success_survives_fewer_flags (few many : Flags) (subset : few.IsSubset many)
    (lockTimes : few.has .discourageNops = true →
      few.AgreeOn many .checkLockTime ∧ few.AgreeOn many .checkSequence) :
    (∀ script checker version stack final,
      (Context.evaluate ⟨script, many, checker, version⟩ stack).result = .ok final →
        (Context.evaluate ⟨script, few, checker, version⟩ stack).result = .ok final) ∧
    ((few.has .cleanStack = true → few.AgreeOn many .p2sh ∧ few.AgreeOn many .witness) →
      (few.has .witness = true → few.AgreeOn many .p2sh) →
      ∀ unlocking locking witness checker,
        (Spend.verify ⟨unlocking, locking, witness, many, checker⟩).result = .ok () →
          (Spend.verify ⟨unlocking, locking, witness, few, checker⟩).result = .ok ()) := by
  have follows : few.Follows many :=
    ⟨subset, fun asked => (lockTimes asked).1, fun asked => (lockTimes asked).2⟩
  constructor
  · intro script checker version stack final
    exact Context.evaluate_relaxes follows ⟨script, few, checker, version⟩ stack final
  · intro clean nesting unlocking locking witness checker
    exact Spend.verify_of_many follows ⟨unlocking, locking, witness, few, checker⟩ clean nesting

/-- Six of fifteen flags: a lock time of one still passes, and so does a witness program of
version one. -/
theorem success_survives_six_of_fifteen_flags :
    let few := Flags.ofList
      [.p2sh, .discourageNops, .cleanStack, .checkLockTime, .checkSequence, .witness]
    let many := Flags.ofList (Flag.all.filter (· ≠ .discourageWitnessVersions))
    let checker : Checker := { Checker.refuse with lockTime := fun operand => operand ≤ 5 }
    few.IsSubset many ∧
      (few.has .discourageNops = true →
        few.AgreeOn many .checkLockTime ∧ few.AgreeOn many .checkSequence) ∧
      (few.has .cleanStack = true → few.AgreeOn many .p2sh ∧ few.AgreeOn many .witness) ∧
      (few.has .witness = true → few.AgreeOn many .p2sh) ∧
      (Context.evaluate ⟨⟨[0x51, 0xb1]⟩, few, checker, .witnessV0⟩ []).result = .ok [[1]] ∧
      (Spend.verify ⟨.empty, ⟨[0x51, 2, 7, 7]⟩, [[1]], few, checker⟩).result = .ok () := by
  intro few many checker
  have subset : few.IsSubset many := .of_bits (by decide)
  have lockTimes : few.has .discourageNops = true →
      few.AgreeOn many .checkLockTime ∧ few.AgreeOn many .checkSequence :=
    fun _ => ⟨by decide, by decide⟩
  have clean : few.has .cleanStack = true →
      few.AgreeOn many .p2sh ∧ few.AgreeOn many .witness :=
    fun _ => ⟨by decide, by decide⟩
  have nesting : few.has .witness = true → few.AgreeOn many .p2sh := fun _ => by decide
  obtain ⟨evaluations, spends⟩ := success_survives_fewer_flags few many subset lockTimes
  refine ⟨subset, lockTimes, clean, nesting, evaluations _ _ _ _ _ ?_,
    spends clean nesting _ _ _ _ ?_⟩
  · decide +kernel
  · decide +kernel

end CoinSpend
