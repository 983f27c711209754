import CoinSpend.Proofs.OrderedMatching
import CoinSpend.Proofs.ResourceLimits
import CoinSpend.Proofs.ScriptCuts
import CoinSpend.Sum

/-!
# The code that signatures commit to

A code separator that is executed is remembered by the number of instructions up to it.  For
a check the bytes after these are found again, the signatures are deleted one after the other,
and the separators are left out last.  As all cuts are made where instructions begin, it is as
if every instruction had been looked at once.
-/

namespace CoinSpend

namespace Instruction

theorem suffixAfter?_eq {count : Nat} {bytes : Bytes} (inside : count < (decode bytes).1.length) :
    suffixAfter? count bytes =
      some (bytes.drop (sumOf size ((decode bytes).1.take count))) := by
  induction count generalizing bytes with
  | zero =>
      cases found : read? bytes with
      | none =>
          rw [decode_eq_of_read?_none found] at inside
          cases inside
      | some split =>
          unfold suffixAfter?
          rw [found]
          rfl
  | succ count ih =>
      cases found : read? bytes with
      | none =>
          rw [decode_eq_of_read?_none found] at inside
          cases inside
      | some split =>
          obtain ⟨instruction, rest⟩ := split
          have bytes_eq := encode_of_read? found
          rw [decode_eq_of_read?_some found] at inside ⊢
          unfold suffixAfter?
          rw [found]
          dsimp only at inside ⊢
          rw [ih (Nat.lt_of_succ_lt_succ inside), List.take_succ_cons, sumOf_cons, ← List.drop_drop,
            ← bytes_eq, ← length_encode, List.drop_left]

theorem getElem?_place (position : Nat) (instructions : List Instruction) (index : Nat) :
    (place position instructions)[index]? = instructions[index]?.map fun instruction =>
      (position + sumOf size (instructions.take index), instruction) := by
  induction instructions generalizing position index with
  | nil => rfl
  | cons instruction rest ih =>
      cases index with
      | zero => rfl
      | succ index =>
          rw [place, List.getElem?_cons_succ, ih, List.getElem?_cons_succ, List.take_succ_cons,
            sumOf_cons, Nat.add_assoc]

end Instruction

namespace Script

variable {script : Script}

def position (script : Script) (count : Nat) : Nat :=
  sumOf Instruction.size (script.instructions.take count)

theorem getElem?_placed (script : Script) (index : Nat) :
    script.placed[index]? =
      script.instructions[index]?.map fun instruction => (script.position index, instruction) := by
  rw [placed, Instruction.getElem?_place]
  simp only [Nat.zero_add, position]

theorem position_succ {index : Nat} {instruction : Instruction}
    (found : script.instructions[index]? = some instruction) :
    script.position (index + 1) = script.position index + instruction.size := by
  rw [position, List.take_add_one, found, Option.toList_some, sumOf_append]
  rfl

theorem fromInstruction_eq {count : Nat} (inside : count < script.instructions.length) :
    script.fromInstruction count = ⟨script.bytes.drop (script.position count)⟩ := by
  cases count with
  | zero => rfl
  | succ count =>
      rw [fromInstruction, if_neg (Nat.succ_ne_zero count), Instruction.suffixAfter?_eq inside]
      rfl

/-! ## Deleting signatures -/

theorem length_delete_le (script : Script) {pattern : Script} (nonempty : pattern.isEmpty = false) :
    (script.delete pattern).1.length ≤ script.length := by
  have length : (script.delete pattern).1.length + _ = script.length :=
    (deletes script nonempty).length
  omega

theorem length_encode_le {instruction : Instruction} (member : instruction ∈ script.instructions) :
    instruction.encode.length ≤ script.length := by
  obtain ⟨before, after, split⟩ := List.append_of_mem member
  have bytes := congrArg List.length script.flatMap_encode_instructions
  rw [split, List.flatMap_append, List.flatMap_cons] at bytes
  simp only [List.length_append] at bytes
  rw [length]
  omega

theorem bytes_appendData (signature : Bytes) :
    (empty.appendData signature).bytes = (pushOf signature).encode :=
  rfl

theorem isEmpty_appendData (signature : Bytes) : (empty.appendData signature).isEmpty = false :=
  rfl

/-- The push of a signature is deleted by keeping the other instructions.  If the signature is
too long for a push, there is nothing to delete. -/
theorem delete_appendData (short : script.length ≤ PushForm.fourBytes.maxLength)
    (signature : Bytes) :
    (script.delete (empty.appendData signature)).1 =
      script.keep fun instruction => instruction.encode ≠ (empty.appendData signature).bytes := by
  by_cases fits : signature.length ≤ PushForm.fourBytes.maxLength
  · have single : isSingle (empty.appendData signature) = true :=
      isSingle_encode (wellFormed_pushOf fits)
    rw [delete_of_isSingle single]
  · have longer : script.length < (empty.appendData signature).bytes.length := by
      rw [bytes_appendData, Instruction.length_encode]
      change script.length < 1 + _ + signature.length
      omega
    rw [keep_of_all fun instruction member => decide_eq_true ?_]
    · exact congrArg Script.mk
        ((deletes script (isEmpty_appendData signature)).eq_of_longer longer)
    · intro same
      have within := length_encode_le member
      rw [same] at within
      omega

theorem foldl_delete_appendData (short : script.length ≤ PushForm.fourBytes.maxLength)
    (signatures : List Bytes) :
    signatures.foldl (fun code signature => (code.delete (empty.appendData signature)).1) script =
      script.keep fun instruction => ∀ signature ∈ signatures,
        instruction.encode ≠ (empty.appendData signature).bytes := by
  induction signatures generalizing script with
  | nil => exact (keep_of_all fun instruction _ => decide_eq_true nofun).symm
  | cons signature signatures ih =>
      have shorter := Nat.le_trans (script.length_delete_le (isEmpty_appendData signature)) short
      rw [List.foldl_cons, ih shorter, delete_appendData short, keep_keep]
      refine keep_congr fun instruction _ => ?_
      rw [← Bool.decide_and, decide_eq_decide, List.forall_mem_cons]

/-- The script that signatures commit to, of the code that follows a separator: in a witness
all of it; else the instructions that neither separate nor push one of the signatures, and what
cannot be decoded. -/
def committed (version : SignatureVersion) (code : Bytes) (signatures : List Bytes) : Script :=
  match version with
  | .witnessV0 => ⟨code⟩
  | .base => keep ⟨code⟩ fun instruction => instruction.opcode ≠ .codeSeparator ∧
      ∀ signature ∈ signatures, instruction.encode ≠ (empty.appendData signature).bytes

/-- It does not matter in which order the signatures stand, and how often. -/
theorem committed_congr {signatures others : List Bytes}
    (alike : ∀ signature, signature ∈ others ↔ signature ∈ signatures)
    (version : SignatureVersion) (code : Bytes) :
    committed version code others = committed version code signatures := by
  cases version with
  | witnessV0 => rfl
  | base =>
      refine keep_congr fun instruction _ => ?_
      simp only [alike]

end Script

/-! ## The last executed separator -/

theorem Operation.of_ofOpcode_eq_codeSeparator {opcode : Opcode}
    (means : ofOpcode opcode = .codeSeparator) : opcode = .codeSeparator := by
  obtain ⟨byte⟩ := opcode
  unfold ofOpcode at means
  split_ifs at means
  unfold ofByte at means
  split at means <;> cases means
  exact congrArg Opcode.mk (by assumption)

namespace Context

open Outcome

variable {context : Context} {index : Nat} {state next : State}

theorem codeStart_of_onStack {change : Stack → Except ScriptError Stack}
    (changed : (onStack state change).result = .ok next) : next.codeStart = state.codeStart := by
  obtain ⟨stack, -, rfl⟩ := of_onStack_eq_ok changed
  rfl

theorem codeStart_of_operate {operation : Operation} (other : operation ≠ .codeSeparator)
    (operated : (context.operate index operation state).result = .ok next) :
    next.codeStart = state.codeStart := by
  cases operation with
  | codeSeparator => exact absurd rfl other
  | openBranch negated =>
      obtain ⟨taken, stack, -, rfl⟩ := of_openBranch_eq_ok operated
      rfl
  | flipBranch =>
      obtain ⟨taken, outer, -, rfl⟩ := of_flipBranch_eq_ok operated
      rfl
  | closeBranch =>
      obtain ⟨taken, outer, -, rfl⟩ := of_closeBranch_eq_ok operated
      rfl
  | toAlt =>
      obtain ⟨top, rest, -, rfl⟩ := of_moveToAlt_eq_ok operated
      rfl
  | fromAlt =>
      obtain ⟨top, rest, -, rfl⟩ := of_moveFromAlt_eq_ok operated
      rfl
  | checkSignature thenVerify =>
      obtain ⟨-, -, -, -, stack, -, -, rfl⟩ := of_checkSignature_eq_ok operated
      rfl
  | checkMultisig thenVerify =>
      obtain ⟨operands, counted, -, stack, read, -, rfl⟩ := of_checkMultisig_eq_ok operated
      obtain ⟨-, counts⟩ := laidOut_of_multisigOperands read
      obtain ⟨-, rfl⟩ := State.countOperations_eq_ok_iff.mp counts
      rfl
  | reservedNop => rw [eq_of_reservedNop operated]
  | checkLockTime => rw [eq_of_checkLockTime operated]
  | checkSequence => rw [eq_of_checkSequence operated]
  | number value => cases operated; rfl
  | nop => cases operated; rfl
  | fail => cases operated
  | bad => cases operated
  | verify => exact codeStart_of_onStack operated
  | numEqualVerify => exact codeStart_of_onStack operated
  | within => exact codeStart_of_onStack operated
  | stack change => exact codeStart_of_onStack operated
  | equal thenVerify => exact codeStart_of_onStack operated
  | unary change => exact codeStart_of_onStack operated
  | binary change => exact codeStart_of_onStack operated
  | hash change => exact codeStart_of_onStack operated

theorem codeStart_of_carryOut {instruction : Instruction} (wellFormed : instruction.WellFormed)
    (carries : (context.carryOut index instruction state).result = .ok next) :
    next.codeStart =
      if instruction.opcode = .codeSeparator ∧ state.executing = true then index + 1
      else state.codeStart := by
  by_cases separates : instruction.opcode = .codeSeparator
  · obtain rfl := Instruction.eq_of_opcode_eq_codeSeparator wellFormed separates
    rw [carryOut] at carries
    cases executing : state.executing with
    | true =>
        rw [if_pos ⟨separates, rfl⟩]
        rw [executing] at carries
        cases carries
        rfl
    | false =>
        rw [if_neg fun both => Bool.false_ne_true both.2]
        rw [executing] at carries
        cases carries
        rfl
  · rw [if_neg fun both => separates both.1]
    cases instruction with
    | push form data =>
        rw [carryOut] at carries
        split at carries
        · split at carries
          · cases carries
          · cases carries
            rfl
        · cases carries
          rfl
    | op opcode =>
        rw [carryOut] at carries
        split at carries
        · refine codeStart_of_operate (fun means => separates ?_) carries
          exact Operation.of_ofOpcode_eq_codeSeparator means
        · cases carries
          rfl

theorem codeStart_of_step {instruction : Instruction} (wellFormed : instruction.WellFormed)
    (stepped : (context.step index instruction state).result = .ok next) :
    next.codeStart =
      if instruction.opcode = .codeSeparator ∧ state.executing = true then index + 1
      else state.codeStart := by
  obtain ⟨checked, passed, carries, -⟩ := step_eq_ok_iff.mp stepped
  obtain ⟨-, rfl, -⟩ := of_checkLimits_eq_ok passed
  have moved := codeStart_of_carryOut wellFormed carries
  exact moved

variable {stack : Stack}

/-- The bytes of the script from right after the last separator that was executed before an
instruction on.  They are the whole script if none was. -/
def codeBefore (context : Context) (stack : Stack) : Nat → Bytes
  | 0 => context.script.bytes
  | index + 1 =>
      match context.script.placed[index]?, (context.stateAfter stack index).result with
      | some (position, instruction), .ok state =>
          if instruction.opcode = .codeSeparator ∧ state.executing = true then
            context.script.bytes.drop (position + 1)
          else
            context.codeBefore stack index
      | _, _ => context.codeBefore stack index

/-- The count of instructions that is remembered stands for these bytes. -/
theorem codeBefore_of_stateAfter (inside : index ≤ context.script.instructions.length)
    (reached : (context.stateAfter stack index).result = .ok state) :
    state.codeStart ≤ index ∧
      context.codeBefore stack index =
        context.script.bytes.drop (context.script.position state.codeStart) := by
  induction index generalizing state with
  | zero =>
      cases reached
      exact ⟨Nat.le_refl _, rfl⟩
  | succ index ih =>
      obtain ⟨instruction, found⟩ : ∃ instruction,
          context.script.instructions[index]? = some instruction :=
        ⟨_, List.getElem?_eq_getElem inside⟩
      have wellFormed := Script.wellFormed_of_mem_instructions (List.mem_of_getElem? found)
      rw [stateAfter_succ context found] at reached
      obtain ⟨before, reachedBefore, stepped⟩ := result_bind_eq_ok_iff.mp reached
      obtain ⟨earlier, code⟩ := ih (Nat.le_of_lt inside) reachedBefore
      rw [codeBefore, context.script.getElem?_placed, found, reachedBefore,
        codeStart_of_step wellFormed stepped]
      dsimp only [Option.map_some]
      split
      · rename_i separates
        obtain rfl := Instruction.eq_of_opcode_eq_codeSeparator wellFormed separates.1
        rw [Script.position_succ found]
        exact ⟨Nat.le_refl _, rfl⟩
      · exact ⟨Nat.le_succ_of_le earlier, code⟩

/-- Deleting the signatures and then the separators is one cut. -/
theorem signedScript_eq_committed {signatures : List Bytes}
    (short : (context.script.fromInstruction state.codeStart).length ≤
      PushForm.fourBytes.maxLength) :
    context.signedScript state signatures =
      Script.committed context.version (context.script.fromInstruction state.codeStart).bytes
        signatures := by
  unfold signedScript Script.committed
  cases context.version with
  | witnessV0 => rfl
  | base =>
      dsimp only
      rw [Script.foldl_delete_appendData short, Script.withoutSeparators_eq_keep,
        Script.keep_keep]
      refine Script.keep_congr fun instruction _ => ?_
      rw [← Bool.decide_and, decide_eq_decide]
      exact and_comm

end Context

/-! ## Checks and what they ask -/

theorem MultisigOperands.LaidOut.unique {operands others : MultisigOperands}
    {requireMinimal : Bool} {stack : Stack} (laid : operands.LaidOut requireMinimal stack)
    (other : others.LaidOut requireMinimal stack) : operands = others := by
  obtain ⟨⟨keyCount, signatureCount, split, isKeyCount, isSignatureCount⟩, -, -⟩ := laid
  obtain ⟨⟨otherKeyCount, otherCount, otherSplit, isOtherKeyCount, isOtherCount⟩, -, -⟩ := other
  rw [split] at otherSplit
  obtain ⟨rfl, belowKeyCount⟩ := List.cons.inj otherSplit
  rw [isKeyCount] at isOtherKeyCount
  obtain ⟨keys, belowKeys⟩ :=
    List.append_inj belowKeyCount (Int.ofNat.inj (Except.ok.inj isOtherKeyCount))
  obtain ⟨rfl, belowCounts⟩ := List.cons.inj belowKeys
  rw [isSignatureCount] at isOtherCount
  obtain ⟨signatures, belowSignatures⟩ :=
    List.append_inj belowCounts (Int.ofNat.inj (Except.ok.inj isOtherCount))
  obtain ⟨extra, rest⟩ := List.cons.inj belowSignatures
  cases operands
  cases others
  cases keys
  cases signatures
  cases extra
  cases rest
  rfl

def Question.IsAbout (question : Question) (signatures : List Bytes) (code : Script)
    (version : SignatureVersion) : Prop :=
  ∃ signature ∈ signatures, ∃ key, question = .signature signature key code version

/-- The signatures that an operation checks on a stack. -/
inductive Operation.Checks (requireMinimal : Bool) (stack : Stack) :
    Operation → List Bytes → Prop where
  | single {thenVerify : Bool} {key signature : Bytes} {rest : Stack}
      (isStack : stack = key :: signature :: rest) :
      Checks requireMinimal stack (.checkSignature thenVerify) [signature]
  | multiple {thenVerify : Bool} {operands : MultisigOperands}
      (laid : operands.LaidOut requireMinimal stack) :
      Checks requireMinimal stack (.checkMultisig thenVerify) operands.signatures

namespace Operation.Checks

variable {requireMinimal : Bool} {stack : Stack} {signatures others : List Bytes}

theorem unique {operation : Operation} (checks : Checks requireMinimal stack operation signatures)
    (other : Checks requireMinimal stack operation others) : signatures = others := by
  cases checks with
  | single isStack =>
      cases other with
      | single otherStack =>
          rw [isStack] at otherStack
          cases otherStack
          rfl
  | multiple laid =>
      cases other with
      | multiple otherLaid => rw [laid.unique otherLaid]

theorem not_isConditional {opcode : Opcode}
    (checks : Checks requireMinimal stack (.ofOpcode opcode) signatures) :
    Context.isConditional opcode = false := by
  cases means : Operation.ofOpcode opcode with
  | checkSignature thenVerify =>
      rcases of_ofOpcode_eq_checkSignature means with rfl | rfl <;> rfl
  | checkMultisig thenVerify =>
      rcases of_ofOpcode_eq_checkMultisig means with rfl | rfl <;> rfl
  | _ =>
      rw [means] at checks
      cases checks

end Operation.Checks

namespace Context

open Outcome

variable {context : Context} {index : Nat} {state : State}

theorem asked_checkSignature {thenVerify : Bool} {key signature : Bytes} {rest : Stack}
    (isStack : state.stack = key :: signature :: rest) :
    (context.checkSignature thenVerify state).asked =
      (context.checkPair (context.signedScript state [signature]) signature key).asked := by
  rw [checkSignature, isStack]
  refine asked_bind_of_silent fun accepted => asked_require_bind ?_
  exact (asked_bind_of_silent fun _ => rfl).trans rfl

theorem isAbout_of_operate {operation : Operation} {question : Question}
    (isSignature : question.isSignature = true)
    (asked : question ∈ (context.operate index operation state).asked) :
    ∃ signatures, operation.Checks context.requireMinimal state.stack signatures ∧
      question.IsAbout signatures (context.signedScript state signatures) context.version := by
  by_cases single : ∃ thenVerify, operation = .checkSignature thenVerify
  · obtain ⟨thenVerify, rfl⟩ := single
    rcases isStack : state.stack with _ | ⟨key, _ | ⟨signature, rest⟩⟩
    · rw [operate, checkSignature, isStack] at asked
      cases asked
    · rw [operate, checkSignature, isStack] at asked
      cases asked
    · rw [operate, asked_checkSignature isStack] at asked
      exact ⟨[signature], .single rfl, signature, List.mem_singleton_self _, key,
        mem_asked_checkPair asked⟩
  by_cases multiple : ∃ thenVerify, operation = .checkMultisig thenVerify
  · obtain ⟨thenVerify, rfl⟩ := multiple
    rw [operate, checkMultisig_eq] at asked
    obtain silent | ⟨⟨operands, counted⟩, read, asked⟩ := mem_asked_bind asked
    · cases silent
    · rw [asked_settleMultisig] at asked
      obtain ⟨signature, isHeld, key, -, rfl⟩ := mem_asked_matchSignatures asked
      exact ⟨operands.signatures, .multiple (laidOut_of_multisigOperands read).1, signature,
        isHeld, key, rfl⟩
  · have asks := context.operate_asksAtMost_zero index state
      (fun thenVerify same => single ⟨thenVerify, same⟩)
      (fun thenVerify same => multiple ⟨thenVerify, same⟩)
    exact absurd isSignature (asks.not_isSignature asked)

/-- A check of signatures that is executed in a run: the state before it, and what it checks. -/
structure ChecksAt (context : Context) (stack : Stack) (index : Nat) (state : State)
    (signatures : List Bytes) : Prop where
  short : context.script.length ≤ Limits.maxScriptSize
  reached : (context.stateAfter stack index).result = .ok state
  executing : state.executing = true
  found : ∃ opcode, context.script.instructions[index]? = some (.op opcode) ∧
    (Operation.ofOpcode opcode).Checks context.requireMinimal state.stack signatures

theorem isAbout_of_step {instruction : Instruction} {question : Question}
    (isSignature : question.isSignature = true)
    (asked : question ∈ (context.step index instruction state).asked) :
    state.executing = true ∧ ∃ opcode signatures, instruction = .op opcode ∧
      (Operation.ofOpcode opcode).Checks context.requireMinimal state.stack signatures ∧
      question.IsAbout signatures (context.signedScript state signatures) context.version := by
  obtain silent | ⟨checked, passed, asked⟩ := mem_asked_bind asked
  · cases silent
  · obtain ⟨-, rfl, -⟩ := of_checkLimits_eq_ok passed
    rw [asked_bind_of_silent fun _ => asked_require_bind rfl] at asked
    cases instruction with
    | push form data =>
        rw [carryOut] at asked
        split at asked
        · split at asked <;> cases asked
        · cases asked
    | op opcode =>
        rw [carryOut] at asked
        split at asked
        · rename_i carried
          obtain ⟨signatures, checks, about⟩ := isAbout_of_operate isSignature asked
          rw [checks.not_isConditional, Bool.or_false] at carried
          exact ⟨carried, opcode, signatures, rfl, checks, about⟩
        · cases asked

variable {stack : Stack}

theorem exists_step_of_mem_asked {count : Nat} {question : Question}
    (inside : count ≤ context.script.instructions.length)
    (asked : question ∈ (context.stateAfter stack count).asked) :
    ∃ index instruction state, context.script.instructions[index]? = some instruction ∧
      (context.stateAfter stack index).result = .ok state ∧
      question ∈ (context.step index instruction state).asked := by
  induction count with
  | zero => cases asked
  | succ count ih =>
      have found := List.getElem?_eq_getElem inside
      rw [stateAfter_succ context found] at asked
      obtain earlier | ⟨state, reached, now⟩ := mem_asked_bind asked
      · exact ih (Nat.le_of_lt inside) earlier
      · exact ⟨count, _, state, found, reached, now⟩

/-- Whatever an evaluation asks about signatures is asked by a check. -/
theorem exists_checksAt_of_mem_asked {question : Question}
    (isSignature : question.isSignature = true)
    (asked : question ∈ (context.evaluate stack).asked) :
    ∃ index state signatures, context.ChecksAt stack index state signatures ∧
      question.IsAbout signatures (context.signedScript state signatures) context.version := by
  rw [evaluate_eq_stateAfter] at asked
  obtain silent | ⟨_, short, asked⟩ := mem_asked_bind asked
  · rw [asked_require] at silent
    cases silent
  · rw [asked_bind_of_silent fun _ => asked_require_bind (asked_require_bind rfl)] at asked
    obtain ⟨index, instruction, state, found, reached, asked⟩ :=
      exists_step_of_mem_asked (Nat.le_refl _) asked
    obtain ⟨executing, opcode, signatures, rfl, checks, about⟩ :=
      isAbout_of_step isSignature asked
    have brief := of_decide_eq_true (result_require_eq_ok_iff.mp short)
    exact ⟨index, state, signatures, ⟨brief, reached, executing, opcode, found, checks⟩, about⟩

namespace ChecksAt

variable {signatures : List Bytes} (checks : context.ChecksAt stack index state signatures)

include checks

theorem inside : index < context.script.instructions.length := by
  obtain ⟨opcode, found, -⟩ := checks.found
  exact (List.getElem?_eq_some_iff.mp found).1

theorem codeStart_lt : state.codeStart < context.script.instructions.length := by
  have before := codeBefore_of_stateAfter (Nat.le_of_lt checks.inside) checks.reached
  exact Nat.lt_of_le_of_lt before.1 checks.inside

theorem fromInstruction_codeStart :
    context.script.fromInstruction state.codeStart = ⟨context.codeBefore stack index⟩ := by
  have before := codeBefore_of_stateAfter (Nat.le_of_lt checks.inside) checks.reached
  rw [Script.fromInstruction_eq checks.codeStart_lt, before.2]

theorem signedScript_eq (others : List Bytes) :
    context.signedScript state others =
      Script.committed context.version (context.codeBefore stack index) others := by
  have short : (context.script.fromInstruction state.codeStart).length ≤
      PushForm.fourBytes.maxLength := by
    have brief : context.script.bytes.length ≤ 10000 := checks.short
    rw [Script.fromInstruction_eq checks.codeStart_lt, Script.length, List.length_drop]
    change _ ≤ 0xffffffff
    omega
  rw [signedScript_eq_committed short, checks.fromInstruction_codeStart]

end ChecksAt

end Context

/-- The code that signatures commit to begins right after the last separator that was executed.
At every check that is executed the script is the committed part of these bytes, found in one
pass; it is the same for the same signatures in another order or more often, and there is always
an instruction after the separator.  Whatever the check asks is about this script and one of its
signatures, and nothing else asks about signatures in an evaluation. -/
theorem signature_checks_commit_to_code_after_last_separator (context : Context)
    (stack : Stack) :
    (∀ index state signatures, context.ChecksAt stack index state signatures →
      context.signedScript state signatures =
          Script.committed context.version (context.codeBefore stack index) signatures ∧
        (∀ others : List Bytes,
          (∀ signature, signature ∈ others ↔ signature ∈ signatures) →
            context.signedScript state others = context.signedScript state signatures) ∧
        (Instruction.suffixAfter? state.codeStart context.script.bytes).isSome = true ∧
        ∀ instruction, context.script.instructions[index]? = some instruction →
          ∀ question ∈ (context.step index instruction state).asked,
            question.isSignature = true →
              question.IsAbout signatures
                (Script.committed context.version (context.codeBefore stack index) signatures)
                context.version) ∧
    (∀ question ∈ (context.evaluate stack).asked, question.isSignature = true →
      ∃ index state signatures, context.ChecksAt stack index state signatures ∧
        question.IsAbout signatures
          (Script.committed context.version (context.codeBefore stack index) signatures)
          context.version) := by
  refine ⟨fun index state signatures checks => ⟨checks.signedScript_eq signatures, ?_, ?_, ?_⟩,
    ?_⟩
  · intro others alike
    rw [checks.signedScript_eq, checks.signedScript_eq, Script.committed_congr alike]
  · have inside : state.codeStart < (Instruction.decode context.script.bytes).1.length :=
      checks.codeStart_lt
    rw [Instruction.suffixAfter?_eq inside]
    rfl
  · intro instruction found question asked isSignature
    obtain ⟨-, opcode, others, rfl, checked, about⟩ := Context.isAbout_of_step isSignature asked
    obtain ⟨same, sameFound, checks'⟩ := checks.found
    rw [found] at sameFound
    cases sameFound
    rw [checks'.unique checked, ← checks.signedScript_eq]
    exact about
  · intro question asked isSignature
    obtain ⟨index, state, signatures, checks, about⟩ :=
      Context.exists_checksAt_of_mem_asked isSignature asked
    rw [checks.signedScript_eq] at about
    exact ⟨index, state, signatures, checks, about⟩

/-- A separator, an empty push that is dropped, a check, and an end with another separator, an
empty push and a broken push. -/
def Script.checksAfterSeparator : Script :=
  ⟨[0xab, 0x00, 0x75, 0xac, 0xab, 0x00, 0x4c]⟩

/-- The empty signature deletes the empty pushes, and the broken push stays. -/
theorem empty_signature_commits_to_code_after_last_separator :
    Context.ChecksAt ⟨.checksAfterSeparator, .mandatory, .refuse, .base⟩ [[2], []] 3
      ⟨[[2], []], [], [], 2, 1⟩ [[]] ∧
    Context.signedScript ⟨.checksAfterSeparator, .mandatory, .refuse, .base⟩
      ⟨[[2], []], [], [], 2, 1⟩ [[]] = ⟨[0x75, 0xac, 0x4c]⟩ ∧
    (Context.evaluate ⟨.checksAfterSeparator, .mandatory, .refuse, .base⟩ [[2], []]).asked =
      [.signature [] [2] ⟨[0x75, 0xac, 0x4c]⟩ .base] ∧
    ∃ index state signatures,
      Context.ChecksAt ⟨.checksAfterSeparator, .mandatory, .refuse, .base⟩ [[2], []] index state
        signatures ∧ [] ∈ signatures := by
  have checks : Context.ChecksAt ⟨.checksAfterSeparator, .mandatory, .refuse, .base⟩ [[2], []] 3
      ⟨[[2], []], [], [], 2, 1⟩ [[]] :=
    { short := by decide
      reached := by decide +kernel
      executing := rfl
      found := ⟨.checkSig, by decide +kernel, .single rfl⟩ }
  have asked : (Context.evaluate ⟨.checksAfterSeparator, .mandatory, .refuse, .base⟩
      [[2], []]).asked = [.signature [] [2] ⟨[0x75, 0xac, 0x4c]⟩ .base] := by
    decide +kernel
  obtain ⟨each, every⟩ := signature_checks_commit_to_code_after_last_separator
    ⟨.checksAfterSeparator, .mandatory, .refuse, .base⟩ [[2], []]
  rw [asked] at every
  obtain ⟨index, state, signatures, checksThere, signature, isHeld, key, same⟩ :=
    every _ (List.mem_singleton_self _) rfl
  obtain ⟨rfl, -, -, -⟩ := Question.signature.inj same
  refine ⟨checks, (each _ _ _ checks).1.trans ?_, asked, index, state, signatures, checksThere,
    isHeld⟩
  decide +kernel

end CoinSpend
