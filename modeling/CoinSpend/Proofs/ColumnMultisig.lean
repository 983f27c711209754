import CoinSpend.Proofs.ColumnNumbers
import CoinSpend.Proofs.MultisigOperands

/-!
# Multiple signature checks on columns

A machine finds the operands of a multiple check by places that it counts from the top: one
cursor for keys, one for signatures, and a count of the elements to take away at the end.
The counts are read first; from then on the places are known to lie inside the column, the
loops stay between them, and nothing that is taken away can be missing.
-/

namespace CoinSpend

namespace State

/-- A state whose stack is listed from the bottom, like the state of a machine. -/
def upended (state : State) : State :=
  state.withStack state.stack.reverse

variable (state : State)

@[simp] theorem stack_upended : state.upended.stack = state.stack.reverse :=
  rfl

@[simp] theorem alt_upended : state.upended.alt = state.alt :=
  rfl

@[simp] theorem branches_upended : state.upended.branches = state.branches :=
  rfl

@[simp] theorem operations_upended : state.upended.operations = state.operations :=
  rfl

@[simp] theorem executing_upended : state.upended.executing = state.executing :=
  rfl

@[simp] theorem upended_upended : state.upended.upended = state := by
  rw [upended, upended, withStack, withStack, List.reverse_reverse]

end State

/-- Where the operands of a multiple check stand, by their places from the top. -/
structure MultisigPlaces where
  keys : Nat
  firstKey : Nat
  signatures : Nat
  firstSignature : Nat
  /-- How many elements are taken away before the signatures. -/
  spared : Nat
  /-- The place of the element that is not used. -/
  extra : Nat
  deriving DecidableEq, Repr

def MultisigOperands.places (operands : MultisigOperands) : MultisigPlaces where
  keys := operands.keys.length
  firstKey := 2
  signatures := operands.signatures.length
  firstSignature := operands.keys.length + 3
  spared := operands.keys.length + 2
  extra := operands.keys.length + 3 + operands.signatures.length

namespace Column

open Checked

def countAt (requireMinimal : Bool) (most : Nat) (error : ScriptError) (column : Column)
    (place : Nat) : Checked Nat := do
  let number ← column.numberAt requireMinimal place
  if number < 0 ∨ most < number.toInt.toNat then
    lift (Outcome.fail error)
  else
    return number.toInt.toNat

/-- The elements from a place downwards, after the first `index` ones. -/
def collect (column : Column) (first : Nat) : (index left : Nat) → Checked (List Bytes)
  | _, 0 => pure []
  | index, left + 1 => do
      let below ← column.position first
      let position ← sub below index
      let element ← getAt column position
      let rest ← column.collect first (index + 1) left
      return element :: rest

/-- Take elements away until one is left to its place, and look at those that are not
spared. -/
def cleanUp (strict : Bool) : (place spared : Nat) → Column → Checked Column
  | place + 2, spared, column => do
      let allowed ← (if strict && spared == 0 then List.isEmpty <$> column.top 1 else pure true)
      lift (Outcome.require allowed .nullFail)
      let (_, column) ← column.pop
      cleanUp strict (place + 1) (spared - 1) column
  | _, _, column => pure column

end Column

namespace Context

open Checked

def comparePair (context : Context) (code : Script) (column : Column)
    (keyPlace signaturePlace : Nat) : Checked Bool := do
  let signature ← column.top signaturePlace
  let key ← column.top keyPlace
  lift (context.checkPair code signature key)

/-- Compare signatures with keys by two cursors, until one of them has come to its end. -/
def comparePairs (context : Context) (code : Script) (column : Column) :
    (keysLeft keyPlace signaturesLeft signaturePlace : Nat) → Checked Bool
  | _, _, 0, _ => return true
  | 0, keyPlace, _ + 1, signaturePlace => do
      let _ ← context.comparePair code column keyPlace signaturePlace
      crashed .overflow
  | keysLeft + 1, keyPlace, signaturesLeft + 1, signaturePlace => do
      let accepted ← context.comparePair code column keyPlace signaturePlace
      let left := if accepted then signaturesLeft else signaturesLeft + 1
      let place := if accepted then signaturePlace + 1 else signaturePlace
      if keysLeft < left then
        return false
      else
        context.comparePairs code column keysLeft (keyPlace + 1) left place

/-- Read the counts and find the places of the operands.  The keys count as operations. -/
def multisigPlaces (context : Context) (state : State) : Checked (MultisigPlaces × State) := do
  let place := 1
  let keys ← Column.countAt context.requireMinimal Limits.maxMultisigKeys .publicKeyCount
    state.stack place
  let counted ← lift (Outcome.ofExcept (state.countOperations keys))
  let place := place + 1
  let firstKey := place
  let spared := keys + 2
  let place := place + keys
  let signatures ← Column.countAt context.requireMinimal keys .signatureCount state.stack place
  let place := place + 1
  let firstSignature := place
  let place := place + signatures
  Column.require state.stack place
  return (⟨keys, firstKey, signatures, firstSignature, spared, place⟩, counted)

def checkPlaces (context : Context) (thenVerify : Bool) (places : MultisigPlaces)
    (state : State) : Checked State := do
  let column : Column := state.stack
  let signatures ← column.collect places.firstSignature 0 places.signatures
  let code := context.signedScript state signatures
  let accepted ← context.comparePairs code column places.keys places.firstKey
    places.signatures places.firstSignature
  let strict := !accepted && context.flags.has .nullFail
  let column ← Column.cleanUp strict places.extra places.spared column
  let extra ← column.top 1
  lift (Outcome.require (!context.flags.has .nullDummy || extra.isEmpty) .signatureNullDummy)
  let (_, column) ← column.pop
  let column ← column.answer thenVerify accepted .checkMultisigVerify
  return state.withStack column

def checkMultisigOnColumn (context : Context) (thenVerify : Bool) (state : State) :
    Checked State := do
  let (places, counted) ← context.multisigPlaces state
  context.checkPlaces thenVerify places counted

end Context

namespace Column

open Checked

variable {requireMinimal : Bool}

theorem getElem?_of_drop_eq_cons {stack below : Stack} {depth : Nat} {element : Bytes}
    (split : stack.drop depth = element :: below) : stack[depth]? = some element := by
  rw [← Nat.add_zero depth, ← List.getElem?_drop, split]
  rfl

theorem countAt_agrees {stack : Stack} {most : Nat} {error : ScriptError} (depth : Nat) :
    Agrees Prod.fst (countAt requireMinimal most error stack.reverse (depth + 1))
      (Outcome.ofExcept (MultisigOperands.readCount requireMinimal most error
        (stack.drop depth))) := by
  cases split : stack.drop depth with
  | nil =>
      have missing : stack[depth]? = none :=
        List.getElem?_eq_none_iff.mpr (List.drop_eq_nil_iff.mp split)
      rw [countAt, numberAt, top_reverse_of_none missing, fail_bind]
      rfl
  | cons top below =>
      refine (numberAt_agrees depth (getElem?_of_drop_eq_cons split)).bindExcept
        fun number isNumber => ?_
      have small := Word.natAbs_lt_of_operand isNumber
      have value := Word.toInt_ofInt small
      have outside : (Int64.ofInt number < 0 ∨ most < (Int64.ofInt number).toInt.toNat) ↔
          ¬ (0 ≤ number ∧ number ≤ most) := by
        rw [Word.lt_zero_iff small, value]
        omega
      by_cases within : 0 ≤ number ∧ number ≤ most
      · rw [if_neg (not_not_intro within ∘ outside.mp), if_pos within, value]
        rfl
      · rw [if_pos (outside.mpr within), if_neg within]
        rfl

theorem collect_reverse {stack : Stack} (elements : List Bytes) {first index : Nat}
    {passed below : Stack} (split : stack = passed ++ (elements ++ below))
    (sum : first + index = passed.length + 1) :
    collect stack.reverse first index elements.length = pure elements := by
  induction elements generalizing index passed with
  | nil => rfl
  | cons element elements ih =>
      have length : stack.length = passed.length + (elements.length + below.length + 1) := by
        rw [split]
        simp only [List.length_append, List.length_cons]
        omega
      have found : stack[passed.length]? = some element := by
        rw [split, List.getElem?_append_right (Nat.le_refl _), Nat.sub_self]
        rfl
      obtain ⟨position, isPosition⟩ : ∃ position, position + (passed.length + 1) = stack.length :=
        ⟨elements.length + below.length, by omega⟩
      have start : position + index + first = stack.length := by omega
      have next : stack = (passed ++ [element]) ++ (elements ++ below) := by
        rw [split, List.append_assoc]
        rfl
      have nextSum : first + (index + 1) = (passed ++ [element]).length + 1 := by
        rw [List.length_append, List.length_singleton]
        omega
      rw [List.length_cons, collect, position_reverse start, Checked.pure_bind,
        sub_of_le (Nat.le_add_left _ _), Nat.add_sub_cancel, Checked.pure_bind,
        getAt_reverse isPosition found, Checked.pure_bind, ih next nextSum, Checked.pure_bind]

theorem cleanUp_spared (strict : Bool) (place spared : Nat) (element : Bytes) (rest : Stack) :
    cleanUp strict (place + 2) (spared + 1) (element :: rest).reverse =
      cleanUp strict (place + 1) spared rest.reverse := by
  have kept : (strict && spared + 1 == 0) = false := Bool.and_false strict
  rw [cleanUp, kept, if_neg Bool.false_ne_true, Checked.pure_bind, require_bind_of_met rfl,
    pop_reverse, Checked.pure_bind]
  rfl

theorem cleanUp_unspared (strict : Bool) (place : Nat) (element : Bytes) (rest : Stack) :
    cleanUp strict (place + 2) 0 (element :: rest).reverse =
      (do
        lift (Outcome.require (!strict || element.isEmpty) .nullFail)
        cleanUp strict (place + 1) 0 rest.reverse) := by
  have found : top (element :: rest).reverse 1 = pure element := top_reverse 0 rfl
  have allowed : (if strict && 0 == 0 then List.isEmpty <$> pure element else pure true) =
      (pure (!strict || element.isEmpty) : Checked Bool) := by
    cases strict <;> rfl
  rw [cleanUp, found, pop_reverse, Checked.pure_bind, allowed, Checked.pure_bind]

/-- Taking elements away looks at the signatures, and reaches what is below them. -/
theorem cleanUp_reverse (strict : Bool) (passed signatures : List Bytes) (below : Stack) :
    Agrees (fun _ => below.reverse)
      (cleanUp strict (passed.length + signatures.length + 1) passed.length
        (passed ++ (signatures ++ below)).reverse)
      (Outcome.require (!strict || signatures.all List.isEmpty) .nullFail) := by
  induction passed with
  | nil =>
      rw [List.length_nil, Nat.zero_add, List.nil_append]
      induction signatures with
      | nil =>
          rw [List.all_nil, Bool.or_true]
          rfl
      | cons signature signatures ih =>
          rw [List.length_cons, List.cons_append, cleanUp_unspared, List.all_cons]
          cases allowed : !strict || signature.isEmpty with
          | true =>
              have rest : (!strict || (signature.isEmpty && signatures.all List.isEmpty)) =
                  (!strict || signatures.all List.isEmpty) := by
                rw [Bool.or_and_distrib_left, allowed, Bool.true_and]
              rw [require_bind_of_met rfl, rest]
              exact ih
          | false =>
              rw [Bool.or_and_distrib_left, allowed, Bool.false_and]
              rfl
  | cons element passed ih =>
      have place : (element :: passed).length + signatures.length + 1 =
          passed.length + signatures.length + 2 := by
        rw [List.length_cons]
        omega
      rw [place, List.length_cons, List.cons_append, cleanUp_spared]
      exact ih

end Column

namespace Context

open Checked

variable (context : Context)

theorem comparePair_reverse {stack : Stack} (code : Script) {keyDepth signatureDepth : Nat}
    {key signature : Bytes} (isKey : stack[keyDepth]? = some key)
    (isSignature : stack[signatureDepth]? = some signature) :
    context.comparePair code stack.reverse (keyDepth + 1) (signatureDepth + 1) =
      lift (context.checkPair code signature key) := by
  rw [comparePair, Column.top_reverse signatureDepth isSignature, Checked.pure_bind,
    Column.top_reverse keyDepth isKey, Checked.pure_bind]

/-- The cursors walk down keys and signatures in step with the lists that start there, so no
count runs below zero. -/
theorem comparePairs_agrees {stack : Stack} (code : Script) {keys signatures : List Bytes}
    {keyDepth signatureDepth : Nat} {afterKeys afterSignatures : Stack}
    (keysStart : stack.drop keyDepth = keys ++ afterKeys)
    (signaturesStart : stack.drop signatureDepth = signatures ++ afterSignatures)
    (enough : signatures.length ≤ keys.length) :
    Agrees id
      (context.comparePairs code stack.reverse keys.length (keyDepth + 1) signatures.length
        (signatureDepth + 1))
      (context.matchSignatures code signatures keys) := by
  induction keys generalizing keyDepth signatures signatureDepth with
  | nil =>
      obtain rfl := List.length_eq_zero_iff.mp (Nat.le_zero.mp enough)
      rfl
  | cons key keys ih =>
      cases signatures with
      | nil => rfl
      | cons signature signatures =>
          have isKey := Column.getElem?_of_drop_eq_cons keysStart
          have isSignature := Column.getElem?_of_drop_eq_cons signaturesStart
          have nextKeys : stack.drop (keyDepth + 1) = keys ++ afterKeys := by
            rw [← List.drop_drop, keysStart]
            rfl
          have nextSignatures : stack.drop (signatureDepth + 1) =
              signatures ++ afterSignatures := by
            rw [← List.drop_drop, signaturesStart]
            rfl
          rw [List.length_cons, List.length_cons, comparePairs,
            context.comparePair_reverse code isKey isSignature, matchSignatures]
          refine (Agrees.lift _).bind fun accepted _ => ?_
          cases accepted with
          | true =>
              dsimp only [id]
              rw [if_pos rfl, if_pos rfl, if_pos rfl]
              split
              · rfl
              · rename_i more
                exact ih nextKeys nextSignatures (Nat.not_lt.mp more)
          | false =>
              dsimp only [id]
              rw [if_neg Bool.false_ne_true, if_neg Bool.false_ne_true, if_neg Bool.false_ne_true,
                List.length_cons]
              split
              · rfl
              · rename_i more
                rw [← List.length_cons] at more ⊢
                exact ih nextKeys signaturesStart (Nat.not_lt.mp more)

def settleMultisig (thenVerify : Bool) (operands : MultisigOperands) (code : Script)
    (counted : State) : Outcome State := do
  let accepted ← context.matchSignatures code operands.signatures operands.keys
  Outcome.require
    (accepted || !context.flags.has .nullFail || operands.signatures.all List.isEmpty)
    .nullFail
  Outcome.require
    (!context.flags.has .nullDummy || operands.extra.isEmpty) .signatureNullDummy
  let stack ← Outcome.ofExcept
    (giveAnswer thenVerify accepted .checkMultisigVerify operands.rest)
  return counted.withStack stack

theorem checkMultisig_eq (thenVerify : Bool) (state : State) :
    context.checkMultisig thenVerify state =
      Outcome.ofExcept (context.multisigOperands state) >>= fun found =>
        context.settleMultisig thenVerify found.1
          (context.signedScript state found.1.signatures) found.2 :=
  rfl

section LieOn

variable {operands : MultisigOperands} {stack : Stack} (lie : operands.LieOn stack)

include lie in
theorem collect_operands :
    Column.collect stack.reverse operands.places.firstSignature 0 operands.places.signatures =
      pure operands.signatures := by
  obtain ⟨passed, length, split⟩ := lie.split_at_signatures
  refine Column.collect_reverse operands.signatures split ?_
  rw [length]
  rfl

include lie in
theorem comparePairs_operands (code : Script) :
    Agrees id
      (context.comparePairs code stack.reverse operands.places.keys operands.places.firstKey
        operands.places.signatures operands.places.firstSignature)
      (context.matchSignatures code operands.signatures operands.keys) := by
  obtain ⟨passed, length, split⟩ := lie.split_at_signatures
  obtain ⟨keyCount, signatureCount, whole⟩ := lie.split
  have keysStart : stack.drop 1 = operands.keys ++
      signatureCount :: (operands.signatures ++ operands.extra :: operands.rest) := by
    rw [whole]
    rfl
  have signaturesStart : stack.drop (operands.keys.length + 2) =
      operands.signatures ++ operands.extra :: operands.rest := by
    rw [split, ← length, List.drop_left]
  exact context.comparePairs_agrees code keysStart signaturesStart lie.enough

include lie in
/-- What is left after taking the operands away begins with the unused element. -/
theorem cleanUp_operands (strict : Bool) :
    Agrees (fun _ => (operands.extra :: operands.rest).reverse)
      (Column.cleanUp strict operands.places.extra operands.places.spared stack.reverse)
      (Outcome.require (!strict || operands.signatures.all List.isEmpty) .nullFail) := by
  obtain ⟨passed, length, split⟩ := lie.split_at_signatures
  have cleaned := Column.cleanUp_reverse strict passed operands.signatures
    (operands.extra :: operands.rest)
  have place : passed.length + operands.signatures.length + 1 = operands.places.extra := by
    rw [length]
    change _ = operands.keys.length + 3 + operands.signatures.length
    omega
  rwa [← split, place, length] at cleaned

end LieOn

theorem checkPlaces_agrees (thenVerify : Bool) {operands : MultisigOperands} {state : State}
    (lie : operands.LieOn state.stack) :
    Agrees State.upended (context.checkPlaces thenVerify operands.places state.upended)
      (context.settleMultisig thenVerify operands
        (context.signedScript state operands.signatures) state) := by
  have code : ∀ signatures, context.signedScript state.upended signatures =
      context.signedScript state signatures := fun _ => rfl
  have last : Column.top (operands.extra :: operands.rest).reverse 1 = pure operands.extra :=
    Column.top_reverse 0 rfl
  rw [checkPlaces, State.stack_upended, collect_operands lie, Checked.pure_bind, code]
  refine (context.comparePairs_operands lie _).bind fun accepted _ => ?_
  have strictness : (accepted || !context.flags.has .nullFail ||
      operands.signatures.all List.isEmpty) =
        (!(!accepted && context.flags.has .nullFail) || operands.signatures.all List.isEmpty) := by
    rw [Bool.not_and, Bool.not_not]
  rw [strictness]
  refine (cleanUp_operands lie _).bind fun _ _ => ?_
  rw [last, Checked.pure_bind]
  refine Agrees.require_bind fun _ => ?_
  rw [Column.pop_reverse, Checked.pure_bind]
  refine (Column.answer_agrees thenVerify accepted .checkMultisigVerify operands.rest).bind ?_
  exact fun stack _ => .pure State.upended (state.withStack stack)

theorem countOperations_agrees (state : State) (count : Nat) :
    Agrees State.upended (lift (Outcome.ofExcept (state.upended.countOperations count)))
      (Outcome.ofExcept (state.countOperations count)) := by
  rw [State.countOperations, State.countOperations, State.operations_upended]
  split <;> rfl

theorem multisigPlaces_agrees (state : State) :
    Agrees (fun found => (found.1.places, found.2.upended))
      (context.multisigPlaces state.upended)
      (Outcome.ofExcept (context.multisigOperands state)) := by
  refine (Column.countAt_agrees 0).bindExcept fun ⟨keyCount, below⟩ readKeys => ?_
  obtain ⟨-, top, isTop, -⟩ := MultisigOperands.of_readCount_eq_ok readKeys
  change state.stack = top :: below at isTop
  refine (countOperations_agrees state keyCount).bindExcept fun counted _ => ?_
  have secondPlace : 1 + 1 + keyCount = keyCount + 1 + 1 := by omega
  have secondStart : below.drop keyCount = state.stack.drop (keyCount + 1) := by
    rw [isTop, List.drop_succ_cons]
  dsimp only
  rw [secondPlace, secondStart]
  refine (Column.countAt_agrees (keyCount + 1)).bindExcept
    fun ⟨signatureCount, afterCounts⟩ readSignatures => ?_
  obtain ⟨-, second, isSecond, -⟩ := MultisigOperands.of_readCount_eq_ok readSignatures
  have keysLength :=
    MultisigOperands.length_take_of_drop_eq_cons (secondStart.trans isSecond)
  have length := MultisigOperands.length_of_drop_eq_cons isSecond
  dsimp only
  cases isExtra : afterCounts.drop signatureCount with
  | nil =>
      have short : state.stack.length < keyCount + 1 + 1 + 1 + signatureCount := by
        have none := List.drop_eq_nil_iff.mp isExtra
        omega
      have fails : Column.require state.upended.stack (keyCount + 1 + 1 + 1 + signatureCount) =
          lift (Outcome.fail .invalidStackOperation) := Column.require_reverse_of_lt short
      rw [fails]
      rfl
  | cons extra rest =>
      have deep := MultisigOperands.length_of_drop_eq_cons isExtra
      have enough : Column.require state.upended.stack (keyCount + 1 + 1 + 1 + signatureCount) =
          pure () := Column.require_reverse (by omega)
      have signaturesLength := MultisigOperands.length_take_of_drop_eq_cons isExtra
      have places : MultisigPlaces.mk keyCount 2 signatureCount (keyCount + 3) (keyCount + 2)
          (keyCount + 3 + signatureCount) = MultisigOperands.places
            ⟨below.take keyCount, afterCounts.take signatureCount, extra, rest⟩ := by
        simp only [MultisigOperands.places, keysLength, signaturesLength]
      rw [enough, Checked.pure_bind]
      exact congrArg (fun places => (pure (places, counted.upended) : Checked _)) places

theorem kept_of_countOperations {state counted : State} {count : Nat}
    (counts : state.countOperations count = .ok counted) :
    counted.stack = state.stack ∧ counted.codeStart = state.codeStart := by
  obtain ⟨-, rfl⟩ := State.countOperations_eq_ok_iff.mp counts
  exact ⟨rfl, rfl⟩

/-- On the column of a stack a multiple check stays between its places, and does what it does
on the stack. -/
theorem checkMultisigOnColumn_agrees (thenVerify : Bool) (state : State) :
    Agrees State.upended (context.checkMultisigOnColumn thenVerify state.upended)
      (context.checkMultisig thenVerify state) := by
  rw [checkMultisig_eq]
  refine (context.multisigPlaces_agrees state).bind fun ⟨operands, counted⟩ read => ?_
  obtain ⟨lie, -, -, counts⟩ := of_multisigOperands_eq_ok read
  have kept := kept_of_countOperations counts
  have code : context.signedScript state operands.signatures =
      context.signedScript counted operands.signatures := by
    rw [signedScript, signedScript, kept.2]
  rw [← kept.1] at lie
  dsimp only
  rw [code]
  exact context.checkPlaces_agrees thenVerify lie

end Context

/-! ## After the counts -/

namespace Outcome

variable {α β : Type} {error : ScriptError}

/-- Whatever goes wrong on the way to an outcome, it is not this. -/
def Avoids (outcome : Outcome α) (error : ScriptError) : Prop :=
  outcome.result ≠ .error error

namespace Avoids

theorem bind {first : Outcome α} {next : α → Outcome β} (before : first.Avoids error)
    (after : ∀ value, (next value).Avoids error) : (first >>= next).Avoids error := by
  change (first.andThen next).Avoids error
  cases finished : first.result with
  | error other =>
      rw [andThen_of_error next finished]
      intro same
      cases same
      exact before finished
  | ok value =>
      rw [andThen_of_ok next finished]
      exact after value

theorem require {other : ScriptError} (condition : Bool) (different : other ≠ error) :
    (Outcome.require condition other).Avoids error := by
  cases condition with
  | true => exact nofun
  | false =>
      intro same
      cases same
      exact different rfl

theorem map {outcome : Outcome α} (avoids : outcome.Avoids error) (view : α → β) :
    (outcome.map view).Avoids error := by
  obtain ⟨asked, result⟩ := outcome
  cases result with
  | ok value => exact nofun
  | error other =>
      intro same
      cases same
      exact avoids rfl

end Avoids

end Outcome

namespace Context

open Checked

variable (context : Context)

theorem checkPair_avoids (code : Script) (signature key : Bytes) :
    (context.checkPair code signature key).Avoids .invalidStackOperation := by
  have checked : ∀ flags, Signature.checkEncoding signature flags ≠
      .error .invalidStackOperation := by
    intro flags
    unfold Signature.checkEncoding
    split_ifs <;> exact nofun
  have known : ∀ flags version, PublicKey.checkEncoding key flags version ≠
      .error .invalidStackOperation := by
    intro flags version
    unfold PublicKey.checkEncoding
    split_ifs <;> exact nofun
  refine .bind (checked _) fun _ => ?_
  exact .bind (known _ _) fun _ => nofun

theorem matchSignatures_avoids (code : Script) (signatures keys : List Bytes) :
    (context.matchSignatures code signatures keys).Avoids .invalidStackOperation := by
  induction keys generalizing signatures with
  | nil => cases signatures <;> exact nofun
  | cons key keys ih =>
      cases signatures with
      | nil => exact nofun
      | cons signature signatures =>
          rw [matchSignatures]
          refine .bind (context.checkPair_avoids code signature key) fun accepted => ?_
          generalize (if accepted then signatures else signature :: signatures) = left
          dsimp only
          split
          · exact nofun
          · exact ih left

/-- Once its operands are there, a multiple check never finds the stack too short. -/
theorem settleMultisig_avoids (thenVerify : Bool) (operands : MultisigOperands) (code : Script)
    (counted : State) :
    (context.settleMultisig thenVerify operands code counted).Avoids .invalidStackOperation := by
  have answered : ∀ accepted, giveAnswer thenVerify accepted .checkMultisigVerify operands.rest ≠
      .error .invalidStackOperation := by
    intro accepted
    unfold giveAnswer
    split_ifs <;> exact nofun
  refine .bind (context.matchSignatures_avoids _ _ _) fun accepted => ?_
  refine .bind (.require _ nofun) fun _ => .bind (.require _ nofun) fun _ => ?_
  exact .bind (answered accepted) fun _ => nofun

/-- Once the places are known to lie in the column, nothing that is looked at or taken away
is missing. -/
theorem checkPlaces_avoids (thenVerify : Bool) {state counted : State} {places : MultisigPlaces}
    (found : context.multisigPlaces state = pure (places, counted)) :
    ∃ outcome, context.checkPlaces thenVerify places counted = .done outcome ∧
      outcome.Avoids .invalidStackOperation := by
  have agrees := context.multisigPlaces_agrees state.upended
  rw [state.upended_upended, found] at agrees
  cases read : context.multisigOperands state.upended with
  | error error =>
      rw [read] at agrees
      cases agrees
  | ok value =>
      obtain ⟨operands, before⟩ := value
      rw [read] at agrees
      cases agrees
      obtain ⟨lie, -, -, counts⟩ := of_multisigOperands_eq_ok read
      rw [← (kept_of_countOperations counts).1] at lie
      exact ⟨_, context.checkPlaces_agrees thenVerify lie,
        (context.settleMultisig_avoids thenVerify operands _ before).map State.upended⟩

end Context

end CoinSpend
