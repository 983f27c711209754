import CoinSpend.Interpreter.Context
import CoinSpend.Proofs.Columns

/-!
# Arithmetic on columns

Operands have at most 31 bits, so sums, differences and negations of them fit in a word, and
words compare like the numbers they hold.  Every arithmetic operation on the column of a
stack does what it does on the stack.
-/

namespace CoinSpend

namespace Word

open Stack

def ofTruth (value : Bool) : Int64 :=
  if value then 1 else 0

def unary (operation : UnaryOperation) (word : Int64) : Checked Int64 :=
  match operation with
  | .increment => add word 1
  | .decrement => sub word 1
  | .negate => neg word
  | .absolute => abs word
  | .not => pure (ofTruth (word = 0))
  | .notZero => pure (ofTruth (word ≠ 0))

/-- The value of a binary operation; `right` was on top. -/
def binary (operation : BinaryOperation) (left right : Int64) : Checked Int64 :=
  match operation with
  | .add => add left right
  | .subtract => sub left right
  | .and => pure (ofTruth (left ≠ 0 ∧ right ≠ 0))
  | .or => pure (ofTruth (left ≠ 0 ∨ right ≠ 0))
  | .equal => pure (ofTruth (left = right))
  | .notEqual => pure (ofTruth (left ≠ right))
  | .less => pure (ofTruth (left < right))
  | .greater => pure (ofTruth (right < left))
  | .lessOrEqual => pure (ofTruth (left ≤ right))
  | .greaterOrEqual => pure (ofTruth (right ≤ left))
  | .minimum => pure (if left ≤ right then left else right)
  | .maximum => pure (if left ≤ right then right else left)

section Small

variable {a b : Int} (smallA : a.natAbs < 2 ^ 31) (smallB : b.natAbs < 2 ^ 31)

theorem ofTruth_eq {condition : Prop} [Decidable condition] {value : Bool}
    (same : condition ↔ value = true) :
    (pure (ofTruth condition) : Checked Int64) = pure (Int64.ofInt (truth value)) := by
  have asBool : decide condition = value := Bool.eq_iff_iff.mpr (decide_eq_true_iff.trans same)
  rw [asBool]
  cases value <;> rfl

include smallA in
/-- No unary operation overflows. -/
theorem unary_eq (operation : UnaryOperation) :
    unary operation (Int64.ofInt a) = pure (Int64.ofInt (unaryValue operation a)) := by
  have bound := natAbs_unaryValue_le operation a
  have fits : (unaryValue operation a).natAbs < 2 ^ 63 := by omega
  have fitsA : a.natAbs < 2 ^ 63 := by omega
  have value := toInt_ofInt fitsA
  have zero := eq_zero_iff fitsA
  cases operation with
  | increment => rw [unary, add, value]; exact fit_of_natAbs_lt fits
  | decrement => rw [unary, sub, value]; exact fit_of_natAbs_lt fits
  | negate => rw [unary, neg, value]; exact fit_of_natAbs_lt fits
  | absolute => rw [unary, abs, value]; exact fit_of_natAbs_lt fits
  | not => exact ofTruth_eq (by rw [zero, beq_iff_eq])
  | notZero => exact ofTruth_eq (by rw [ne_eq, zero, bne_iff_ne])

/-- The greatest word has no successor. -/
example : unary .increment 0x7fffffffffffffff = .crashed .overflow := rfl

include smallA smallB in
/-- No binary operation overflows. -/
theorem binary_eq (operation : BinaryOperation) :
    binary operation (Int64.ofInt a) (Int64.ofInt b) =
      pure (Int64.ofInt (binaryValue operation a b)) := by
  have bound := natAbs_binaryValue_le operation a b
  have fits : (binaryValue operation a b).natAbs < 2 ^ 63 := by omega
  have fitsA : a.natAbs < 2 ^ 63 := by omega
  have fitsB : b.natAbs < 2 ^ 63 := by omega
  have valueA := toInt_ofInt fitsA
  have valueB := toInt_ofInt fitsB
  have zeroA := eq_zero_iff fitsA
  have zeroB := eq_zero_iff fitsB
  have same := ofInt_inj fitsA fitsB
  have less := ofInt_lt fitsA fitsB
  have greater := ofInt_lt fitsB fitsA
  have lessOrEqual := ofInt_le fitsA fitsB
  have greaterOrEqual := ofInt_le fitsB fitsA
  cases operation with
  | add => rw [binary, add, valueA, valueB]; exact fit_of_natAbs_lt fits
  | subtract => rw [binary, sub, valueA, valueB]; exact fit_of_natAbs_lt fits
  | and =>
      refine ofTruth_eq ?_
      rw [ne_eq, ne_eq, zeroA, zeroB, Bool.and_eq_true, bne_iff_ne, bne_iff_ne]
  | or =>
      refine ofTruth_eq ?_
      rw [ne_eq, ne_eq, zeroA, zeroB, Bool.or_eq_true, bne_iff_ne, bne_iff_ne]
  | equal => exact ofTruth_eq (by rw [same, beq_iff_eq])
  | notEqual => exact ofTruth_eq (by rw [ne_eq, same, bne_iff_ne])
  | less => exact ofTruth_eq (by rw [less, decide_eq_true_iff])
  | greater => exact ofTruth_eq (by rw [greater, decide_eq_true_iff])
  | lessOrEqual => exact ofTruth_eq (by rw [lessOrEqual, decide_eq_true_iff])
  | greaterOrEqual => exact ofTruth_eq (by rw [greaterOrEqual, decide_eq_true_iff])
  | minimum =>
      rw [binary, binaryValue, Int.min_def]
      simp only [lessOrEqual]
      split <;> rfl
  | maximum =>
      rw [binary, binaryValue, Int.max_def]
      simp only [lessOrEqual]
      split <;> rfl

end Small

end Word

namespace Column

open Checked

def numberAt (requireMinimal : Bool) (column : Column) (place : Nat) : Checked Int64 := do
  let element ← column.top place
  ScriptNumber.readWord requireMinimal ScriptNumber.operandLength element

def applyUnary (requireMinimal : Bool) (operation : UnaryOperation) (column : Column) :
    Checked Column := do
  let (number, column) ← column.popNumber requireMinimal
  let result ← Word.unary operation number
  return column.push (ScriptNumber.encode result.toInt)

/-- The value of a binary operation on the two top elements, and what is below them. -/
def binaryResult (requireMinimal : Bool) (operation : BinaryOperation) (column : Column) :
    Checked (Int64 × Column) := do
  column.require 2
  let left ← column.numberAt requireMinimal 2
  let right ← column.numberAt requireMinimal 1
  let position ← column.position 2
  let result ← Word.binary operation left right
  return (result, column.take position)

def applyBinary (requireMinimal : Bool) (operation : BinaryOperation) (column : Column) :
    Checked Column := do
  let (result, column) ← column.binaryResult requireMinimal operation
  return column.push (ScriptNumber.encode result.toInt)

/-- The answer is put on the column, and taken away again if it is yes. -/
def applyNumEqualVerify (requireMinimal : Bool) (column : Column) : Checked Column := do
  let (result, column) ← column.binaryResult requireMinimal .equal
  let column := column.push (ScriptNumber.encode result.toInt)
  lift (Outcome.require (result ≠ 0) .numEqualVerify)
  let (_, column) ← column.pop
  return column

def applyWithin (requireMinimal : Bool) (column : Column) : Checked Column := do
  column.require 3
  let number ← column.numberAt requireMinimal 3
  let least ← column.numberAt requireMinimal 2
  let bound ← column.numberAt requireMinimal 1
  let position ← column.position 3
  return Column.push (column.take position)
    (ScriptNumber.ofBool (least ≤ number ∧ number < bound))

/-- Put an answer on the column.  To verify, fail unless it is yes and take it away. -/
def answer (thenVerify accepted : Bool) (error : ScriptError) (column : Column) :
    Checked Column :=
  let column := column.push (ScriptNumber.ofBool accepted)
  if thenVerify then do
    lift (Outcome.require accepted error)
    let (_, column) ← column.pop
    return column
  else
    pure column

def applyEqual (thenVerify : Bool) (column : Column) : Checked Column := do
  column.require 2
  let (b, column) ← column.pop
  let (a, column) ← column.pop
  column.answer thenVerify (a = b) .equalVerify

def applyVerify (column : Column) : Checked Column := do
  let top ← column.top 1
  lift (Outcome.require (ScriptNumber.isTrue top) .verify)
  let (_, column) ← column.pop
  return column

def applyHash (operation : HashOperation) (column : Column) : Checked Column := do
  let (top, column) ← column.pop
  return column.push (Stack.hashValue operation top)

variable {requireMinimal : Bool}

theorem numberAt_agrees {stack : Stack} {element : Bytes} (depth : Nat)
    (found : stack[depth]? = some element) :
    Agrees Int64.ofInt (numberAt requireMinimal stack.reverse (depth + 1))
      (Outcome.ofExcept (Stack.operand requireMinimal element)) := by
  rw [numberAt, top_reverse depth found, Checked.pure_bind]
  exact ScriptNumber.readWord_agrees requireMinimal (by decide) element

theorem applyUnary_agrees (operation : UnaryOperation) (stack : Stack) :
    Agrees List.reverse (applyUnary requireMinimal operation stack.reverse)
      (Outcome.ofExcept (Stack.applyUnary requireMinimal operation stack)) := by
  match stack with
  | [] => rfl
  | a :: rest =>
      refine (popNumber_agrees a rest).bindExcept fun number isNumber => ?_
      have small := Stack.natAbs_lt_of_operand_eq_ok isNumber
      have bound := Stack.natAbs_unaryValue_le operation number
      dsimp only
      rw [Word.unary_eq small, Checked.pure_bind, Word.toInt_ofInt (by omega), push_reverse]
      rfl

def operands (requireMinimal : Bool) (a b : Bytes) : Except ScriptError (Int × Int) := do
  let left ← Stack.operand requireMinimal a
  let right ← Stack.operand requireMinimal b
  .ok (left, right)

theorem operands_bind {α : Type} (a b : Bytes) (next : Int → Int → Except ScriptError α) :
    (do
      let left ← Stack.operand requireMinimal a
      let right ← Stack.operand requireMinimal b
      next left right) =
      operands requireMinimal a b >>= fun both => next both.1 both.2 := by
  unfold operands
  cases Stack.operand requireMinimal a with
  | error error => rfl
  | ok left => cases Stack.operand requireMinimal b <;> rfl

/-- What a binary operation finds on the column of a stack. -/
theorem binaryResult_agrees (operation : BinaryOperation) (b a : Bytes) (rest : Stack) :
    Agrees (fun both => (Int64.ofInt (Stack.binaryValue operation both.1 both.2), rest.reverse))
      (binaryResult requireMinimal operation (b :: a :: rest).reverse)
      (Outcome.ofExcept (operands requireMinimal a b)) := by
  rw [binaryResult, require_reverse (Nat.le_add_left 2 _), Checked.pure_bind]
  refine (numberAt_agrees 1 rfl).bindExcept fun left isLeft => ?_
  refine (numberAt_agrees 0 rfl).bindExcept fun right isRight => ?_
  have smallLeft := Stack.natAbs_lt_of_operand_eq_ok isLeft
  have smallRight := Stack.natAbs_lt_of_operand_eq_ok isRight
  have position : Column.position (b :: a :: rest).reverse 2 = pure rest.length :=
    position_reverse rfl
  have below : (b :: a :: rest).reverse.take rest.length = rest.reverse := take_reverse 2 rfl
  rw [position, Checked.pure_bind, Word.binary_eq smallLeft smallRight, Checked.pure_bind, below]
  rfl

theorem natAbs_binaryValue_lt {operation : BinaryOperation} {a b : Bytes} {both : Int × Int}
    (read : operands requireMinimal a b = .ok both) :
    (Stack.binaryValue operation both.1 both.2).natAbs < 2 ^ 63 := by
  obtain ⟨left, isLeft, read⟩ := Except.bind_eq_ok_iff.mp read
  obtain ⟨right, isRight, read⟩ := Except.bind_eq_ok_iff.mp read
  cases read
  have smallLeft := Stack.natAbs_lt_of_operand_eq_ok isLeft
  have smallRight := Stack.natAbs_lt_of_operand_eq_ok isRight
  have bound := Stack.natAbs_binaryValue_le operation left right
  dsimp only
  omega

theorem applyBinary_agrees (operation : BinaryOperation) (stack : Stack) :
    Agrees List.reverse (applyBinary requireMinimal operation stack.reverse)
      (Outcome.ofExcept (Stack.applyBinary requireMinimal operation stack)) := by
  match stack with
  | [] | [_] => rfl
  | b :: a :: rest =>
      rw [Stack.applyBinary, operands_bind]
      refine (binaryResult_agrees operation b a rest).bindExcept fun both read => ?_
      dsimp only
      rw [Word.toInt_ofInt (natAbs_binaryValue_lt read), push_reverse]
      rfl

theorem applyNumEqualVerify_agrees (stack : Stack) :
    Agrees List.reverse (applyNumEqualVerify requireMinimal stack.reverse)
      (Outcome.ofExcept (Stack.applyNumEqualVerify requireMinimal stack)) := by
  match stack with
  | [] | [_] => rfl
  | b :: a :: rest =>
      rw [Stack.applyNumEqualVerify,
        operands_bind a b fun left right =>
          if left = right then .ok rest else .error .numEqualVerify]
      refine (binaryResult_agrees .equal b a rest).bindExcept fun both read => ?_
      dsimp only
      rw [push_reverse, pop_reverse, Checked.pure_bind]
      by_cases same : both.1 = both.2
      · rw [if_pos same, Stack.binaryValue, same, beq_self_eq_true]
        rfl
      · rw [if_neg same, Stack.binaryValue, beq_false_of_ne same]
        rfl

theorem applyWithin_agrees (stack : Stack) :
    Agrees List.reverse (applyWithin requireMinimal stack.reverse)
      (Outcome.ofExcept (Stack.applyWithin requireMinimal stack)) := by
  match stack with
  | [] | [_] | [_, _] => rfl
  | upper :: lower :: value :: rest =>
      rw [applyWithin, require_reverse (Nat.le_add_left 3 _), Checked.pure_bind, Stack.applyWithin]
      refine (numberAt_agrees 2 rfl).bindExcept fun number isNumber => ?_
      refine (numberAt_agrees 1 rfl).bindExcept fun least isLeast => ?_
      refine (numberAt_agrees 0 rfl).bindExcept fun bound isBound => ?_
      have smallNumber := Word.natAbs_lt_of_operand isNumber
      have smallLeast := Word.natAbs_lt_of_operand isLeast
      have smallBound := Word.natAbs_lt_of_operand isBound
      have position : Column.position (upper :: lower :: value :: rest).reverse 3 =
          pure rest.length := position_reverse rfl
      have below : (upper :: lower :: value :: rest).reverse.take rest.length = rest.reverse :=
        take_reverse 3 rfl
      rw [position, Checked.pure_bind, below, push_reverse]
      simp only [Word.ofInt_le smallLeast smallNumber, Word.ofInt_lt smallNumber smallBound]
      rfl

theorem answer_agrees (thenVerify accepted : Bool) (error : ScriptError) (rest : Stack) :
    Agrees List.reverse (answer thenVerify accepted error rest.reverse)
      (Outcome.ofExcept (Context.giveAnswer thenVerify accepted error rest)) := by
  rw [answer, push_reverse, pop_reverse, Checked.pure_bind]
  cases thenVerify <;> cases accepted <;> rfl

theorem applyEqual_agrees (thenVerify : Bool) (stack : Stack) :
    Agrees List.reverse (applyEqual thenVerify stack.reverse)
      (Outcome.ofExcept (Stack.applyEqual thenVerify stack)) := by
  match stack with
  | [] | [_] => rfl
  | b :: a :: rest =>
      rw [applyEqual, require_reverse (Nat.le_add_left 2 _), Checked.pure_bind, pop_reverse,
        Checked.pure_bind]
      dsimp only
      rw [pop_reverse, Checked.pure_bind]
      have answered := answer_agrees thenVerify (a = b) .equalVerify rest
      by_cases same : a = b
      · simp only [Stack.applyEqual, same, decide_true] at answered ⊢
        exact answered
      · simp only [Stack.applyEqual, same, decide_false] at answered ⊢
        exact answered

theorem applyVerify_agrees (stack : Stack) :
    Agrees List.reverse (applyVerify stack.reverse)
      (Outcome.ofExcept (Stack.applyVerify stack)) := by
  match stack with
  | [] => rfl
  | a :: rest =>
      have found : top (a :: rest).reverse 1 = pure a := top_reverse 0 rfl
      rw [applyVerify, found, Checked.pure_bind, pop_reverse, Checked.pure_bind, Stack.applyVerify]
      cases ScriptNumber.isTrue a <;> rfl

theorem applyHash_agrees (operation : HashOperation) (stack : Stack) :
    Agrees List.reverse (applyHash operation stack.reverse)
      (Outcome.ofExcept (Stack.applyHash operation stack)) := by
  match stack with
  | [] => rfl
  | a :: rest =>
      rw [applyHash, pop_reverse, Checked.pure_bind]
      dsimp only
      rw [push_reverse]
      rfl

end Column

end CoinSpend
