import CoinSpend.Proofs.InBounds
import CoinSpend.Proofs.ShortestNumbers

/-!
# Arithmetic is exact

An opcode of arithmetic takes its operands from the stack, the one pushed first coming first,
and puts the shortest form of the exact result in their place.  It fails if one of them is too
long, or is not in its shortest form where that is required.
-/

namespace CoinSpend

/-- The opcodes of arithmetic, but for the one that verifies. -/
inductive Arithmetic where
  | unary (operation : UnaryOperation)
  | binary (operation : BinaryOperation)
  | within
  deriving DecidableEq, Repr

namespace Arithmetic

def opcode : Arithmetic → Opcode
  | unary .increment => ⟨0x8b⟩
  | unary .decrement => ⟨0x8c⟩
  | unary .negate => ⟨0x8f⟩
  | unary .absolute => ⟨0x90⟩
  | unary .not => ⟨0x91⟩
  | unary .notZero => ⟨0x92⟩
  | binary .add => ⟨0x93⟩
  | binary .subtract => ⟨0x94⟩
  | binary .and => ⟨0x9a⟩
  | binary .or => ⟨0x9b⟩
  | binary .equal => ⟨0x9c⟩
  | binary .notEqual => ⟨0x9e⟩
  | binary .less => ⟨0x9f⟩
  | binary .greater => ⟨0xa0⟩
  | binary .lessOrEqual => ⟨0xa1⟩
  | binary .greaterOrEqual => ⟨0xa2⟩
  | binary .minimum => ⟨0xa3⟩
  | binary .maximum => ⟨0xa4⟩
  | within => ⟨0xa5⟩

def arity : Arithmetic → Nat
  | unary _ => 1
  | binary _ => 2
  | within => 3

/-- The result on numbers, in the order in which they were pushed. -/
def result : Arithmetic → List Int → Int
  | unary .increment, [a] => a + 1
  | unary .decrement, [a] => a - 1
  | unary .negate, [a] => -a
  | unary .absolute, [a] => |a|
  | unary .not, [a] => if a = 0 then 1 else 0
  | unary .notZero, [a] => if a = 0 then 0 else 1
  | binary .add, [a, b] => a + b
  | binary .subtract, [a, b] => a - b
  | binary .and, [a, b] => if a ≠ 0 ∧ b ≠ 0 then 1 else 0
  | binary .or, [a, b] => if a ≠ 0 ∨ b ≠ 0 then 1 else 0
  | binary .equal, [a, b] => if a = b then 1 else 0
  | binary .notEqual, [a, b] => if a = b then 0 else 1
  | binary .less, [a, b] => if a < b then 1 else 0
  | binary .greater, [a, b] => if b < a then 1 else 0
  | binary .lessOrEqual, [a, b] => if a ≤ b then 1 else 0
  | binary .greaterOrEqual, [a, b] => if b ≤ a then 1 else 0
  | binary .minimum, [a, b] => if a ≤ b then a else b
  | binary .maximum, [a, b] => if a ≤ b then b else a
  | within, [number, least, bound] => if least ≤ number ∧ number < bound then 1 else 0
  | _, _ => 0

/-- What an opcode does to a stack. -/
def apply (requireMinimal : Bool) : Arithmetic → Stack → Except ScriptError Stack
  | unary operation => Stack.applyUnary requireMinimal operation
  | binary operation => Stack.applyBinary requireMinimal operation
  | within => Stack.applyWithin requireMinimal

end Arithmetic

namespace Stack

def IsOperand (requireMinimal : Bool) (element : Bytes) : Prop :=
  element.length ≤ 4 ∧ (requireMinimal = true → ScriptNumber.isMinimal element = true)

instance (requireMinimal : Bool) (element : Bytes) : Decidable (IsOperand requireMinimal element) :=
  inferInstanceAs (Decidable (_ ∧ (_ → _)))

variable {requireMinimal : Bool}

theorem operand_of_isOperand {element : Bytes} (allowed : IsOperand requireMinimal element) :
    operand requireMinimal element = .ok (ScriptNumber.value element) := by
  obtain ⟨short, minimal⟩ := allowed
  have fits : ¬ ScriptNumber.operandLength < element.length := Nat.not_lt.mpr short
  have accepted : ¬ (requireMinimal && !ScriptNumber.isMinimal element) = true := by
    cases requireMinimal with
    | false => exact Bool.false_ne_true
    | true => rw [minimal rfl]; exact Bool.false_ne_true
  rw [operand, number, ScriptNumber.decode?, if_neg fits, if_neg accepted]

theorem operand_of_not_isOperand {element : Bytes} (refused : ¬ IsOperand requireMinimal element) :
    operand requireMinimal element = .error .unknown := by
  rw [operand, number, ScriptNumber.decode?]
  by_cases long : ScriptNumber.operandLength < element.length
  · rw [if_pos long]
  · have wasteful : (requireMinimal && !ScriptNumber.isMinimal element) = true := by
      rw [IsOperand, not_and, Classical.not_imp, Bool.not_eq_true] at refused
      obtain ⟨required, notMinimal⟩ := refused (Nat.not_lt.mp long)
      rw [required, notMinimal]
      rfl
    rw [if_neg long, if_pos wasteful]

theorem operand_eq (element : Bytes) :
    operand requireMinimal element =
      if IsOperand requireMinimal element then .ok (ScriptNumber.value element)
      else .error .unknown := by
  split_ifs with allowed
  · exact operand_of_isOperand allowed
  · exact operand_of_not_isOperand allowed

theorem natAbs_value_lt_of_isOperand {element : Bytes}
    (allowed : IsOperand requireMinimal element) :
    (ScriptNumber.value element).natAbs < 2 ^ 31 :=
  natAbs_lt_of_operand_eq_ok (operand_of_isOperand allowed)

end Stack

theorem ScriptNumber.ofBool_eq_encode (value : Bool) :
    ofBool value = encode (Stack.truth value) := by
  cases value <;> decide

namespace Arithmetic

open Stack (IsOperand)

variable {requireMinimal : Bool}

/-! ## Results -/

theorem result_unary (operation : UnaryOperation) (a : Int) :
    result (.unary operation) [a] = Stack.unaryValue operation a := by
  cases operation with
  | increment | decrement | negate => rfl
  | absolute => exact Int.abs_eq_natAbs a
  | not | notZero => simp [result, Stack.unaryValue, Stack.truth]

theorem result_binary (operation : BinaryOperation) (a b : Int) :
    result (.binary operation) [a, b] = Stack.binaryValue operation a b := by
  cases operation <;>
    simp [result, Stack.binaryValue, Stack.truth, Int.min_def, Int.max_def]

theorem result_within (number least bound : Int) :
    result .within [number, least, bound] = Stack.truth (least ≤ number ∧ number < bound) := by
  simp [result, Stack.truth]

/-- Results have at most one bit more than the operands. -/
theorem natAbs_result_lt {operation : Arithmetic} {numbers : List Int}
    (enough : numbers.length = operation.arity)
    (small : ∀ number ∈ numbers, number.natAbs < 2 ^ 31) :
    (operation.result numbers).natAbs < 2 ^ 32 := by
  match operation, numbers, enough with
  | .unary change, [a], _ =>
      have bound := Stack.natAbs_unaryValue_le change a
      have smallA := small a (by simp)
      rw [result_unary]
      omega
  | .binary change, [a, b], _ =>
      have bound := Stack.natAbs_binaryValue_le change a b
      have smallA := small a (by simp)
      have smallB := small b (by simp)
      rw [result_binary]
      omega
  | .within, [number, least, bound], _ =>
      rw [result_within]
      exact Nat.lt_of_le_of_lt (Stack.natAbs_truth_le _) (by decide)

/-! ## Stacks -/

theorem apply_of_isOperand {operation : Arithmetic} {operands : List Bytes} (rest : Stack)
    (enough : operands.length = operation.arity)
    (allowed : ∀ element ∈ operands, IsOperand requireMinimal element) :
    operation.apply requireMinimal (operands.reverse ++ rest) =
      .ok (ScriptNumber.encode (operation.result (operands.map ScriptNumber.value)) :: rest) := by
  match operation, operands, enough with
  | .unary change, [a], _ =>
      have readA := Stack.operand_of_isOperand (allowed a (by simp))
      change Stack.applyUnary requireMinimal change (a :: rest) = _
      rw [Stack.applyUnary, readA, List.map_singleton, result_unary]
      rfl
  | .binary change, [a, b], _ =>
      have readA := Stack.operand_of_isOperand (allowed a (by simp))
      have readB := Stack.operand_of_isOperand (allowed b (by simp))
      change Stack.applyBinary requireMinimal change (b :: a :: rest) = _
      rw [Stack.applyBinary, readA, readB, List.map_cons, List.map_singleton, result_binary]
      rfl
  | .within, [number, least, bound], _ =>
      have readNumber := Stack.operand_of_isOperand (allowed number (by simp))
      have readLeast := Stack.operand_of_isOperand (allowed least (by simp))
      have readBound := Stack.operand_of_isOperand (allowed bound (by simp))
      change Stack.applyWithin requireMinimal (bound :: least :: number :: rest) = _
      rw [Stack.applyWithin, readNumber, readLeast, readBound, List.map_cons, List.map_cons,
        List.map_singleton, result_within, ← ScriptNumber.ofBool_eq_encode]
      rfl

theorem apply_of_not_isOperand {operation : Arithmetic} {operands : List Bytes} (rest : Stack)
    (enough : operands.length = operation.arity)
    (refused : ¬ ∀ element ∈ operands, IsOperand requireMinimal element) :
    operation.apply requireMinimal (operands.reverse ++ rest) = .error .unknown := by
  match operation, operands, enough with
  | .unary change, [a], _ =>
      rw [List.forall_mem_singleton] at refused
      change Stack.applyUnary requireMinimal change (a :: rest) = _
      rw [Stack.applyUnary, Stack.operand_of_not_isOperand refused]
      rfl
  | .binary change, [a, b], _ =>
      change Stack.applyBinary requireMinimal change (b :: a :: rest) = _
      rw [Stack.applyBinary, Stack.operand_eq, Stack.operand_eq]
      split_ifs with allowedA allowedB
      · exact absurd (by simp [allowedA, allowedB]) refused
      all_goals rfl
  | .within, [number, least, bound], _ =>
      change Stack.applyWithin requireMinimal (bound :: least :: number :: rest) = _
      rw [Stack.applyWithin, Stack.operand_eq, Stack.operand_eq, Stack.operand_eq]
      split_ifs with allowedNumber allowedLeast allowedBound
      · exact absurd (by simp [allowedNumber, allowedLeast, allowedBound]) refused
      all_goals rfl

theorem operate_opcode (operation : Arithmetic) (context : Context) (index : Nat) (state : State) :
    context.operate index (.ofOpcode operation.opcode) state =
      Context.onStack state (operation.apply context.requireMinimal) := by
  rcases operation with operation | operation | _
  · cases operation <;> rfl
  · cases operation <;> rfl
  · rfl

end Arithmetic

/-! ## Comparing and verifying -/

/-- The error of comparing numbers and verifying at once. -/
def ScriptError.ofNumEqual : ScriptError → ScriptError
  | verify => numEqualVerify
  | error => error

def Outcome.mapError {α : Type} (view : ScriptError → ScriptError) (outcome : Outcome α) :
    Outcome α :=
  ⟨outcome.asked, outcome.result.mapError view⟩

theorem ScriptNumber.isTrue_encode_truth (value : Bool) :
    isTrue (encode (Stack.truth value)) = value := by
  cases value <;> decide

theorem Stack.applyNumEqualVerify_eq (requireMinimal : Bool) (stack : Stack) :
    applyNumEqualVerify requireMinimal stack =
      (applyBinary requireMinimal .equal stack >>= applyVerify).mapError .ofNumEqual := by
  match stack with
  | [] | [_] => rfl
  | b :: a :: rest =>
      rw [applyNumEqualVerify, applyBinary, operand_eq, operand_eq]
      split_ifs
      · change (if ScriptNumber.value a = ScriptNumber.value b then _ else _) =
          Except.mapError ScriptError.ofNumEqual (if ScriptNumber.isTrue (ScriptNumber.encode
            (truth (ScriptNumber.value a == ScriptNumber.value b))) then _ else _)
        rw [ScriptNumber.isTrue_encode_truth]
        by_cases same : ScriptNumber.value a = ScriptNumber.value b
        · rw [if_pos same, if_pos (beq_iff_eq.mpr same)]
          rfl
        · rw [if_neg same, if_neg (mt beq_iff_eq.mp same)]
          rfl
      all_goals rfl

theorem Context.onStack_bind (state : State) (first second : Stack → Except ScriptError Stack) :
    (onStack state first >>= fun next => onStack next second) =
      onStack state fun stack => first stack >>= second := by
  unfold onStack
  dsimp only
  cases first state.stack <;> rfl

theorem Context.mapError_onStack (view : ScriptError → ScriptError) (state : State)
    (change : Stack → Except ScriptError Stack) :
    (onStack state change).mapError view =
      onStack state fun stack => (change stack).mapError view := by
  unfold onStack
  dsimp only
  cases change state.stack <;> rfl

/-- An opcode of arithmetic takes its operands in the order in which they were pushed, and puts
the shortest form of the exact result in their place, which has five bytes at most.  If an operand
is longer than four bytes, or not minimal where it must be, the opcode fails with the unknown
error.  On a machine no word of 64 bits overflows on the way.  Comparing and verifying at once is
comparing and then verifying, under an error of its own. -/
theorem arithmetic_is_exact (context : Context) (index : Nat) (state : State) :
    (∀ (operation : Arithmetic) (operands : List Bytes) (rest : Stack),
      operands.length = operation.arity →
      let before := state.withStack (operands.reverse ++ rest)
      let answer := operation.result (operands.map ScriptNumber.value)
      ((∀ element ∈ operands, Stack.IsOperand context.requireMinimal element) →
        context.operate index (.ofOpcode operation.opcode) before =
          pure (state.withStack (ScriptNumber.encode answer :: rest)) ∧
        ScriptNumber.value (ScriptNumber.encode answer) = answer ∧
        (∀ other, ScriptNumber.value other = answer →
          (ScriptNumber.encode answer).length ≤ other.length) ∧
        (ScriptNumber.encode answer).length ≤ 5) ∧
      ((¬ ∀ element ∈ operands, Stack.IsOperand context.requireMinimal element) →
        context.operate index (.ofOpcode operation.opcode) before = Outcome.fail .unknown) ∧
      context.operateOnColumn index operation.opcode before.upended =
        .done ((context.operate index (.ofOpcode operation.opcode) before).map State.upended)) ∧
    context.operate index (.ofOpcode ⟨0x9d⟩) state =
      (do
        let compared ← context.operate index (.ofOpcode ⟨0x9c⟩) state
        context.operate index (.ofOpcode ⟨0x69⟩) compared).mapError .ofNumEqual := by
  constructor
  · intro operation operands rest enough before answer
    have operates := operation.operate_opcode context index before
    refine ⟨fun allowed => ⟨?_, ScriptNumber.value_encode answer, ?_, ?_⟩, fun refused => ?_,
      context.operate_agrees index operation.opcode before⟩
    · rw [operates, Context.onStack]
      exact congrArg (fun result => Outcome.ofExcept (Except.map before.withStack result))
        (Arithmetic.apply_of_isOperand rest enough allowed)
    · intro other isAnswer
      rw [← isAnswer]
      exact ScriptNumber.length_encode_value_le other
    · have small : ∀ number ∈ operands.map ScriptNumber.value, number.natAbs < 2 ^ 31 := by
        intro number member
        obtain ⟨element, isElement, rfl⟩ := List.mem_map.mp member
        exact Stack.natAbs_value_lt_of_isOperand (allowed element isElement)
      have bound := Arithmetic.natAbs_result_lt (by rwa [List.length_map]) small
      have fits : 2 ^ 32 < 2 ^ (8 * 4 + 7) := by decide
      exact ScriptNumber.length_encode_le (Nat.lt_trans bound fits)
    · rw [operates, Context.onStack]
      exact congrArg (fun result => Outcome.ofExcept (Except.map before.withStack result))
        (Arithmetic.apply_of_not_isOperand rest enough refused)
  · change Context.onStack state (Stack.applyNumEqualVerify context.requireMinimal) =
      Outcome.mapError .ofNumEqual
        (Context.onStack state (Stack.applyBinary context.requireMinimal .equal) >>=
          fun compared => Context.onStack compared Stack.applyVerify)
    rw [Context.onStack_bind, Context.mapError_onStack]
    exact congrArg (Context.onStack state) (funext (Stack.applyNumEqualVerify_eq _))

/-- The least operand less the greatest needs a fifth byte; a number with a zero behind it is no
operand where the shortest form is required. -/
theorem difference_of_extreme_operands :
    (Context.operate ⟨.empty, .standard, .refuse, .base⟩ 0 (.ofOpcode ⟨0x94⟩)
        (.ofStack [[0xff, 0xff, 0xff, 0x7f], [0xff, 0xff, 0xff, 0xff]]) =
      pure (.ofStack [[0xfe, 0xff, 0xff, 0xff, 0x80]])) ∧
    Context.operate ⟨.empty, .standard, .refuse, .base⟩ 0 (.ofOpcode ⟨0x94⟩)
        (.ofStack [[1, 0], [1]]) = Outcome.fail .unknown := by
  have computes := (arithmetic_is_exact ⟨.empty, .standard, .refuse, .base⟩ 0 (.ofStack [])).1
  constructor
  · have least : ScriptNumber.encode (ScriptNumber.value [0xff, 0xff, 0xff, 0xff] -
        ScriptNumber.value [0xff, 0xff, 0xff, 0x7f]) = [0xfe, 0xff, 0xff, 0xff, 0x80] := by
      decide +kernel
    have subtracted := ((computes (.binary .subtract)
      [[0xff, 0xff, 0xff, 0xff], [0xff, 0xff, 0xff, 0x7f]] [] rfl).1 (by decide +kernel)).1
    rw [← least]
    exact subtracted
  · exact (computes (.binary .subtract) [[1], [1, 0]] [] rfl).2.1 (by decide +kernel)

end CoinSpend
