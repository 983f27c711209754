import CoinSpend.Hash.Digest
import CoinSpend.Interpreter.Operation
import CoinSpend.Script.Error
import CoinSpend.Script.Number

/-!
# Operations on the stack

The top of a stack is the head of the list.  These operations depend on nothing
but the stack and on whether numbers must be in their shortest form.
-/

namespace CoinSpend

abbrev Stack := List Bytes

namespace Stack

/-- Read an element as a number. -/
def number (requireMinimal : Bool) (maxLength : Nat) (element : Bytes) :
    Except ScriptError Int :=
  match ScriptNumber.decode? element requireMinimal maxLength with
  | some number => .ok number
  | none => .error .unknown

/-- Read an element as an operand of arithmetic. -/
def operand (requireMinimal : Bool) (element : Bytes) : Except ScriptError Int :=
  number requireMinimal ScriptNumber.operandLength element

/-- The depth that an operand names, if the stack is that deep. -/
def depthOf (stack : Stack) (number : Int) : Except ScriptError Nat :=
  if 0 ≤ number ∧ number < stack.length then
    .ok number.toNat
  else
    .error .invalidStackOperation

/-- Put the element at a depth on top, and take it out below if `moved` is set. -/
def fetch (moved : Bool) (stack : Stack) (depth : Nat) : Except ScriptError Stack :=
  match stack[depth]? with
  | some element => .ok (element :: if moved then stack.eraseIdx depth else stack)
  | none => .error .invalidStackOperation

/-- Take a depth from the stack, and fetch the element there. -/
def fetchAt (requireMinimal moved : Bool) : Stack → Except ScriptError Stack
  | top :: next :: rest => do
      let number ← operand requireMinimal top
      let depth ← depthOf (next :: rest) number
      fetch moved (next :: rest) depth
  | _ => .error .invalidStackOperation

/-- Carry out an operation that moves or copies elements. -/
def apply (requireMinimal : Bool) (operation : StackOperation) (stack : Stack) :
    Except ScriptError Stack :=
  match operation, stack with
  | .drop2, _ :: _ :: rest => .ok rest
  | .dup2, a :: b :: rest => .ok (a :: b :: a :: b :: rest)
  | .dup3, a :: b :: c :: rest => .ok (a :: b :: c :: a :: b :: c :: rest)
  | .over2, a :: b :: c :: d :: rest => .ok (c :: d :: a :: b :: c :: d :: rest)
  | .rotate2, a :: b :: c :: d :: e :: f :: rest =>
      .ok (e :: f :: a :: b :: c :: d :: rest)
  | .swap2, a :: b :: c :: d :: rest => .ok (c :: d :: a :: b :: rest)
  | .dupIfTrue, a :: rest => .ok (if ScriptNumber.isTrue a then a :: a :: rest else a :: rest)
  | .depth, rest => .ok (ScriptNumber.encode rest.length :: rest)
  | .drop, _ :: rest => .ok rest
  | .dup, a :: rest => .ok (a :: a :: rest)
  | .nip, a :: _ :: rest => .ok (a :: rest)
  | .over, a :: b :: rest => .ok (b :: a :: b :: rest)
  | .pick, rest => fetchAt requireMinimal false rest
  | .roll, rest => fetchAt requireMinimal true rest
  | .rotate, a :: b :: c :: rest => .ok (c :: a :: b :: rest)
  | .swap, a :: b :: rest => .ok (b :: a :: rest)
  | .tuck, a :: b :: rest => .ok (a :: b :: a :: rest)
  | .size, a :: rest => .ok (ScriptNumber.encode a.length :: a :: rest)
  | _, _ => .error .invalidStackOperation

/-- The number that a truth value stands for. -/
def truth (value : Bool) : Int :=
  if value then 1 else 0

def unaryValue (operation : UnaryOperation) (a : Int) : Int :=
  match operation with
  | .increment => a + 1
  | .decrement => a - 1
  | .negate => -a
  | .absolute => a.natAbs
  | .not => truth (a == 0)
  | .notZero => truth (a != 0)

/-- The value of a binary operation; `b` was on top. -/
def binaryValue (operation : BinaryOperation) (a b : Int) : Int :=
  match operation with
  | .add => a + b
  | .subtract => a - b
  | .and => truth (a != 0 && b != 0)
  | .or => truth (a != 0 || b != 0)
  | .equal => truth (a == b)
  | .notEqual => truth (a != b)
  | .less => truth (a < b)
  | .greater => truth (a > b)
  | .lessOrEqual => truth (a ≤ b)
  | .greaterOrEqual => truth (a ≥ b)
  | .minimum => min a b
  | .maximum => max a b

def applyUnary (requireMinimal : Bool) (operation : UnaryOperation) :
    Stack → Except ScriptError Stack
  | a :: rest => do
      let number ← operand requireMinimal a
      .ok (ScriptNumber.encode (unaryValue operation number) :: rest)
  | [] => .error .invalidStackOperation

def applyBinary (requireMinimal : Bool) (operation : BinaryOperation) :
    Stack → Except ScriptError Stack
  | b :: a :: rest => do
      let left ← operand requireMinimal a
      let right ← operand requireMinimal b
      .ok (ScriptNumber.encode (binaryValue operation left right) :: rest)
  | _ => .error .invalidStackOperation

/-- Fail unless the two top numbers are equal, and take them away. -/
def applyNumEqualVerify (requireMinimal : Bool) : Stack → Except ScriptError Stack
  | b :: a :: rest => do
      let left ← operand requireMinimal a
      let right ← operand requireMinimal b
      if left = right then .ok rest else .error .numEqualVerify
  | _ => .error .invalidStackOperation

/-- Whether the third number is at least the second and below the first. -/
def applyWithin (requireMinimal : Bool) : Stack → Except ScriptError Stack
  | upper :: lower :: value :: rest => do
      let number ← operand requireMinimal value
      let least ← operand requireMinimal lower
      let bound ← operand requireMinimal upper
      .ok (ScriptNumber.ofBool (least ≤ number ∧ number < bound) :: rest)
  | _ => .error .invalidStackOperation

/-- Compare the two top elements.  To verify, fail unless they are equal and leave
nothing. -/
def applyEqual (thenVerify : Bool) : Stack → Except ScriptError Stack
  | b :: a :: rest =>
      if thenVerify then
        if a = b then .ok rest else .error .equalVerify
      else
        .ok (ScriptNumber.ofBool (a = b) :: rest)
  | _ => .error .invalidStackOperation

/-- Fail unless the top counts as true, and take it away. -/
def applyVerify : Stack → Except ScriptError Stack
  | top :: rest => if ScriptNumber.isTrue top then .ok rest else .error .verify
  | [] => .error .invalidStackOperation

def hashValue (operation : HashOperation) (element : Bytes) : Bytes :=
  match operation with
  | .ripemd160 => (ripemd160 element).bytes
  | .sha1 => (sha1 element).bytes
  | .sha256 => (sha256 element).bytes
  | .hash160 => (hash160 element).bytes
  | .doubleSha256 => (doubleSha256 element).bytes

def applyHash (operation : HashOperation) : Stack → Except ScriptError Stack
  | top :: rest => .ok (hashValue operation top :: rest)
  | [] => .error .invalidStackOperation

/-- Whether the top is there and counts as true. -/
def topIsTrue : Stack → Bool
  | top :: _ => ScriptNumber.isTrue top
  | [] => false

end Stack

end CoinSpend
