import CoinSpend.Interpreter.Multisig

/-!
# Evaluating a script

Instructions are carried out from the first to the last.  Limits and disabled
opcodes are checked for every instruction, executed or not.
-/

namespace CoinSpend

namespace Context

/-- A no-operation that may get a meaning later. -/
def reservedNop (context : Context) (state : State) : Outcome State := do
  Outcome.require (!context.flags.has .discourageNops) .discourageNops
  return state

/-- The top of the stack as a lock time, which must not be negative. -/
def lockTimeOperand (context : Context) (state : State) : Except ScriptError Int :=
  match state.stack with
  | top :: _ => do
      let number ← Stack.number context.requireMinimal ScriptNumber.lockTimeLength top
      if number < 0 then .error .negativeLockTime else .ok number
  | [] => .error .invalidStackOperation

def checkLockTime (context : Context) (state : State) : Outcome State := do
  if context.flags.has .checkLockTime then
    let operand ← Outcome.ofExcept (context.lockTimeOperand state)
    let passed ← Outcome.ask context.checker (.lockTime operand)
    Outcome.require passed .unsatisfiedLockTime
    return state
  else
    context.reservedNop state

/-- An operand with the disable flag is not compared. -/
def checkSequence (context : Context) (state : State) : Outcome State := do
  if context.flags.has .checkSequence then
    let operand ← Outcome.ofExcept (context.lockTimeOperand state)
    if operand.toNat.testBit 31 then
      return state
    else
      let passed ← Outcome.ask context.checker (.sequence operand)
      Outcome.require passed .unsatisfiedLockTime
      return state
  else
    context.reservedNop state

/-- Whether a condition is empty or the single byte one. -/
def isMinimalCondition (element : Bytes) : Bool :=
  element == [] || element == [1]

/-- Open a branch.  Inside a branch that is not taken no condition is read. -/
def openBranch (context : Context) (negated : Bool) (state : State) :
    Except ScriptError State :=
  if state.executing then
    match state.stack with
    | [] => .error .unbalancedConditional
    | top :: rest =>
        if context.version == .witnessV0 && context.flags.has .minimalIf &&
            !isMinimalCondition top then
          .error .minimalIf
        else
          .ok { state with
            stack := rest
            branches := (ScriptNumber.isTrue top != negated) :: state.branches }
  else
    .ok { state with branches := false :: state.branches }

def flipBranch (state : State) : Except ScriptError State :=
  match state.branches with
  | taken :: outer => .ok { state with branches := (!taken) :: outer }
  | [] => .error .unbalancedConditional

def closeBranch (state : State) : Except ScriptError State :=
  match state.branches with
  | _ :: outer => .ok { state with branches := outer }
  | [] => .error .unbalancedConditional

def moveToAlt (state : State) : Except ScriptError State :=
  match state.stack with
  | top :: rest => .ok { state with stack := rest, alt := top :: state.alt }
  | [] => .error .invalidStackOperation

def moveFromAlt (state : State) : Except ScriptError State :=
  match state.alt with
  | top :: rest => .ok { state with stack := top :: state.stack, alt := rest }
  | [] => .error .invalidAltStackOperation

/-- Carry out an operation that only changes the main stack. -/
def onStack (state : State) (change : Stack → Except ScriptError Stack) :
    Outcome State :=
  Outcome.ofExcept ((change state.stack).map state.withStack)

/-- Carry out the operation of the instruction at an index. -/
def operate (context : Context) (index : Nat) (operation : Operation) (state : State) :
    Outcome State :=
  match operation with
  | .number value => return state.withStack (ScriptNumber.encode value :: state.stack)
  | .nop => return state
  | .reservedNop => context.reservedNop state
  | .checkLockTime => context.checkLockTime state
  | .checkSequence => context.checkSequence state
  | .openBranch negated => Outcome.ofExcept (context.openBranch negated state)
  | .flipBranch => Outcome.ofExcept (flipBranch state)
  | .closeBranch => Outcome.ofExcept (closeBranch state)
  | .verify => onStack state Stack.applyVerify
  | .fail => Outcome.fail .returned
  | .toAlt => Outcome.ofExcept (moveToAlt state)
  | .fromAlt => Outcome.ofExcept (moveFromAlt state)
  | .stack change => onStack state (Stack.apply context.requireMinimal change)
  | .equal thenVerify => onStack state (Stack.applyEqual thenVerify)
  | .unary change => onStack state (Stack.applyUnary context.requireMinimal change)
  | .binary change => onStack state (Stack.applyBinary context.requireMinimal change)
  | .numEqualVerify => onStack state (Stack.applyNumEqualVerify context.requireMinimal)
  | .within => onStack state (Stack.applyWithin context.requireMinimal)
  | .hash change => onStack state (Stack.applyHash change)
  | .codeSeparator => return { state with codeStart := index + 1 }
  | .checkSignature thenVerify => context.checkSignature thenVerify state
  | .checkMultisig thenVerify => context.checkMultisig thenVerify state
  | .bad => Outcome.fail .badOpcode

/-- Whether an opcode is looked at even where instructions are skipped. -/
def isConditional (opcode : Opcode) : Bool :=
  Opcode.ifTrue.byte ≤ opcode.byte && opcode.byte ≤ Opcode.endIf.byte

/-- The checks made for every instruction. -/
def checkLimits (instruction : Instruction) (state : State) : Except ScriptError State := do
  if instruction.data?.any fun data => Limits.maxElementSize < data.length then
    .error .pushSize
  else
    let counted ←
      if instruction.opcode.isCounted then state.countOperations 1 else .ok state
    if instruction.opcode.isDisabled then .error .disabledOpcode else .ok counted

/-- Carry out an instruction, or skip it. -/
def carryOut (context : Context) (index : Nat) (instruction : Instruction) (state : State) :
    Outcome State :=
  match instruction with
  | .push form data =>
      if state.executing then
        if context.requireMinimal &&
            !Instruction.isMinimalPush (form.opcode data.length) data then
          Outcome.fail .minimalData
        else
          return state.withStack (data :: state.stack)
      else
        return state
  | .op opcode =>
      if state.executing || isConditional opcode then
        context.operate index (.ofOpcode opcode) state
      else
        return state

/-- The state after one more instruction. -/
def step (context : Context) (index : Nat) (instruction : Instruction) (state : State) :
    Outcome State := do
  let checked ← Outcome.ofExcept (checkLimits instruction state)
  let next ← context.carryOut index instruction checked
  Outcome.require (next.stack.length + next.alt.length ≤ Limits.maxStackSize) .stackSize
  return next

/-- The state after a sequence of instructions that begins at an index. -/
def steps (context : Context) (index : Nat) :
    List Instruction → State → Outcome State
  | [], state => return state
  | instruction :: rest, state => do
      let next ← context.step index instruction state
      context.steps (index + 1) rest next

/-- Evaluate the script of a context on a stack. -/
def evaluate (context : Context) (stack : Stack) : Outcome Stack := do
  Outcome.require (context.script.length ≤ Limits.maxScriptSize) .scriptSize
  let (instructions, brokenEnd) := Instruction.decode context.script.bytes
  let state ← context.steps 0 instructions (.ofStack stack)
  Outcome.require brokenEnd.isEmpty .badOpcode
  Outcome.require state.branches.isEmpty .unbalancedConditional
  return state.stack

end Context

end CoinSpend
