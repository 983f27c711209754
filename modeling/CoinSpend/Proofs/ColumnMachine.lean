import CoinSpend.Interpreter.Evaluation
import CoinSpend.Proofs.ColumnMultisig
import CoinSpend.Proofs.PushOnly

/-!
# A machine with a column

The machine carries out instructions like an evaluation does, but on a column and with words
of 64 bits.  It never leaves its arrays and its numbers never overflow: whatever the script,
the stack, the flags and the checker are, its run is the evaluation.
-/

namespace CoinSpend

namespace Context

open Checked

/-! ## Operations -/

/-- Carry out an operation that only changes the column. -/
def onColumn (state : State) (change : Column → Checked Column) : Checked State := do
  let column ← change state.stack
  return state.withStack column

/-- The number from -1 to 16 that an opcode stands for, as the distance from the opcode
before the one for 1. -/
def numberWord (opcode : Opcode) : Checked Int64 := do
  let base ← Word.sub 0x51 1
  Word.sub (Int64.ofNat opcode.byte.toNat) base

/-- The top of the column as a lock time, which must not be negative. -/
def lockTimeWord (context : Context) (state : State) : Checked Int64 := do
  let top ← Column.top state.stack 1
  let number ← ScriptNumber.readWord context.requireMinimal ScriptNumber.lockTimeLength top
  if number < 0 then lift (Outcome.fail .negativeLockTime) else return number

def checkLockTimeOnColumn (context : Context) (state : State) : Checked State := do
  if context.flags.has .checkLockTime then
    let operand ← context.lockTimeWord state
    let passed ← lift (Outcome.ask context.checker (.lockTime operand.toInt))
    lift (Outcome.require passed .unsatisfiedLockTime)
    return state
  else
    lift (context.reservedNop state)

def checkSequenceOnColumn (context : Context) (state : State) : Checked State := do
  if context.flags.has .checkSequence then
    let operand ← context.lockTimeWord state
    if operand &&& 0x80000000 ≠ 0 then
      return state
    else
      let passed ← lift (Outcome.ask context.checker (.sequence operand.toInt))
      lift (Outcome.require passed .unsatisfiedLockTime)
      return state
  else
    lift (context.reservedNop state)

/-- Whether a condition is empty or the single byte one, by the position of that byte. -/
def isMinimalConditionByPosition (element : Bytes) : Checked Bool :=
  if 1 < element.length then
    pure false
  else if element.length = 1 then do
    let byte ← getAt element 0
    return byte == 1
  else
    pure true

def openBranchOnColumn (context : Context) (negated : Bool) (state : State) :
    Checked State :=
  if state.executing then
    match state.stack.getLast? with
    | none => lift (Outcome.fail .unbalancedConditional)
    | some top => do
        let allowed ← (if context.version == .witnessV0 && context.flags.has .minimalIf then
          isMinimalConditionByPosition top else pure true)
        lift (Outcome.require allowed .minimalIf)
        let (_, column) ← Column.pop state.stack
        return { state with
          stack := column
          branches := (ScriptNumber.isTrue top != negated) :: state.branches }
  else
    pure { state with branches := false :: state.branches }

def moveColumnToAlt (state : State) : Checked State := do
  let (top, column) ← Column.pop state.stack
  return { state with stack := column, alt := top :: state.alt }

def moveColumnFromAlt (state : State) : Checked State :=
  match state.alt with
  | top :: rest => pure { state with stack := Column.push state.stack top, alt := rest }
  | [] => lift (Outcome.fail .invalidAltStackOperation)

def checkSignatureOnColumn (context : Context) (thenVerify : Bool) (state : State) :
    Checked State := do
  let column : Column := state.stack
  let signature ← column.top 2
  let key ← column.top 1
  let code := context.signedScript state [signature]
  let accepted ← lift (context.checkPair code signature key)
  lift (Outcome.require
    (accepted || !context.flags.has .nullFail || signature.isEmpty) .nullFail)
  let position ← column.position 2
  let column ← Column.answer thenVerify accepted .checkSigVerify (column.take position)
  return state.withStack column

def operateOnColumn (context : Context) (index : Nat) (opcode : Opcode) (state : State) :
    Checked State :=
  match Operation.ofOpcode opcode with
  | .number _ => do
      let number ← numberWord opcode
      return state.withStack (Column.push state.stack (ScriptNumber.encode number.toInt))
  | .nop => return state
  | .reservedNop => lift (context.reservedNop state)
  | .checkLockTime => context.checkLockTimeOnColumn state
  | .checkSequence => context.checkSequenceOnColumn state
  | .openBranch negated => context.openBranchOnColumn negated state
  | .flipBranch => lift (Outcome.ofExcept (flipBranch state))
  | .closeBranch => lift (Outcome.ofExcept (closeBranch state))
  | .verify => onColumn state Column.applyVerify
  | .fail => lift (Outcome.fail .returned)
  | .toAlt => moveColumnToAlt state
  | .fromAlt => moveColumnFromAlt state
  | .stack change => onColumn state (Column.apply context.requireMinimal change)
  | .equal thenVerify => onColumn state (Column.applyEqual thenVerify)
  | .unary change => onColumn state (Column.applyUnary context.requireMinimal change)
  | .binary change => onColumn state (Column.applyBinary context.requireMinimal change)
  | .numEqualVerify => onColumn state (Column.applyNumEqualVerify context.requireMinimal)
  | .within => onColumn state (Column.applyWithin context.requireMinimal)
  | .hash change => onColumn state (Column.applyHash change)
  | .codeSeparator => return { state with codeStart := index + 1 }
  | .checkSignature thenVerify => context.checkSignatureOnColumn thenVerify state
  | .checkMultisig thenVerify => context.checkMultisigOnColumn thenVerify state
  | .bad => lift (Outcome.fail .badOpcode)

/-! ## Instructions and runs -/

def carryOutOnColumn (context : Context) (index : Nat) (instruction : Instruction)
    (state : State) : Checked State :=
  match instruction with
  | .push form data =>
      if state.executing then
        if context.requireMinimal &&
            !Instruction.isMinimalPush (form.opcode data.length) data then
          lift (Outcome.fail .minimalData)
        else
          return state.withStack (Column.push state.stack data)
      else
        return state
  | .op opcode =>
      if state.executing || isConditional opcode then
        context.operateOnColumn index opcode state
      else
        return state

def stepOnColumn (context : Context) (index : Nat) (instruction : Instruction)
    (state : State) : Checked State := do
  let checked ← lift (Outcome.ofExcept (checkLimits instruction state))
  let next ← context.carryOutOnColumn index instruction checked
  lift (Outcome.require (next.stack.length + next.alt.length ≤ Limits.maxStackSize) .stackSize)
  return next

def stepsOnColumn (context : Context) (index : Nat) :
    List Instruction → State → Checked State
  | [], state => return state
  | instruction :: rest, state => do
      let next ← context.stepOnColumn index instruction state
      context.stepsOnColumn (index + 1) rest next

/-- Evaluate the script of a context on a column. -/
def evaluateOnColumn (context : Context) (column : Column) : Checked Column := do
  lift (Outcome.require (context.script.length ≤ Limits.maxScriptSize) .scriptSize)
  let (instructions, brokenEnd) := Instruction.decode context.script.bytes
  let state ← context.stepsOnColumn 0 instructions (.ofStack column)
  lift (Outcome.require brokenEnd.isEmpty .badOpcode)
  lift (Outcome.require state.branches.isEmpty .unbalancedConditional)
  return state.stack

end Context

end CoinSpend
