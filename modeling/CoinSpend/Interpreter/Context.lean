import CoinSpend.Interpreter.Checker
import CoinSpend.Interpreter.Stack
import CoinSpend.Limits
import CoinSpend.Script.Edit

/-!
# One evaluation
-/

namespace CoinSpend

/-- What stays the same while a script is evaluated. -/
structure Context where
  script : Script
  flags : Flags
  checker : Checker
  version : SignatureVersion

/-- What changes from instruction to instruction. -/
structure State where
  stack : Stack
  /-- The second stack. -/
  alt : Stack
  /-- Whether each open branch is taken, the innermost first. -/
  branches : List Bool
  /-- Operations counted so far. -/
  operations : Nat
  /-- Instructions up to the last executed code separator. -/
  codeStart : Nat
  deriving DecidableEq

namespace State

def ofStack (stack : Stack) : State :=
  ⟨stack, [], [], 0, 0⟩

/-- Whether instructions are executed and not skipped. -/
def executing (state : State) : Bool :=
  state.branches.all id

def withStack (state : State) (stack : Stack) : State :=
  { state with stack := stack }

/-- Count operations, up to the limit. -/
def countOperations (state : State) (count : Nat) : Except ScriptError State :=
  if Limits.maxOperations < state.operations + count then
    .error .operationCount
  else
    .ok { state with operations := state.operations + count }

/-- Counting succeeds within the limit, and changes nothing but the count. -/
theorem countOperations_eq_ok_iff {state counted : State} {count : Nat} :
    state.countOperations count = .ok counted ↔
      state.operations + count ≤ Limits.maxOperations ∧
        counted = { state with operations := state.operations + count } := by
  rw [countOperations]
  split
  · rename_i tooMany
    exact ⟨nofun, fun counts => absurd counts.1 (Nat.not_le.mpr tooMany)⟩
  · rename_i within
    constructor
    · intro counts
      cases counts
      exact ⟨Nat.not_lt.mp within, rfl⟩
    · rintro ⟨-, rfl⟩
      rfl

end State

namespace Context

/-- Whether numbers and pushes must use their shortest form. -/
def requireMinimal (context : Context) : Bool :=
  context.flags.has .minimalData

/-- The script that signatures commit to: what follows the last executed code
separator.  Outside witnesses, the signatures and the other separators are left
out. -/
def signedScript (context : Context) (state : State) (signatures : List Bytes) : Script :=
  let code := context.script.fromInstruction state.codeStart
  match context.version with
  | .witnessV0 => code
  | .base =>
      (signatures.foldl
        (fun code signature => (code.delete (Script.empty.appendData signature)).1)
        code).withoutSeparators

/-- Check one signature with one key, after their forms. -/
def checkPair (context : Context) (code : Script) (signature key : Bytes) : Outcome Bool := do
  Outcome.ofExcept (Signature.checkEncoding signature context.flags)
  Outcome.ofExcept (PublicKey.checkEncoding key context.flags context.version)
  Outcome.ask context.checker (.signature signature key code context.version)

/-- Put the answer of a signature check on the stack.  To verify, fail unless it is
yes and leave nothing. -/
def giveAnswer (thenVerify accepted : Bool) (error : ScriptError) (rest : Stack) :
    Except ScriptError Stack :=
  if thenVerify then
    if accepted then .ok rest else .error error
  else
    .ok (ScriptNumber.ofBool accepted :: rest)

/-- Check the signature below the key on top. -/
def checkSignature (context : Context) (thenVerify : Bool) (state : State) :
    Outcome State :=
  match state.stack with
  | key :: signature :: rest => do
      let code := context.signedScript state [signature]
      let accepted ← context.checkPair code signature key
      Outcome.require
        (accepted || !context.flags.has .nullFail || signature.isEmpty) .nullFail
      let stack ← Outcome.ofExcept (giveAnswer thenVerify accepted .checkSigVerify rest)
      return state.withStack stack
  | _ => Outcome.fail .invalidStackOperation

end Context

end CoinSpend
