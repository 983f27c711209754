import CoinSpend.Interpreter.Evaluation
import CoinSpend.Script.Template
import CoinSpend.Transaction.Basic

/-!
# Unlocking an output

The unlocking script is evaluated, then the locking script on the same stack.  If
the locking script names the hash of a script, that script follows; and if either
of the two is a witness program, its rules follow.
-/

namespace CoinSpend

/-- An output's lock, what is offered to open it, and the rules. -/
structure Spend where
  unlocking : Script
  locking : Script
  witness : Witness
  flags : Flags
  checker : Checker

namespace WitnessProgram

/-- The stack and the script that a program of version zero starts with. -/
def start (program : WitnessProgram) (witness : Witness) :
    Except ScriptError (Stack × Script) :=
  if program.data.length = 32 then
    match witness.reverse with
    | [] => .error .witnessProgramWitnessEmpty
    | script :: stack =>
        if (sha256 script).bytes = program.data then
          .ok (stack, ⟨script⟩)
        else
          .error .witnessProgramMismatch
  else if program.data.length = 20 then
    if witness.length = 2 then
      .ok (witness.reverse, .payToKeyHash program.data)
    else
      .error .witnessProgramMismatch
  else
    .error .witnessProgramWrongLength

/-- Verify a witness against a program.  Programs of other versions can be spent by
anyone until they get rules. -/
def verify (program : WitnessProgram) (witness : Witness) (flags : Flags)
    (checker : Checker) : Outcome Unit := do
  if program.version = 0 then
    let (stack, script) ← Outcome.ofExcept (program.start witness)
    Outcome.require (stack.all fun element => element.length ≤ Limits.maxElementSize) .pushSize
    let final ← Context.evaluate ⟨script, flags, checker, .witnessV0⟩ stack
    Outcome.require (final.length == 1 && final.topIsTrue) .evalFalse
  else
    Outcome.require (!flags.has .discourageWitnessVersions) .discourageWitnessVersions

end WitnessProgram

namespace Spend

/-- Evaluate a script outside witnesses. -/
def evaluateBase (spend : Spend) (script : Script) (stack : Stack) : Outcome Stack :=
  Context.evaluate ⟨script, spend.flags, spend.checker, .base⟩ stack

/-- Follow the witness program of a script, if it is one and such programs have
rules.  The unlocking script must then be exactly `expected`.  The answer is whether
there was a program. -/
def followWitness (spend : Spend) (script expected : Script) (error : ScriptError) :
    Outcome Bool := do
  if spend.flags.has .witness then
    match script.witnessProgram? with
    | none => return false
    | some program =>
        Outcome.require (spend.unlocking = expected) error
        program.verify spend.witness spend.flags spend.checker
        return true
  else
    return false

/-- The bottom element stands for all of them after a witness program. -/
def settle (followed : Bool) (stack : Stack) : Stack :=
  if followed then stack.drop (stack.length - 1) else stack

/-- Evaluate the script that lies on top of the stack left by the unlocking script. -/
def followRedeem (spend : Spend) (saved : Stack) : Outcome (Stack × Bool) := do
  Outcome.require spend.unlocking.isPushOnly .signaturePushOnly
  match saved with
  | [] => Outcome.fail .unknown
  | top :: below => do
      let redeem : Script := ⟨top⟩
      let stack ← spend.evaluateBase redeem below
      Outcome.require stack.topIsTrue .evalFalse
      let followed ← spend.followWitness redeem (Script.empty.appendData redeem.bytes)
        .witnessMalleatedNested
      return (settle followed stack, followed)

/-- Decide whether an output may be spent. -/
def verify (spend : Spend) : Outcome Unit := do
  Outcome.require
    (!spend.flags.has .pushOnly || spend.unlocking.isPushOnly) .signaturePushOnly
  let unlocked ← spend.evaluateBase spend.unlocking []
  let opened ← spend.evaluateBase spend.locking unlocked
  Outcome.require opened.topIsTrue .evalFalse
  let native ← spend.followWitness spend.locking .empty .witnessMalleated
  let (stack, nested) ←
    if spend.flags.has .p2sh && spend.locking.isPayToScriptHash then
      spend.followRedeem unlocked
    else
      pure (settle native opened, false)
  Outcome.require (!spend.flags.has .cleanStack || stack.length == 1) .cleanStack
  Outcome.require
    (!spend.flags.has .witness || native || nested || spend.witness.isEmpty)
    .witnessUnexpected

end Spend

end CoinSpend
