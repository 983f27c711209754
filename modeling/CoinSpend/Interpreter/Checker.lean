import CoinSpend.Script.Basic
import CoinSpend.Signature.Encoding

/-!
# Questions about the spending transaction

A script asks three questions that depend on the transaction: whether a signature
holds, and whether a lock time or a relative lock time has passed.  A checker
answers them.  An outcome is a result together with every question that was asked
on the way to it, whether it succeeds or fails.
-/

namespace CoinSpend

structure Checker where
  signature : Bytes → Bytes → Script → SignatureVersion → Bool
  lockTime : Int → Bool
  sequence : Int → Bool

/-- The checker outside a transaction answers no. -/
def Checker.refuse : Checker where
  signature := fun _ _ _ _ => false
  lockTime := fun _ => false
  sequence := fun _ => false

inductive Question where
  | signature (signature key : Bytes) (script : Script) (version : SignatureVersion)
  | lockTime (operand : Int)
  | sequence (operand : Int)
  deriving DecidableEq

def Checker.answer (checker : Checker) : Question → Bool
  | .signature signature key script version => checker.signature signature key script version
  | .lockTime operand => checker.lockTime operand
  | .sequence operand => checker.sequence operand

/-- A result and the questions asked for it, in order. -/
structure Outcome (α : Type) where
  asked : List Question
  result : Except ScriptError α

namespace Outcome

variable {α β : Type}

def succeed (value : α) : Outcome α :=
  ⟨[], .ok value⟩

def fail (error : ScriptError) : Outcome α :=
  ⟨[], .error error⟩

/-- Continue with a result.  A failure ends everything. -/
def andThen (first : Outcome α) (next : α → Outcome β) : Outcome β :=
  match first.result with
  | .ok value =>
      let second := next value
      ⟨first.asked ++ second.asked, second.result⟩
  | .error error => ⟨first.asked, .error error⟩

theorem andThen_of_ok {first : Outcome α} {value : α} (next : α → Outcome β)
    (finished : first.result = .ok value) :
    first.andThen next = ⟨first.asked ++ (next value).asked, (next value).result⟩ := by
  simp only [andThen, finished]

theorem andThen_of_error {first : Outcome α} {error : ScriptError} (next : α → Outcome β)
    (failed : first.result = .error error) :
    first.andThen next = ⟨first.asked, .error error⟩ := by
  simp only [andThen, failed]

theorem andThen_assoc {γ : Type} (first : Outcome α) (next : α → Outcome β)
    (last : β → Outcome γ) :
    (first.andThen next).andThen last = first.andThen fun value => (next value).andThen last := by
  obtain ⟨asked, result⟩ := first
  cases result with
  | error error => rfl
  | ok value =>
      simp only [andThen]
      cases (next value).result with
      | error error => rfl
      | ok middle => simp only [List.append_assoc]

@[simp] theorem andThen_succeed (first : Outcome α) : first.andThen succeed = first := by
  obtain ⟨asked, result⟩ := first
  cases result with
  | error error => rfl
  | ok value => simp only [andThen, succeed, List.append_nil]

instance : Monad Outcome where
  pure := succeed
  bind := andThen

def ofExcept (result : Except ScriptError α) : Outcome α :=
  ⟨[], result⟩

/-- Fail unless a condition holds. -/
def require (condition : Bool) (error : ScriptError) : Outcome Unit :=
  if condition then succeed () else fail error

/-- Ask a checker. -/
def ask (checker : Checker) (question : Question) : Outcome Bool :=
  ⟨[question], .ok (checker.answer question)⟩

end Outcome

end CoinSpend
