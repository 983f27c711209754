import CoinSpend.Proofs.Outcome

/-!
# Computations that could crash

On a machine with arrays and numbers of 64 bits some operations are not defined
everywhere: a position may lie outside its array, a difference of sizes below zero, and a
number may not fit.  A checked computation gives an outcome unless one of that is
attempted.  It agrees with an outcome if it gives this outcome, so that it never crashes.
-/

namespace CoinSpend

variable {α β γ δ : Type}

/-- What is attempted where an operation is not defined. -/
inductive Crash where
  | outOfRange
  | overflow
  deriving DecidableEq, Repr

/-- An outcome, unless there was a crash on the way to it. -/
inductive Checked (α : Type) where
  | crashed (crash : Crash)
  | done (outcome : Outcome α)

def Outcome.map (view : α → β) (outcome : Outcome α) : Outcome β :=
  ⟨outcome.asked, outcome.result.map view⟩

namespace Checked

/-- Continue with a result.  A failure ends everything, and so does a crash. -/
def andThen (first : Checked α) (next : α → Checked β) : Checked β :=
  match first with
  | crashed crash => crashed crash
  | done outcome =>
      match outcome.result with
      | .error error => done ⟨outcome.asked, .error error⟩
      | .ok value =>
          match next value with
          | crashed crash => crashed crash
          | done later => done ⟨outcome.asked ++ later.asked, later.result⟩

instance : Monad Checked where
  pure value := done (pure value)
  bind := andThen

/-- A computation that uses nothing that could crash. -/
def lift (outcome : Outcome α) : Checked α :=
  done outcome

/-! ## Operations that may crash -/

def getAt (list : List α) (position : Nat) : Checked α :=
  match list[position]? with
  | some element => pure element
  | none => crashed .outOfRange

def sub (left right : Nat) : Checked Nat :=
  if right ≤ left then pure (left - right) else crashed .overflow

theorem getAt_of_getElem? {list : List α} {position : Nat} {element : α}
    (found : list[position]? = some element) : getAt list position = pure element := by
  rw [getAt, found]

theorem getAt_reverse {list : List α} {position depth : Nat} {element : α}
    (sum : position + (depth + 1) = list.length) (found : list[depth]? = some element) :
    getAt list.reverse position = pure element := by
  apply getAt_of_getElem?
  rw [List.getElem?_reverse (by omega), ← found]
  congr 1
  omega

theorem sub_of_le {left right : Nat} (within : right ≤ left) :
    sub left right = pure (left - right) :=
  if_pos within

/-! ## Laws -/

theorem pure_bind (value : α) (next : α → Checked β) : (pure value >>= next) = next value := by
  change andThen (done (.succeed value)) next = next value
  cases reached : next value with
  | crashed crash => simp only [andThen, Outcome.succeed, reached]
  | done later => simp only [andThen, Outcome.succeed, reached, List.nil_append]

theorem fail_bind (error : ScriptError) (next : α → Checked β) :
    (lift (Outcome.fail error) >>= next) = lift (Outcome.fail error) :=
  rfl

theorem require_bind_of_not {condition : Bool} (failed : condition = false) (error : ScriptError)
    (next : Unit → Checked β) :
    (lift (Outcome.require condition error) >>= next) = lift (Outcome.fail error) := by
  rw [failed]
  rfl

theorem require_bind_of_met {condition : Bool} (met : condition = true) (error : ScriptError)
    (next : Unit → Checked β) : (lift (Outcome.require condition error) >>= next) = next () := by
  rw [Outcome.require, if_pos met]
  exact pure_bind () next

/-- A computation that does not crash and has the same outcome as another, up to how its
value is seen. -/
def Agrees (view : α → β) (checked : Checked β) (outcome : Outcome α) : Prop :=
  checked = done (outcome.map view)

namespace Agrees

variable {view : α → β} {nextView : γ → δ}

theorem pure (view : α → β) (value : α) : Agrees view (Pure.pure (view value)) (Pure.pure value) :=
  rfl

theorem fail (view : α → β) (error : ScriptError) :
    Agrees view (lift (Outcome.fail error)) (Outcome.fail error) :=
  rfl

theorem lift (outcome : Outcome α) : Agrees id (Checked.lift outcome) outcome := by
  obtain ⟨asked, result⟩ := outcome
  cases result <;> rfl

/-- Where the first parts agree, it is enough that the second ones agree on its value. -/
theorem bind {checked : Checked β} {outcome : Outcome α} {checkedNext : β → Checked δ}
    {next : α → Outcome γ} (first : Agrees view checked outcome)
    (second : ∀ value, outcome.result = .ok value →
      Agrees nextView (checkedNext (view value)) (next value)) :
    Agrees nextView (checked >>= checkedNext) (outcome >>= next) := by
  obtain rfl := first
  obtain ⟨asked, result⟩ := outcome
  change andThen _ checkedNext = done ((Outcome.andThen _ next).map nextView)
  cases result with
  | error error => rfl
  | ok value =>
      have reached : checkedNext (view value) = done ((next value).map nextView) :=
        second value rfl
      simp only [andThen, Outcome.map, Except.map, reached, Outcome.andThen]

theorem bindExcept {checked : Checked β} {result : Except ScriptError α}
    {checkedNext : β → Checked δ} {next : α → Except ScriptError γ}
    (first : Agrees view checked (Outcome.ofExcept result))
    (second : ∀ value, result = .ok value →
      Agrees nextView (checkedNext (view value)) (Outcome.ofExcept (next value))) :
    Agrees nextView (checked >>= checkedNext) (Outcome.ofExcept (result >>= next)) := by
  have sequence : Outcome.ofExcept (result >>= next) =
      Outcome.ofExcept result >>= fun value => Outcome.ofExcept (next value) := by
    cases result <;> rfl
  rw [sequence]
  exact first.bind second

theorem require_bind {condition : Bool} {error : ScriptError} {checkedNext : Unit → Checked δ}
    {next : Unit → Outcome γ}
    (second : condition = true → Agrees nextView (checkedNext ()) (next ())) :
    Agrees nextView (Checked.lift (Outcome.require condition error) >>= checkedNext)
      (Outcome.require condition error >>= next) :=
  (lift _).bind fun _ met => second (Outcome.result_require_eq_ok_iff.mp met)

end Agrees

end Checked

end CoinSpend
