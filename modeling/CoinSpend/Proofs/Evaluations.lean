import CoinSpend.Interpreter.Spend
import CoinSpend.Proofs.ResourceLimits

/-!
# The evaluations of a spend

A spend evaluates up to four scripts, each on the stack that an earlier one left or that
the witness holds.  A traced spend records them as they begin, and the record accounts for
all that is asked.  None begins with a long element, so the limits hold in all of them; and
a redeem script was such an element.
-/

namespace CoinSpend

/-! ## Traces -/

/-- The part of a spend that a script stands for. -/
inductive Stage where
  | unlocking | locking | redeem | witness
  deriving DecidableEq, Repr

structure Evaluation where
  stage : Stage
  context : Context
  stack : Stack

/-- An outcome and every evaluation that was begun on the way to it. -/
structure Traced (α : Type) where
  begun : List Evaluation
  outcome : Outcome α

namespace Traced

variable {α β : Type}

def lift (outcome : Outcome α) : Traced α :=
  ⟨[], outcome⟩

/-- Continue with a result.  After a failure nothing else is begun. -/
def andThen (first : Traced α) (next : α → Traced β) : Traced β where
  begun := first.begun ++
    match first.outcome.result with
    | .ok value => (next value).begun
    | .error _ => []
  outcome := first.outcome.andThen fun value => (next value).outcome

instance : Monad Traced where
  pure value := lift (pure value)
  bind := andThen

/-- Evaluate a script, and keep a record of it. -/
def evaluate (stage : Stage) (context : Context) (stack : Stack) : Traced Stack :=
  ⟨[⟨stage, context, stack⟩], context.evaluate stack⟩

end Traced

/-! ## Traced spends -/

open Traced in
def WitnessProgram.traced (program : WitnessProgram) (witness : Witness) (flags : Flags)
    (checker : Checker) : Traced Unit := do
  if program.version = 0 then
    let (stack, script) ← lift (Outcome.ofExcept (program.start witness))
    lift (Outcome.require (stack.all fun element => element.length ≤ Limits.maxElementSize)
      .pushSize)
    let final ← evaluate .witness ⟨script, flags, checker, .witnessV0⟩ stack
    lift (Outcome.require (final.length == 1 && final.topIsTrue) .evalFalse)
  else
    lift (Outcome.require (!flags.has .discourageWitnessVersions) .discourageWitnessVersions)

namespace Spend

open Traced

def tracedBase (spend : Spend) (stage : Stage) (script : Script) (stack : Stack) :
    Traced Stack :=
  evaluate stage ⟨script, spend.flags, spend.checker, .base⟩ stack

def tracedWitness (spend : Spend) (script expected : Script) (error : ScriptError) :
    Traced Bool := do
  if spend.flags.has .witness then
    match script.witnessProgram? with
    | none => return false
    | some program =>
        lift (Outcome.require (spend.unlocking = expected) error)
        program.traced spend.witness spend.flags spend.checker
        return true
  else
    return false

def tracedRedeem (spend : Spend) (saved : Stack) : Traced (Stack × Bool) := do
  lift (Outcome.require spend.unlocking.isPushOnly .signaturePushOnly)
  match saved with
  | [] => lift (Outcome.fail .unknown)
  | top :: below => do
      let redeem : Script := ⟨top⟩
      let stack ← spend.tracedBase .redeem redeem below
      lift (Outcome.require stack.topIsTrue .evalFalse)
      let followed ← spend.tracedWitness redeem (Script.empty.appendData redeem.bytes)
        .witnessMalleatedNested
      return (settle followed stack, followed)

/-- Decide whether an output may be spent, with a trace. -/
def traced (spend : Spend) : Traced Unit := do
  lift (Outcome.require
    (!spend.flags.has .pushOnly || spend.unlocking.isPushOnly) .signaturePushOnly)
  let unlocked ← spend.tracedBase .unlocking spend.unlocking []
  let opened ← spend.tracedBase .locking spend.locking unlocked
  lift (Outcome.require opened.topIsTrue .evalFalse)
  let native ← spend.tracedWitness spend.locking .empty .witnessMalleated
  let (stack, nested) ←
    if spend.flags.has .p2sh && spend.locking.isPayToScriptHash then
      spend.tracedRedeem unlocked
    else
      pure (settle native opened, false)
  lift (Outcome.require (!spend.flags.has .cleanStack || stack.length == 1) .cleanStack)
  lift (Outcome.require
    (!spend.flags.has .witness || native || nested || spend.witness.isEmpty)
    .witnessUnexpected)

end Spend

/-! ## Traces change nothing -/

theorem WitnessProgram.outcome_traced (program : WitnessProgram) (witness : Witness)
    (flags : Flags) (checker : Checker) :
    (program.traced witness flags checker).outcome = program.verify witness flags checker := by
  unfold traced verify
  split <;> rfl

namespace Spend

variable (spend : Spend)

theorem outcome_tracedWitness (script expected : Script) (error : ScriptError) :
    (spend.tracedWitness script expected error).outcome =
      spend.followWitness script expected error := by
  unfold tracedWitness followWitness
  cases script.witnessProgram? with
  | none => split <;> rfl
  | some program =>
      dsimp only
      rw [← program.outcome_traced]
      split <;> rfl

theorem outcome_tracedRedeem (saved : Stack) :
    (spend.tracedRedeem saved).outcome = spend.followRedeem saved := by
  unfold tracedRedeem followRedeem
  match saved with
  | [] => rfl
  | top :: below =>
      simp only [← outcome_tracedWitness]
      rfl

/-- A traced spend is the spend itself, with a trace. -/
theorem outcome_traced : spend.traced.outcome = spend.verify := by
  unfold traced verify
  simp only [← outcome_tracedWitness, ← outcome_tracedRedeem]
  cases spend.flags.has .p2sh && spend.locking.isPayToScriptHash <;> rfl

end Spend

/-! ## What the record accounts for -/

namespace Evaluation

def outcome (evaluation : Evaluation) : Outcome Stack :=
  evaluation.context.evaluate evaluation.stack

/-- An evaluation begins with short elements, and a redeem script is as short as one. -/
structure IsShort (evaluation : Evaluation) : Prop where
  stack : evaluation.stack.IsShort
  redeem : evaluation.stage = .redeem →
    evaluation.context.script.length ≤ Limits.maxElementSize

end Evaluation

namespace Traced

variable {α β : Type}

theorem andThen_of_ok {first : Traced α} {value : α} (next : α → Traced β)
    (finished : first.outcome.result = .ok value) :
    first.andThen next = ⟨first.begun ++ (next value).begun,
      first.outcome.asked ++ (next value).outcome.asked, (next value).outcome.result⟩ := by
  simp only [andThen, finished, Outcome.andThen_of_ok _ finished]

theorem andThen_of_error {first : Traced α} {error : ScriptError} (next : α → Traced β)
    (failed : first.outcome.result = .error error) :
    first.andThen next = ⟨first.begun, first.outcome.asked, .error error⟩ := by
  simp only [andThen, failed, Outcome.andThen_of_error _ failed, List.append_nil]

/-- All recorded evaluations have a property.  Nothing is asked outside of them, and what one of
them fails with is what the whole fails with. -/
structure Records (traced : Traced α) (property : Evaluation → Prop) : Prop where
  begins : ∀ evaluation ∈ traced.begun, property evaluation
  asked : traced.outcome.asked =
    traced.begun.flatMap fun evaluation => evaluation.outcome.asked
  failed : ∀ evaluation ∈ traced.begun, ∀ error, evaluation.outcome.result = .error error →
    traced.outcome.result = .error error

namespace Records

variable {property : Evaluation → Prop}

theorem lift {outcome : Outcome α} (silent : outcome.asked = []) :
    (Traced.lift outcome).Records property :=
  ⟨nofun, silent, nofun⟩

theorem require (condition : Bool) (error : ScriptError) :
    (Traced.lift (Outcome.require condition error)).Records property :=
  lift (Outcome.asked_require condition error)

theorem evaluate {stage : Stage} {context : Context} {stack : Stack}
    (has : property ⟨stage, context, stack⟩) :
    (Traced.evaluate stage context stack).Records property where
  begins := List.forall_mem_singleton.mpr has
  asked := (List.append_nil _).symm
  failed := List.forall_mem_singleton.mpr fun _ failed => failed

/-- What comes second begins only if the first succeeds, and then nothing in the first failed. -/
theorem bind {first : Traced α} {next : α → Traced β} (before : first.Records property)
    (after : ∀ value, first.outcome.result = .ok value → (next value).Records property) :
    (first >>= next).Records property := by
  change (first.andThen next).Records property
  cases finished : first.outcome.result with
  | error error =>
      rw [andThen_of_error next finished]
      refine ⟨before.begins, before.asked, fun evaluation member other failed => ?_⟩
      have stopped := before.failed evaluation member other failed
      rw [finished] at stopped
      cases stopped
      rfl
  | ok value =>
      have later := after value finished
      rw [andThen_of_ok next finished]
      refine ⟨List.forall_mem_append.mpr ⟨before.begins, later.begins⟩, ?_,
        List.forall_mem_append.mpr ⟨fun evaluation member error failed => ?_, later.failed⟩⟩
      · rw [List.flatMap_append, ← before.asked, ← later.asked]
      · have stopped := before.failed evaluation member error failed
        rw [finished] at stopped
        cases stopped

end Records

end Traced

theorem WitnessProgram.traced_records (program : WitnessProgram) (witness : Witness)
    (flags : Flags) (checker : Checker) :
    (program.traced witness flags checker).Records Evaluation.IsShort := by
  unfold traced
  split
  · refine .bind (.lift rfl) fun ⟨stack, script⟩ _ => ?_
    refine .bind (.require _ _) fun _ met => ?_
    have short := Outcome.result_require_eq_ok_iff.mp met
    rw [List.all_eq_true] at short
    refine .bind (.evaluate ⟨?_, nofun⟩) fun _ _ => .require _ _
    exact fun element member => of_decide_eq_true (short element member)
  · exact .require _ _

namespace Spend

variable (spend : Spend)

theorem tracedWitness_records (script expected : Script) (error : ScriptError) :
    (spend.tracedWitness script expected error).Records Evaluation.IsShort := by
  unfold tracedWitness
  split
  · split
    · exact .lift rfl
    · refine .bind (.require _ _) fun _ _ => ?_
      exact .bind (WitnessProgram.traced_records _ _ _ _) fun _ _ => .lift rfl
  · exact .lift rfl

/-- The redeem script lies on a short stack, so it is short itself. -/
theorem tracedRedeem_records {saved : Stack} (short : saved.IsShort) :
    (spend.tracedRedeem saved).Records Evaluation.IsShort := by
  refine .bind (.require _ _) fun _ _ => ?_
  match saved with
  | [] => exact .lift rfl
  | top :: below =>
      obtain ⟨topShort, belowShort⟩ := List.forall_mem_cons.mp short
      refine .bind (.evaluate ⟨belowShort, fun _ => topShort⟩) fun _ _ => ?_
      refine .bind (.require _ _) fun _ _ => ?_
      exact .bind (spend.tracedWitness_records _ _ _) fun _ _ => .lift rfl

theorem traced_records : spend.traced.Records Evaluation.IsShort := by
  have emptyShort : Stack.IsShort [] := nofun
  refine .bind (.require _ _) fun _ _ => ?_
  refine .bind (.evaluate ⟨emptyShort, nofun⟩) fun unlocked unlocks => ?_
  have short : unlocked.IsShort := Context.isShort_of_evaluate _ emptyShort unlocks
  refine .bind (.evaluate ⟨short, nofun⟩) fun opened _ => ?_
  refine .bind (.require _ _) fun _ _ => ?_
  refine .bind (spend.tracedWitness_records _ _ _) fun native _ => ?_
  dsimp only
  split
  · refine .bind (spend.tracedRedeem_records short) fun _ _ => ?_
    exact .bind (.require _ _) fun _ _ => .require _ _
  · refine .bind (.lift rfl) fun _ _ => ?_
    exact .bind (.require _ _) fun _ _ => .require _ _

/-- The questions of a spend are those of its evaluations, in the order in which they began. -/
theorem asked_verify :
    spend.verify.asked = spend.traced.begun.flatMap fun evaluation => evaluation.outcome.asked := by
  rw [← spend.outcome_traced]
  exact spend.traced_records.asked

/-- An evaluation that fails decides the spend. -/
theorem result_verify_of_begun {evaluation : Evaluation} (begun : evaluation ∈ spend.traced.begun)
    {error : ScriptError} (failed : evaluation.outcome.result = .error error) :
    spend.verify.result = .error error := by
  rw [← spend.outcome_traced]
  exact spend.traced_records.failed evaluation begun error failed

end Spend

/-- Limits hold after every instruction of every run that begins with short elements, and
every run of a spend begins with short elements. -/
theorem limits_hold_throughout_every_run :
    (∀ (context : Context) (stack : Stack), stack.IsShort →
      ∀ index < context.script.instructions.length, ∀ state,
        (context.stateAfter stack (index + 1)).result = .ok state →
          state.stack.length + state.alt.length ≤ 1000 ∧
          (∀ element ∈ state.stack ++ state.alt, element.length ≤ 520) ∧
          state.operations ≤ 201 ∧
          state.operations =
            (context.script.instructions.take (index + 1)).countP (·.opcode.isCounted) +
              context.keysAsked stack (index + 1) ∧
          state.branches.length ≤ 201) ∧
    ∀ spend : Spend, spend.traced.outcome = spend.verify ∧
      ∀ evaluation ∈ spend.traced.begun,
        (∀ element ∈ evaluation.stack, element.length ≤ 520) ∧
          (evaluation.stage = .redeem → evaluation.context.script.length ≤ 520) := by
  refine ⟨?_, fun spend => ⟨spend.outcome_traced, fun evaluation begun => ?_⟩⟩
  · intro context stack short index inside state reached
    obtain ⟨bounded, operations⟩ := context.stateAfter_bounded short inside reached
    have room := context.room_of_stateAfter inside reached
    refine ⟨room, ?_, bounded.operations, operations,
      Nat.le_trans bounded.branches bounded.operations⟩
    exact List.forall_mem_append.mpr ⟨bounded.stack, bounded.alt⟩
  · have isShort := spend.traced_records.begins evaluation begun
    exact ⟨isShort.stack, isShort.redeem⟩

def Script.oneUnusedKey : Script :=
  .ofInstructions [.push .direct [], .push .direct [], .op .one, .op .one, .op .checkMultisig]

theorem Script.instructions_oneUnusedKey : Script.oneUnusedKey.instructions =
    [.push .direct [], .push .direct [], .op .one, .op .one, .op .checkMultisig] :=
  instructions_ofInstructions (by decide)

/-- The check counts one operation for itself and one for its key. -/
theorem limits_hold_after_one_unused_key :
    ∃ state, (Context.stateAfter ⟨.oneUnusedKey, .standard, .refuse, .base⟩ [] (4 + 1)).result =
        .ok state ∧
      state.stack = [[1]] ∧ state.operations = 1 + 1 ∧ state.operations ≤ 201 ∧
      state.operations = (Script.oneUnusedKey.instructions.take (4 + 1)).countP
        (·.opcode.isCounted) +
          Context.keysAsked ⟨.oneUnusedKey, .standard, .refuse, .base⟩ [] (4 + 1) := by
  have emptyShort : Stack.IsShort [] := nofun
  have inside : 4 < Script.oneUnusedKey.instructions.length := by
    rw [Script.instructions_oneUnusedKey]
    decide
  have reached : (Context.stateAfter ⟨.oneUnusedKey, .standard, .refuse, .base⟩ []
      (4 + 1)).result = .ok ⟨[[1]], [], [], 1 + 1, 0⟩ := by
    rw [Context.stateAfter]
    dsimp only
    rw [Script.instructions_oneUnusedKey]
    rfl
  obtain ⟨-, -, few, counted, -⟩ := limits_hold_throughout_every_run.1
    ⟨.oneUnusedKey, .standard, .refuse, .base⟩ [] emptyShort 4 inside _ reached
  exact ⟨_, reached, rfl, rfl, few, counted⟩

end CoinSpend
