import Mathlib.Control.Monad.Basic
import Mathlib.Data.Set.List
import CoinSpend.Interpreter.Checker

/-!
# When results are successes

A sequence of steps succeeds exactly if every step does.  The laws below take a
success apart into the successes of its steps, for plain results and for outcomes,
and carry the successes of one sequence over to another that is looser in each step.
-/

namespace CoinSpend

variable {α β : Type}

/-- A sequence of two results succeeds if the first does and the second does on its
value. -/
theorem Except.bind_eq_ok_iff {ε : Type} {first : Except ε α} {next : α → Except ε β}
    {value : β} :
    first >>= next = .ok value ↔ ∃ middle, first = .ok middle ∧ next middle = .ok value := by
  cases first with
  | error error =>
      constructor
      · intro impossible; cases impossible
      · rintro ⟨middle, impossible, -⟩; cases impossible
  | ok middle =>
      constructor
      · intro finished; exact ⟨middle, rfl, finished⟩
      · rintro ⟨same, found, finished⟩; cases found; exact finished

/-- A list of optional values is one of values exactly if none of them is missing. -/
theorem exists_map_eq_map_some_iff {find : α → Option β} {items : List α} :
    (∃ values : List β, items.map find = values.map some) ↔
      ∀ item ∈ items, ∃ value, find item = some value := by
  have ranged : (∃ values : List β, items.map find = values.map some) ↔
      items.map find ∈ Set.range (List.map (some : β → Option β)) :=
    exists_congr fun _ => eq_comm
  rw [ranged, Set.range_list_map]
  exact List.forall_mem_map.trans (forall₂_congr fun _ _ => exists_congr fun _ => eq_comm)

namespace Outcome

@[simp] theorem result_require_eq_ok_iff {condition : Bool} {error : ScriptError}
    {value : Unit} :
    (require condition error).result = .ok value ↔ condition = true := by
  cases condition with
  | false =>
      constructor
      · intro impossible; cases impossible
      · intro impossible; cases impossible
  | true => exact ⟨fun _ => rfl, fun _ => rfl⟩

theorem result_bind_eq_ok_iff {first : Outcome α} {next : α → Outcome β} {value : β} :
    (first >>= next).result = .ok value ↔
      ∃ middle, first.result = .ok middle ∧ (next middle).result = .ok value := by
  change (first.andThen next).result = .ok value ↔ _
  cases finished : first.result with
  | error error =>
      rw [andThen_of_error next finished]
      constructor
      · intro impossible; cases impossible
      · rintro ⟨middle, impossible, -⟩; cases impossible
  | ok middle =>
      rw [andThen_of_ok next finished]
      constructor
      · intro last; exact ⟨middle, rfl, last⟩
      · rintro ⟨same, found, last⟩; cases found; exact last

theorem result_require_bind_eq_ok_iff {condition : Bool} {error : ScriptError}
    {next : Unit → Outcome β} {value : β} :
    (require condition error >>= next).result = .ok value ↔
      condition = true ∧ (next ()).result = .ok value := by
  rw [result_bind_eq_ok_iff]
  constructor
  · rintro ⟨_, met, finished⟩
    exact ⟨result_require_eq_ok_iff.mp met, finished⟩
  · rintro ⟨met, finished⟩
    exact ⟨(), result_require_eq_ok_iff.mpr met, finished⟩

theorem result_bind_of_ok {first : Outcome α} {value : α} (next : α → Outcome β)
    (finished : first.result = .ok value) : (first >>= next).result = (next value).result := by
  change (first.andThen next).result = (next value).result
  rw [andThen_of_ok next finished]

theorem result_require_bind (condition : Bool) (error : ScriptError) (next : Unit → Outcome β) :
    (require condition error >>= next).result =
      if condition then (next ()).result else .error error := by
  cases condition <;> rfl

theorem mem_asked_bind {first : Outcome α} {next : α → Outcome β} {question : Question}
    (asked : question ∈ (first >>= next).asked) :
    question ∈ first.asked ∨ ∃ middle, first.result = .ok middle ∧
      question ∈ (next middle).asked := by
  change question ∈ (first.andThen next).asked at asked
  cases finished : first.result with
  | error error =>
      rw [andThen_of_error next finished] at asked
      exact Or.inl asked
  | ok middle =>
      rw [andThen_of_ok next finished] at asked
      exact (List.mem_append.mp asked).imp_right fun later => ⟨middle, rfl, later⟩

@[simp] theorem asked_require (condition : Bool) (error : ScriptError) :
    (require condition error).asked = [] := by
  cases condition <;> rfl

/-- A second step that asks nothing leaves the questions of the first. -/
theorem asked_bind_of_silent {first : Outcome α} {next : α → Outcome β}
    (silent : ∀ value, (next value).asked = []) : (first >>= next).asked = first.asked := by
  change (first.andThen next).asked = first.asked
  cases finished : first.result with
  | error error => rw [andThen_of_error next finished]
  | ok middle => rw [andThen_of_ok next finished, silent, List.append_nil]

theorem asked_require_bind {condition : Bool} {error : ScriptError} {next : Unit → Outcome β}
    (silent : (next ()).asked = []) : (require condition error >>= next).asked = [] :=
  (asked_bind_of_silent fun _ => silent).trans (asked_require condition error)

end Outcome

/-! ## Looser results -/

/-- Whatever succeeds under the strict rules succeeds under the loose ones, with the
same value. -/
def Relaxes (loose strict : Except ScriptError α) : Prop :=
  ∀ value, strict = .ok value → loose = .ok value

namespace Relaxes

theorem refl (result : Except ScriptError α) : Relaxes result result :=
  fun _ succeeded => succeeded

theorem bind {loose strict : Except ScriptError α}
    {looseNext strictNext : α → Except ScriptError β} (first : Relaxes loose strict)
    (next : ∀ value, Relaxes (looseNext value) (strictNext value)) :
    Relaxes (loose >>= looseNext) (strict >>= strictNext) := by
  intro value succeeded
  obtain ⟨middle, begun, finished⟩ := Except.bind_eq_ok_iff.mp succeeded
  exact Except.bind_eq_ok_iff.mpr ⟨middle, first middle begun, next middle value finished⟩

theorem map {loose strict : Except ScriptError α} (change : α → β)
    (first : Relaxes loose strict) : Relaxes (loose.map change) (strict.map change) := by
  intro value succeeded
  cases reached : strict with
  | error error => rw [reached] at succeeded; cases succeeded
  | ok middle => rw [first middle reached, ← reached, succeeded]

/-- A refusal under a stronger condition relaxes a refusal under a weaker one. -/
theorem guarded {loose strict : Bool} (weaker : loose = true → strict = true)
    (error : ScriptError) (rest : Except ScriptError α) :
    Relaxes (if loose then .error error else rest) (if strict then .error error else rest) := by
  intro value succeeded
  cases refused : strict with
  | true => rw [refused] at succeeded; cases succeeded
  | false =>
      rw [refused] at succeeded
      cases kept : loose with
      | true => rw [weaker kept] at refused; cases refused
      | false => exact succeeded

end Relaxes

namespace Outcome

/-- The result of one outcome relaxes the result of another. -/
def Relaxes (loose strict : Outcome α) : Prop :=
  CoinSpend.Relaxes loose.result strict.result

namespace Relaxes

theorem refl (outcome : Outcome α) : Relaxes outcome outcome :=
  CoinSpend.Relaxes.refl outcome.result

theorem bind {loose strict : Outcome α} {looseNext strictNext : α → Outcome β}
    (first : Relaxes loose strict)
    (next : ∀ value, Relaxes (looseNext value) (strictNext value)) :
    Relaxes (loose >>= looseNext) (strict >>= strictNext) := by
  intro value succeeded
  obtain ⟨middle, begun, finished⟩ := result_bind_eq_ok_iff.mp succeeded
  exact result_bind_eq_ok_iff.mpr ⟨middle, first middle begun, next middle value finished⟩

theorem require {loose strict : Bool} (weaker : strict = true → loose = true)
    (error : ScriptError) :
    Relaxes (Outcome.require loose error) (Outcome.require strict error) := by
  intro value met
  exact result_require_eq_ok_iff.mpr (weaker (result_require_eq_ok_iff.mp met))

theorem ite {condition : Prop} [Decidable condition]
    {loose strict otherLoose otherStrict : Outcome α} (yes : Relaxes loose strict)
    (no : Relaxes otherLoose otherStrict) :
    Relaxes (if condition then loose else otherLoose)
      (if condition then strict else otherStrict) := by
  split
  · exact yes
  · exact no

theorem guarded {loose strict : Bool} (weaker : loose = true → strict = true)
    (error : ScriptError) (rest : Outcome α) :
    Relaxes (if loose then fail error else rest) (if strict then fail error else rest) := by
  have relaxed := CoinSpend.Relaxes.guarded weaker error rest.result
  cases loose <;> cases strict <;> exact relaxed

theorem ofExcept {loose strict : Except ScriptError α}
    (relaxed : CoinSpend.Relaxes loose strict) :
    Relaxes (Outcome.ofExcept loose) (Outcome.ofExcept strict) :=
  relaxed

end Relaxes

end Outcome

end CoinSpend
