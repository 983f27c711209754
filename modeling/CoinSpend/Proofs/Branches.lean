import Mathlib.Data.List.Count
import CoinSpend.Interpreter.Evaluation

/-!
# Branches and what binds skipped instructions

Where instructions are skipped two things still count: how they open, turn and close branches,
and the rules that no instruction may break.  Marks are balanced if whatever turns or closes a
branch finds one that is open and if none is open at the end.  One pass that counts the open
branches decides that.
-/

namespace CoinSpend

/-! ## Marks -/

/-- What an instruction does to the branches around it. -/
inductive BranchMark where
  | opens
  | turns
  | closes
  | none
  deriving DecidableEq, Repr

namespace BranchMark

/-- How many branches are open after a mark.  Only an open branch can be turned or closed. -/
def next? : BranchMark → Nat → Option Nat
  | opens, depth => some (depth + 1)
  | turns, depth + 1 => some (depth + 1)
  | closes, depth + 1 => some depth
  | none, depth => some depth
  | turns, 0 => Option.none
  | closes, 0 => Option.none

def openAfter? (depth : Nat) : List BranchMark → Option Nat
  | [] => some depth
  | mark :: rest => (mark.next? depth).bind fun next => openAfter? next rest

theorem openAfter?_append (depth : Nat) (first second : List BranchMark) :
    openAfter? depth (first ++ second) =
      (openAfter? depth first).bind fun next => openAfter? next second := by
  induction first generalizing depth with
  | nil => rfl
  | cons mark rest ih =>
      rw [List.cons_append, openAfter?, openAfter?, Option.bind_assoc]
      simp only [ih]

/-- Whatever turns or closes a branch has an open one before it, and in the end all are
closed. -/
structure Balanced (marks : List BranchMark) : Prop where
  within : ∀ before mark after, marks = before ++ mark :: after → mark = turns ∨ mark = closes →
    before.count closes < before.count opens
  settled : marks.count closes = marks.count opens

theorem forall_eq_append_cons {α : Type} {first : α} {rest : List α}
    {property : List α → α → Prop} :
    (∀ before item after, first :: rest = before ++ item :: after → property before item) ↔
      property [] first ∧
        ∀ before item after, rest = before ++ item :: after → property (first :: before) item := by
  constructor
  · intro all
    refine ⟨all [] first rest rfl, ?_⟩
    rintro before item after rfl
    exact all (first :: before) item after rfl
  · rintro ⟨head, later⟩ before item after same
    cases before with
    | nil =>
        cases same
        exact head
    | cons other before =>
        cases same
        exact later before item after rfl

/-- Counting succeeds exactly if no branch is missing on the way, and then it gives what is left
of the open branches. -/
theorem openAfter?_eq_some_iff {depth final : Nat} {marks : List BranchMark} :
    openAfter? depth marks = some final ↔
      (∀ before mark after, marks = before ++ mark :: after → mark = turns ∨ mark = closes →
        before.count closes < depth + before.count opens) ∧
      final + marks.count closes = depth + marks.count opens := by
  induction marks generalizing depth with
  | nil => simp [openAfter?, eq_comm]
  | cons mark rest ih =>
      rw [forall_eq_append_cons]
      cases mark with
      | opens =>
          simp only [openAfter?, next?, Option.bind_some, ih]
          simp [Nat.add_assoc, Nat.add_comm 1]
      | turns =>
          cases depth with
          | zero => simp [openAfter?, next?]
          | succ depth =>
              simp only [openAfter?, next?, Option.bind_some, ih]
              simp
      | closes =>
          cases depth with
          | zero => simp [openAfter?, next?]
          | succ depth =>
              simp only [openAfter?, next?, Option.bind_some, ih]
              simp [Nat.add_right_comm depth 1, ← Nat.add_assoc]
      | none =>
          simp only [openAfter?, next?, Option.bind_some, ih]
          simp

theorem balanced_iff {marks : List BranchMark} :
    Balanced marks ↔ openAfter? 0 marks = some 0 := by
  rw [openAfter?_eq_some_iff]
  simp only [Nat.zero_add]
  exact ⟨fun balanced => ⟨balanced.within, balanced.settled⟩, fun ⟨within, settled⟩ =>
    ⟨within, settled⟩⟩

instance (marks : List BranchMark) : Decidable (Balanced marks) :=
  decidable_of_iff _ balanced_iff.symm

/-- A branch may be turned more than once, but only while it is open. -/
example : Balanced [opens, turns, turns, closes] ∧ ¬ Balanced [turns, opens, closes] := by
  decide

end BranchMark

/-! ## Opcodes and their operations -/

namespace Opcode

def ifFalse : Opcode := ⟨0x64⟩
def verIf : Opcode := ⟨0x65⟩
def verNotIf : Opcode := ⟨0x66⟩
def otherwise : Opcode := ⟨0x67⟩

def branchMark (opcode : Opcode) : BranchMark :=
  if opcode = ifTrue ∨ opcode = ifFalse then .opens
  else if opcode = otherwise then .turns
  else if opcode = endIf then .closes
  else .none

/-- Whether an opcode fails even where it is skipped. -/
def isForbidden (opcode : Opcode) : Bool :=
  opcode.isDisabled || opcode == verIf || opcode == verNotIf

theorem forall_of_bytes {property : Opcode → Prop}
    (table : ∀ byte : Fin 256, property ⟨UInt8.ofNat byte⟩) (opcode : Opcode) :
    property opcode := by
  have found := table ⟨opcode.byte.toNat, opcode.byte.toNat_lt⟩
  rwa [UInt8.ofNat_toNat] at found

/-- The conditionals are what marks a branch, and two opcodes that always fail. -/
theorem isConditional_eq : ∀ opcode : Opcode, Context.isConditional opcode =
    (opcode.branchMark != .none || opcode == verIf || opcode == verNotIf) :=
  forall_of_bytes (by decide +kernel)

end Opcode

def Operation.branchMark : Operation → BranchMark
  | openBranch _ => .opens
  | flipBranch => .turns
  | closeBranch => .closes
  | _ => .none

theorem Operation.branchMark_ofOpcode :
    ∀ opcode, (Operation.ofOpcode opcode).branchMark = opcode.branchMark :=
  Opcode.forall_of_bytes (by decide +kernel)

/-! ## Instructions -/

namespace Instruction

def branchMark : Instruction → BranchMark
  | push _ _ => .none
  | op opcode => opcode.branchMark

/-- What is asked of every instruction, executed or not. -/
structure Permitted (instruction : Instruction) : Prop where
  brief : ∀ data, instruction.data? = some data → data.length ≤ Limits.maxElementSize
  enabled : instruction.opcode.isForbidden = false

theorem permitted_iff {instruction : Instruction} :
    instruction.Permitted ↔
      instruction.data?.all (fun data => data.length ≤ Limits.maxElementSize) = true ∧
        instruction.opcode.isForbidden = false := by
  simp only [Option.all_eq_true, decide_eq_true_iff]
  exact ⟨fun permitted => ⟨permitted.brief, permitted.enabled⟩, fun ⟨brief, enabled⟩ =>
    ⟨brief, enabled⟩⟩

instance (instruction : Instruction) : Decidable instruction.Permitted :=
  decidable_of_iff _ permitted_iff.symm

end Instruction

def Script.branchMarks (script : Script) : List BranchMark :=
  script.instructions.map Instruction.branchMark

end CoinSpend
