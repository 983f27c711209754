import CoinSpend.Proofs.PushedElements

/-!
# Minimal pushes

Every byte string is pushed by one instruction in fewer bytes than by any other.  The rule for
minimal pushes looks at the opcode alone, but an opcode and the data behind it are the whole
instruction, so the rule lets just this instruction pass.
-/

namespace CoinSpend

namespace PushForm

theorem maxLength_le_fourBytes (form : PushForm) : form.maxLength ≤ fourBytes.maxLength := by
  cases form <;> decide

theorem lengthWidth_shortest_lt {form : PushForm} {length : Nat} (fits : length ≤ form.maxLength)
    (other : form ≠ shortest length) : (shortest length).lengthWidth < form.lengthWidth := by
  unfold shortest at other ⊢
  cases form with
  | direct => exact absurd (if_pos fits).symm other
  | oneByte =>
      have most : length ≤ 0xff := fits
      rw [if_pos most] at other ⊢
      split_ifs at other ⊢
      · decide
      · exact absurd rfl other
  | twoBytes =>
      have most : length ≤ 0xffff := fits
      rw [if_pos most] at other ⊢
      split_ifs at other ⊢
      · decide
      · decide
      · exact absurd rfl other
  | fourBytes =>
      split_ifs at other ⊢
      · decide
      · decide
      · decide
      · exact absurd rfl other

end PushForm

namespace Instruction

/-! ## The shortest instruction -/

/-- The instruction that pushes `data` in the fewest bytes. -/
def minimalFor (data : Bytes) : Instruction :=
  match data with
  | [byte] =>
      if 1 ≤ byte ∧ byte ≤ 16 then .op ⟨0x50 + byte⟩
      else if byte = 0x81 then .op .negate1
      else Script.pushOf [byte]
  | _ => Script.pushOf data

theorem toNat_lt_of_pushed?_op {opcode : Opcode} {data : Bytes}
    (pushed : pushed? (.op opcode) = some data) : opcode.byte.toNat < 0x61 := by
  have uncounted := isCounted_op_of_pushed? pushed
  rw [Opcode.isCounted, decide_eq_false_iff_not, UInt8.not_lt] at uncounted
  exact Nat.lt_succ_of_le (UInt8.le_iff_toNat_le.mp uncounted)

theorem of_pushed?_op {opcode : Opcode} {data : Bytes} (pushed : pushed? (.op opcode) = some data) :
    (op opcode).WellFormed ∧ data.length = 1 ∧ minimalFor data = .op opcode := by
  obtain ⟨byte⟩ := opcode
  have below : byte.toNat < 0x61 := toNat_lt_of_pushed?_op pushed
  have all : ∀ data ∈ pushed? (.op ⟨byte⟩),
      (op ⟨byte⟩).WellFormed ∧ data.length = 1 ∧ minimalFor data = .op ⟨byte⟩ := by
    apply Bytes.of_table below
    decide +kernel
  exact all data pushed

theorem pushed?_smallNumber {byte : UInt8} (positive : 1 ≤ byte) (small : byte ≤ 16) :
    pushed? (.op ⟨0x50 + byte⟩) = some [byte] := by
  have below : byte.toNat < 17 := Nat.lt_succ_of_le (UInt8.le_iff_toNat_le.mp small)
  revert positive
  apply Bytes.of_table below
  decide +kernel

/-- What is shorter than every push is a number of its own. -/
theorem minimalFor_eq (data : Bytes) :
    minimalFor data = Script.pushOf data ∨
      ∃ opcode, minimalFor data = .op opcode ∧ pushed? (.op opcode) = some data := by
  match data with
  | [] => exact .inl rfl
  | [byte] =>
      rw [minimalFor]
      split_ifs with small negative
      · exact .inr ⟨_, rfl, pushed?_smallNumber small.1 small.2⟩
      · rw [negative]
        exact .inr ⟨_, rfl, rfl⟩
      · exact .inl rfl
  | _ :: _ :: _ => exact .inl rfl

theorem opcode_minimalFor (data : Bytes) : (minimalFor data).opcode = minimalOpcode data := by
  match data with
  | [] => rfl
  | [byte] =>
      rw [minimalFor, minimalOpcode]
      split
      · rfl
      · split <;> rfl
  | _ :: _ :: _ => rfl

theorem eq_of_opcode_eq {first second : Instruction} {data : Bytes}
    (firstWellFormed : first.WellFormed) (secondWellFormed : second.WellFormed)
    (firstPushes : first.pushed? = some data) (secondPushes : second.pushed? = some data)
    (same : first.opcode = second.opcode) : first = second := by
  cases first with
  | push form _ =>
      cases firstPushes
      have begun := PushForm.ofOpcode?_opcode firstWellFormed
      cases second with
      | push other _ =>
          cases secondPushes
          have alsoBegun := PushForm.ofOpcode?_opcode secondWellFormed
          change form.opcode data.length = other.opcode data.length at same
          rw [same, alsoBegun] at begun
          rw [Option.some.inj begun]
      | op opcode =>
          have single : PushForm.ofOpcode? opcode = none := secondWellFormed
          rw [show form.opcode data.length = opcode from same, single] at begun
          cases begun
  | op opcode =>
      have single : PushForm.ofOpcode? opcode = none := firstWellFormed
      cases second with
      | push other _ =>
          cases secondPushes
          have begun := PushForm.ofOpcode?_opcode secondWellFormed
          rw [← show opcode = other.opcode data.length from same, single] at begun
          cases begun
      | op other => exact congrArg op same

section Pushes

variable {instruction : Instruction} {data : Bytes} (wellFormed : instruction.WellFormed)
  (pushed : instruction.pushed? = some data)

include wellFormed pushed

theorem pushes_minimalFor :
    (minimalFor data).WellFormed ∧ (minimalFor data).pushed? = some data := by
  cases instruction with
  | op opcode =>
      rw [(of_pushed?_op pushed).2.2]
      exact ⟨wellFormed, pushed⟩
  | push form _ =>
      cases pushed
      rcases minimalFor_eq data with isPush | ⟨opcode, isNumber, pushed⟩
      · rw [isPush]
        have fits := Nat.le_trans wellFormed form.maxLength_le_fourBytes
        exact ⟨Script.wellFormed_pushOf fits, rfl⟩
      · rw [isNumber]
        exact ⟨(of_pushed?_op pushed).1, pushed⟩

/-- Every other instruction that pushes the same data takes more bytes. -/
theorem size_minimalFor_lt (other : instruction ≠ minimalFor data) :
    (minimalFor data).size < instruction.size := by
  cases instruction with
  | op opcode => exact absurd (of_pushed?_op pushed).2.2.symm other
  | push form _ =>
      cases pushed
      rcases minimalFor_eq data with isPush | ⟨opcode, isNumber, pushed⟩
      · rw [isPush] at other ⊢
        have otherForm : form ≠ PushForm.shortest data.length := by
          rintro rfl
          exact other rfl
        have wider := PushForm.lengthWidth_shortest_lt wellFormed otherForm
        simp only [Script.pushOf, size]
        omega
      · have single := (of_pushed?_op pushed).2.1
        rw [isNumber]
        simp only [size]
        omega

/-- Where the shortest form is required, the shortest instruction passes and no other. -/
theorem isAllowed_iff (requireMinimal : Bool) :
    instruction.IsAllowed requireMinimal ↔
      data.length ≤ Limits.maxElementSize ∧
        (requireMinimal = true → instruction = minimalFor data) := by
  cases instruction with
  | op opcode =>
      obtain ⟨-, single, isMinimal⟩ := of_pushed?_op pushed
      have short : data.length ≤ Limits.maxElementSize := by
        rw [single]
        decide
      exact iff_of_true trivial ⟨short, fun _ => isMinimal.symm⟩
  | push form _ =>
      cases pushed
      obtain ⟨minimalWellFormed, minimalPushes⟩ := pushes_minimalFor wellFormed rfl
      refine and_congr_right fun _ => imp_congr_right fun _ => ?_
      rw [isMinimalPush, beq_iff_eq, ← opcode_minimalFor]
      exact ⟨eq_of_opcode_eq wellFormed minimalWellFormed rfl minimalPushes, congrArg opcode⟩

end Pushes

end Instruction

/-! ## Scripts of one instruction -/

theorem Context.evaluate_single_eq_ok_iff {instruction : Instruction} {data : Bytes}
    {flags : Flags} {checker : Checker} {version : SignatureVersion} {left : Stack}
    (wellFormed : instruction.WellFormed) (pushed : instruction.pushed? = some data) :
    (evaluate ⟨.ofInstructions [instruction], flags, checker, version⟩ []).result = .ok left ↔
      instruction.IsAllowed (flags.has .minimalData) ∧ left = [data] := by
  have allWellFormed : ∀ only ∈ [instruction], only.WellFormed :=
    List.forall_mem_singleton.mpr wellFormed
  have pushes := Script.isPushOnly_ofInstructions allWellFormed
    (List.forall_mem_singleton.mpr (Instruction.isCounted_of_pushed? wellFormed pushed))
  rw [evaluate_of_isPushOnly_eq_ok_iff pushes]
  dsimp only
  rw [Script.instructions_ofInstructions allWellFormed, List.forall_mem_singleton,
    List.map_singleton, pushed]
  constructor
  · rintro ⟨-, allowed, -, elements, same, rfl⟩
    obtain rfl : [data] = elements := (List.map_injective_iff.mpr (Option.some_injective _)) same
    exact ⟨allowed, rfl⟩
  · rintro ⟨allowed, rfl⟩
    have room : 1 ≤ Limits.maxStackSize := by decide
    exact ⟨Script.length_single_le allowed, allowed, fun _ => room, [data], rfl, rfl⟩

def Instruction.IsPush : Instruction → Prop
  | push _ _ => True
  | op opcode => opcode = .negate1 ∨ opcode.isSmallNumber = true

theorem Instruction.isPush_iff {instruction : Instruction} :
    instruction.IsPush ↔ ∃ data, instruction.pushed? = some data := by
  cases instruction with
  | push form data => exact iff_of_true trivial ⟨data, rfl⟩
  | op opcode =>
      constructor
      · intro isPush
        have isNumber : ∃ value, Operation.ofOpcode opcode = .number value := by
          unfold Operation.ofOpcode
          split_ifs with negative isSmall
          · exact ⟨_, rfl⟩
          · exact ⟨_, rfl⟩
          · exact absurd isPush (not_or.mpr ⟨negative, isSmall⟩)
        obtain ⟨value, isNumber⟩ := isNumber
        exact ⟨ScriptNumber.encode value, by rw [pushed?, isNumber]⟩
      · rintro ⟨data, pushed⟩
        exact Script.isNumber_of_pushed?_op pushed

namespace Script

/-- A script of one instruction, a push of data or a number of its own, that leaves `data` on the
empty stack where no flag is set. -/
structure PushesAlone (checker : Checker) (version : SignatureVersion) (script : Script)
    (data : Bytes) : Prop where
  whole : script.isWhole = true
  single : ∃ instruction, script.instructions = [instruction] ∧ instruction.IsPush
  leaves : (Context.evaluate ⟨script, .none, checker, version⟩ []).result = .ok [data]

variable {checker : Checker} {version : SignatureVersion} {script : Script} {data : Bytes}

theorem pushesAlone_iff :
    script.PushesAlone checker version data ↔
      data.length ≤ Limits.maxElementSize ∧ ∃ instruction : Instruction,
        instruction.WellFormed ∧ instruction.pushed? = some data ∧
          script = ofInstructions [instruction] := by
  constructor
  · rintro ⟨whole, ⟨instruction, isSingle, isPush⟩, leaves⟩
    have isScript := ofInstructions_instructions whole
    have wellFormed : instruction.WellFormed := by
      apply wellFormed_of_mem_instructions
      rw [isSingle]
      exact List.mem_singleton_self _
    rw [isSingle] at isScript
    obtain ⟨element, pushed⟩ := Instruction.isPush_iff.mp isPush
    rw [← isScript, Context.evaluate_single_eq_ok_iff wellFormed pushed] at leaves
    obtain ⟨allowed, isLeft⟩ := leaves
    cases isLeft
    exact ⟨((Instruction.isAllowed_iff wellFormed pushed _).mp allowed).1, instruction, wellFormed,
      pushed, isScript.symm⟩
  · rintro ⟨short, instruction, wellFormed, pushed, rfl⟩
    have allWellFormed : ∀ only ∈ [instruction], only.WellFormed :=
      List.forall_mem_singleton.mpr wellFormed
    refine ⟨isWhole_ofInstructions allWellFormed,
      ⟨instruction, instructions_ofInstructions allWellFormed,
        Instruction.isPush_iff.mpr ⟨data, pushed⟩⟩, ?_⟩
    rw [Context.evaluate_single_eq_ok_iff wellFormed pushed,
      Instruction.isAllowed_iff wellFormed pushed]
    exact ⟨⟨short, nofun⟩, rfl⟩

/-- Where minimal pushes are required, a script of one push is carried out exactly if no other
such script that leaves the same data is as short. -/
theorem single_push_passes_iff_shortest {flags : Flags} (required : flags.has .minimalData = true)
    (alone : script.PushesAlone checker version data) :
    (∃ left, (Context.evaluate ⟨script, flags, checker, version⟩ []).result = .ok left) ↔
      ¬ ∃ other : Script, other ≠ script ∧ other.PushesAlone checker version data ∧
        other.length ≤ script.length := by
  obtain ⟨short, instruction, wellFormed, pushed, rfl⟩ := pushesAlone_iff.mp alone
  have passes : (∃ left, (Context.evaluate
      ⟨ofInstructions [instruction], flags, checker, version⟩ []).result = .ok left) ↔
        instruction = Instruction.minimalFor data := by
    simp [Context.evaluate_single_eq_ok_iff wellFormed pushed,
      Instruction.isAllowed_iff wellFormed pushed, required, short]
  rw [passes]
  constructor
  · rintro rfl ⟨other, different, otherAlone, asShort⟩
    obtain ⟨-, rival, rivalWellFormed, rivalPushes, rfl⟩ := pushesAlone_iff.mp otherAlone
    have longer := Instruction.size_minimalFor_lt rivalWellFormed rivalPushes
      (fun same => different (by rw [same]))
    rw [length_single, length_single] at asShort
    exact Nat.not_lt_of_le asShort longer
  · intro unrivalled
    by_contra wasteful
    have shorter := Instruction.size_minimalFor_lt wellFormed pushed wasteful
    obtain ⟨minimalWellFormed, minimalPushes⟩ := Instruction.pushes_minimalFor wellFormed pushed
    rw [← length_single, ← length_single] at shorter
    refine unrivalled ⟨ofInstructions [Instruction.minimalFor data], ?_, ?_, Nat.le_of_lt shorter⟩
    · intro same
      rw [same] at shorter
      exact Nat.lt_irrefl _ shorter
    · exact pushesAlone_iff.mpr ⟨short, _, minimalWellFormed, minimalPushes, rfl⟩

/-- The byte `81` is pushed by the opcode for -1, which has no rival, and so it is not accepted as
a push of one byte. -/
theorem minus_one_is_pushed_by_its_opcode :
    (¬ ∃ other : Script, other ≠ ⟨[0x4f]⟩ ∧ other.PushesAlone .refuse .base [0x81] ∧
      other.length ≤ 1) ∧
    ¬ ∃ left,
      (Context.evaluate ⟨⟨[0x01, 0x81]⟩, .standard, .refuse, .base⟩ []).result = .ok left := by
  have negative : PushesAlone .refuse .base ⟨[0x4f]⟩ [0x81] :=
    pushesAlone_iff.mpr ⟨by decide, .op .negate1, by decide, rfl, rfl⟩
  have literal : PushesAlone .refuse .base ⟨[0x01, 0x81]⟩ [0x81] :=
    pushesAlone_iff.mpr ⟨by decide, .push .direct [0x81], by decide, rfl, rfl⟩
  have required : Flags.standard.has .minimalData = true := by decide
  have isOpcode : (Instruction.op .negate1).WellFormed := by decide
  constructor
  · refine (single_push_passes_iff_shortest required negative).mp ⟨[[0x81]], ?_⟩
    exact (Context.evaluate_single_eq_ok_iff isOpcode rfl).mpr ⟨trivial, rfl⟩
  · rw [single_push_passes_iff_shortest required literal, not_not]
    exact ⟨⟨[0x4f]⟩, by decide, negative, by decide⟩

/-- The depth of the empty stack is no push, though it leaves the same as a push of nothing. -/
example : (Context.evaluate ⟨⟨[0x74]⟩, .none, .refuse, .base⟩ []).result =
    .ok [[]] := by
  decide +kernel

end Script

end CoinSpend
