import CoinSpend.Proofs.Instructions
import CoinSpend.Script.Edit

/-!
# What is cut out of a script

Cuts are made where instructions begin.  A pattern that is one instruction is cut out by
keeping the other instructions, and what is decoded from the rest are just these.
So further cuts find what the first one left, whatever the order in which they are made.
-/

namespace CoinSpend

namespace Instruction

theorem read?_rest (bytes : Bytes) : read? (decode bytes).2 = none := by
  induction shorter : bytes.length using Nat.strongRecOn generalizing bytes with
  | ind length ih =>
      subst shorter
      cases found : read? bytes with
      | none => rwa [decode_eq_of_read?_none found]
      | some split =>
          obtain ⟨instruction, rest⟩ := split
          rw [decode_eq_of_read?_some found]
          exact ih rest.length (read?_length found) rest rfl

theorem size_pos (instruction : Instruction) : 0 < instruction.size := by
  cases instruction with
  | push form data =>
      change 0 < 1 + form.lengthWidth + data.length
      omega
  | op opcode => exact Nat.one_pos

theorem exists_encode_eq (instruction : Instruction) :
    ∃ tail, instruction.encode = instruction.opcode.byte :: tail := by
  cases instruction with
  | push form data => exact ⟨_, rfl⟩
  | op opcode => exact ⟨[], rfl⟩

theorem eq_of_opcode_eq_codeSeparator {instruction : Instruction}
    (wellFormed : instruction.WellFormed) (separates : instruction.opcode = .codeSeparator) :
    instruction = .op .codeSeparator := by
  cases instruction with
  | push form data =>
      have begun := PushForm.ofOpcode?_opcode wellFormed
      rw [show form.opcode data.length = .codeSeparator from separates] at begun
      cases begun
  | op opcode => exact congrArg op separates

theorem encode_eq_codeSeparator_iff {instruction : Instruction}
    (wellFormed : instruction.WellFormed) :
    instruction.encode = [Opcode.codeSeparator.byte] ↔ instruction.opcode = .codeSeparator := by
  constructor
  · intro same
    obtain ⟨tail, bytes⟩ := instruction.exists_encode_eq
    rw [bytes] at same
    exact congrArg Opcode.mk (List.cons.inj same).1
  · intro separates
    rw [eq_of_opcode_eq_codeSeparator wellFormed separates]
    rfl

/-- How a pattern is taken out of a byte string: where it stands at the front it goes, else
the first instruction stays, up to what cannot be decoded.  The relation holds of the bytes,
what is left of them, and the number of occurrences. -/
inductive Deletes (pattern : Bytes) : Bytes → Bytes → Nat → Prop
  | occurs {rest left : Bytes} {count : Nat} (later : Deletes pattern rest left count) :
      Deletes pattern (pattern ++ rest) left (count + 1)
  | keeps {bytes rest left : Bytes} {count : Nat} {instruction : Instruction}
      (misses : ¬ pattern <+: bytes) (found : read? bytes = some (instruction, rest))
      (later : Deletes pattern rest left count) :
      Deletes pattern bytes (instruction.encode ++ left) count
  | ends {bytes : Bytes} (misses : ¬ pattern <+: bytes) (stuck : read? bytes = none) :
      Deletes pattern bytes bytes 0

variable {pattern bytes left : Bytes} {count : Nat}

theorem skipPattern_misses (nonempty : pattern ≠ []) (found : Nat) (bytes : Bytes) :
    ¬ pattern <+: (skipPattern pattern found bytes).1 := by
  fun_induction skipPattern pattern found bytes with
  | case1 found bytes occurs ih => exact ih
  | case2 found bytes misses =>
      exact fun begins => misses ⟨nonempty, List.isPrefixOf_iff_prefix.mpr begins⟩

theorem deletes_of_skipPattern (found : Nat)
    (later : Deletes pattern (skipPattern pattern found bytes).1 left count) :
    ∃ skipped, (skipPattern pattern found bytes).2 = found + skipped ∧
      Deletes pattern bytes left (skipped + count) := by
  fun_induction skipPattern pattern found bytes with
  | case1 found bytes occurs ih =>
      obtain ⟨skipped, counted, deletes⟩ := ih later
      have front : pattern ++ bytes.drop pattern.length = bytes :=
        List.prefix_iff_eq_append.mp (List.isPrefixOf_iff_prefix.mp occurs.2)
      refine ⟨skipped + 1, by omega, ?_⟩
      rw [← front, Nat.add_right_comm]
      exact .occurs deletes
  | case2 found bytes misses =>
      refine ⟨0, rfl, ?_⟩
      rwa [Nat.zero_add]

/-- The pieces that are kept make up what is left. -/
theorem deleteFrom_deletes (nonempty : pattern ≠ []) (done : List Bytes) (found : Nat)
    (bytes : Bytes) :
    ∃ left count, Deletes pattern bytes left count ∧
      (deleteFrom pattern done found bytes).1.reverse.flatten = done.reverse.flatten ++ left ∧
      (deleteFrom pattern done found bytes).2 = found + count := by
  fun_induction deleteFrom pattern done found bytes with
  | case1 done found bytes stuck =>
      obtain ⟨skipped, counted, deletes⟩ :=
        deletes_of_skipPattern found (.ends (skipPattern_misses nonempty found bytes) stuck)
      refine ⟨_, _, deletes, ?_, counted⟩
      rw [List.reverse_cons, List.flatten_append, List.flatten_singleton]
  | case2 done found bytes instruction rest read ih =>
      obtain ⟨left, count, later, kept, total⟩ := ih
      obtain ⟨skipped, counted, deletes⟩ := deletes_of_skipPattern found
        (.keeps (skipPattern_misses nonempty found bytes) read later)
      refine ⟨_, _, deletes, ?_, ?_⟩
      · rw [kept, List.reverse_cons, List.flatten_append, List.flatten_singleton,
          List.append_assoc]
      · omega

namespace Deletes

theorem length (deletes : Deletes pattern bytes left count) :
    left.length + count * pattern.length = bytes.length := by
  induction deletes with
  | occurs later ih =>
      rw [List.length_append, Nat.succ_mul]
      omega
  | keeps misses found later ih =>
      have size := congrArg List.length (encode_of_read? found)
      rw [List.length_append] at size ⊢
      omega
  | ends misses stuck => rw [Nat.zero_mul, Nat.add_zero]

theorem eq_of_none (deletes : Deletes pattern bytes left count) (missing : count = 0) :
    left = bytes := by
  induction deletes with
  | occurs later ih => cases missing
  | keeps misses found later ih => rw [ih missing, encode_of_read? found]
  | ends misses stuck => rfl

theorem eq_of_longer (deletes : Deletes pattern bytes left count)
    (longer : bytes.length < pattern.length) : left = bytes := by
  refine deletes.eq_of_none (Nat.eq_zero_of_not_pos fun occurs => ?_)
  have once := Nat.mul_le_mul_right pattern.length (Nat.succ_le_of_lt occurs)
  have length := deletes.length
  omega

/-- A pattern that is one instruction is taken out by keeping the others. -/
theorem of_single {single : Instruction} (wellFormed : single.WellFormed)
    (deletes : Deletes single.encode bytes left count) :
    left = ((decode bytes).1.filter fun instruction =>
        instruction.encode ≠ single.encode).flatMap encode ++ (decode bytes).2 ∧
      count = (decode bytes).1.countP fun instruction =>
        instruction.encode = single.encode := by
  induction deletes with
  | occurs later ih =>
      obtain ⟨kept, counted⟩ := ih
      rw [decode_eq_of_read?_some (read?_encode_append wellFormed _),
        List.filter_cons_of_neg (by simp), List.countP_cons_of_pos (by simp)]
      exact ⟨kept, congrArg Nat.succ counted⟩
  | @keeps bytes rest left count instruction misses found later ih =>
      obtain ⟨kept, counted⟩ := ih
      have other : instruction.encode ≠ single.encode := by
        intro same
        exact misses ⟨rest, by rw [← same, encode_of_read? found]⟩
      rw [decode_eq_of_read?_some found, List.filter_cons_of_pos (by simpa using other),
        List.countP_cons_of_neg (by simpa using other), List.flatMap_cons, List.append_assoc]
      exact ⟨congrArg (instruction.encode ++ ·) kept, counted⟩
  | ends misses stuck =>
      rw [decode_eq_of_read?_none stuck]
      exact ⟨rfl, rfl⟩

end Deletes

end Instruction

namespace Script

variable {script pattern : Script}

theorem flatMap_encode_instructions (script : Script) :
    script.instructions.flatMap Instruction.encode ++ script.brokenEnd = script.bytes :=
  Instruction.flatMap_encode_decode script.bytes

/-! ## Keeping instructions -/

/-- The script with some of its instructions only.  What is left after the whole
instructions stays. -/
def keep (script : Script) (kept : Instruction → Bool) : Script :=
  ⟨(script.instructions.filter kept).flatMap Instruction.encode ++ script.brokenEnd⟩

theorem decode_keep (script : Script) (kept : Instruction → Bool) :
    Instruction.decode (script.keep kept).bytes =
      (script.instructions.filter kept, script.brokenEnd) := by
  have wellFormed : ∀ instruction ∈ script.instructions.filter kept,
      instruction.WellFormed :=
    fun instruction member => wellFormed_of_mem_instructions (List.mem_filter.mp member).1
  have stuck := Instruction.decode_eq_of_read?_none (Instruction.read?_rest script.bytes)
  rw [keep, Instruction.decode_flatMap_encode_append wellFormed, brokenEnd, stuck,
    List.append_nil]

@[simp] theorem instructions_keep (script : Script) (kept : Instruction → Bool) :
    (script.keep kept).instructions = script.instructions.filter kept := by
  rw [instructions, decode_keep]

@[simp] theorem brokenEnd_keep (script : Script) (kept : Instruction → Bool) :
    (script.keep kept).brokenEnd = script.brokenEnd := by
  rw [brokenEnd, decode_keep]

theorem keep_keep (script : Script) (first second : Instruction → Bool) :
    (script.keep first).keep second =
      script.keep fun instruction => first instruction && second instruction := by
  rw [keep, instructions_keep, brokenEnd_keep, List.filter_filter, keep]
  simp only [Bool.and_comm]

/-- Cuts of instructions can be made in any order. -/
theorem keep_comm (script : Script) (first second : Instruction → Bool) :
    (script.keep first).keep second = (script.keep second).keep first := by
  rw [keep_keep, keep_keep]
  simp only [Bool.and_comm]

theorem keep_congr {first second : Instruction → Bool}
    (alike : ∀ instruction ∈ script.instructions, first instruction = second instruction) :
    script.keep first = script.keep second := by
  rw [keep, keep, List.filter_congr alike]

theorem keep_of_all {kept : Instruction → Bool}
    (all : ∀ instruction ∈ script.instructions, kept instruction = true) :
    script.keep kept = script := by
  rw [keep, List.filter_eq_self.mpr all, flatMap_encode_instructions]

theorem withoutSeparators_eq_keep (script : Script) :
    script.withoutSeparators =
      script.keep fun instruction => instruction.opcode ≠ .codeSeparator :=
  rfl

/-! ## Deleting a pattern -/

theorem delete_of_nonempty (script : Script) (nonempty : pattern.isEmpty = false) :
    script.delete pattern =
      (⟨(Instruction.deleteFrom pattern.bytes [] 0 script.bytes).1.reverse.flatten⟩,
        (Instruction.deleteFrom pattern.bytes [] 0 script.bytes).2) := by
  rw [delete, nonempty]
  rfl

theorem deletes (script : Script) (nonempty : pattern.isEmpty = false) :
    Instruction.Deletes pattern.bytes script.bytes (script.delete pattern).1.bytes
      (script.delete pattern).2 := by
  obtain ⟨left, count, deletes, kept, counted⟩ := Instruction.deleteFrom_deletes
    (List.isEmpty_eq_false_iff.mp nonempty) [] 0 script.bytes
  rw [List.reverse_nil, List.flatten_nil, List.nil_append] at kept
  rw [Nat.zero_add] at counted
  rw [delete_of_nonempty script nonempty]
  dsimp only
  rwa [kept, counted]

def isSingle (script : Script) : Bool :=
  script.isWhole && script.instructions.length == 1

theorem isSingle_encode {instruction : Instruction} (wellFormed : instruction.WellFormed) :
    isSingle ⟨instruction.encode⟩ = true := by
  have decoded := Instruction.decode_eq_of_read?_some
    (Instruction.read?_encode_append wellFormed [])
  rw [List.append_nil, Instruction.decode_nil] at decoded
  rw [isSingle, isWhole, brokenEnd, instructions, decoded]
  rfl

theorem exists_of_isSingle (single : pattern.isSingle = true) :
    ∃ instruction : Instruction, instruction.WellFormed ∧ pattern.bytes = instruction.encode := by
  obtain ⟨whole, one⟩ := Bool.and_eq_true_iff.mp single
  obtain ⟨instruction, isInstruction⟩ := List.length_eq_one_iff.mp (beq_iff_eq.mp one)
  have bytes := pattern.flatMap_encode_instructions
  rw [isInstruction, List.isEmpty_iff.mp whole, List.append_nil, List.flatMap_singleton]
    at bytes
  have member : instruction ∈ pattern.instructions := by
    rw [isInstruction]
    exact List.mem_singleton_self instruction
  exact ⟨instruction, wellFormed_of_mem_instructions member, bytes.symm⟩

theorem isEmpty_of_isSingle (single : pattern.isSingle = true) : pattern.isEmpty = false := by
  obtain ⟨instruction, -, bytes⟩ := exists_of_isSingle single
  have positive : 0 < instruction.encode.length := by
    rw [Instruction.length_encode]
    exact instruction.size_pos
  rw [isEmpty, bytes]
  exact List.isEmpty_eq_false_iff.mpr (List.length_pos_iff.mp positive)

/-- Deleting an instruction is keeping the others. -/
theorem delete_of_isSingle (single : pattern.isSingle = true) (script : Script) :
    script.delete pattern =
      (script.keep fun instruction => instruction.encode ≠ pattern.bytes,
        script.instructions.countP fun instruction => instruction.encode = pattern.bytes) := by
  have deletes := deletes script (isEmpty_of_isSingle single)
  obtain ⟨instruction, wellFormed, bytes⟩ := exists_of_isSingle single
  rw [bytes] at deletes ⊢
  obtain ⟨left, count⟩ := deletes.of_single wellFormed
  exact Prod.ext (congrArg Script.mk left) count

/-- The separators are what is deleted with a separator as the pattern. -/
theorem withoutSeparators_eq_delete (script : Script) :
    script.withoutSeparators = (script.delete ⟨[Opcode.codeSeparator.byte]⟩).1 := by
  have single : isSingle ⟨[Opcode.codeSeparator.byte]⟩ = true :=
    isSingle_encode (show (Instruction.op .codeSeparator).WellFormed from rfl)
  rw [delete_of_isSingle single]
  refine keep_congr fun instruction member => decide_eq_decide.mpr (not_congr ?_)
  exact (Instruction.encode_eq_codeSeparator_iff (wellFormed_of_mem_instructions member)).symm

end Script

end CoinSpend
