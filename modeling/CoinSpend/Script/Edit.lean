import CoinSpend.Script.Basic

/-!
# Cutting scripts

What a signature commits to is a part of the script: the end that follows a code
separator, without the remaining separators, and without the signature itself.
Cuts are made at the borders of instructions.
-/

namespace CoinSpend

namespace Instruction

/-- The bytes that follow `count` whole instructions and begin with another one. -/
def suffixAfter? (count : Nat) (bytes : Bytes) : Option Bytes :=
  match count, read? bytes with
  | _, none => none
  | 0, some _ => some bytes
  | remaining + 1, some (_, rest) => suffixAfter? remaining rest

/-- The bytes after the occurrences of a pattern at the front, and their number. -/
def skipPattern (pattern : Bytes) (found : Nat) (bytes : Bytes) : Bytes × Nat :=
  if pattern ≠ [] ∧ pattern.isPrefixOf bytes then
    skipPattern pattern (found + 1) (bytes.drop pattern.length)
  else
    (bytes, found)
termination_by bytes.length
decreasing_by
  rename_i occurs
  have fits := (List.isPrefixOf_iff_prefix.mp occurs.2).length_le
  have positive : 0 < pattern.length := List.length_pos_iff.mpr occurs.1
  simp only [List.length_drop]
  omega

theorem skipPattern_length (pattern : Bytes) (found : Nat) (bytes : Bytes) :
    (skipPattern pattern found bytes).1.length ≤ bytes.length := by
  fun_induction skipPattern pattern found bytes with
  | case1 found bytes occurs ih =>
      refine Nat.le_trans ih ?_
      simp
  | case2 => simp

/-- Leave out the occurrences of a pattern at the front of the instructions.  The
pieces kept so far are in `done`, held backwards; `found` counts what was left out. -/
def deleteFrom (pattern : Bytes) (done : List Bytes) (found : Nat) (bytes : Bytes) :
    List Bytes × Nat :=
  match _step : read? (skipPattern pattern found bytes).1 with
  | none => ((skipPattern pattern found bytes).1 :: done, (skipPattern pattern found bytes).2)
  | some (instruction, rest) =>
      deleteFrom pattern (instruction.encode :: done)
        (skipPattern pattern found bytes).2 rest
termination_by bytes.length
decreasing_by
  exact Nat.lt_of_lt_of_le (read?_length _step) (skipPattern_length pattern found bytes)

end Instruction

namespace Script

/-- The script from the instruction with a given index on.  Index zero is the whole
script; an index past the whole instructions gives the empty script. -/
def fromInstruction (script : Script) (index : Nat) : Script :=
  if index = 0 then
    script
  else
    ⟨(Instruction.suffixAfter? index script.bytes).getD []⟩

/-- The script without its code separators. -/
def withoutSeparators (script : Script) : Script :=
  ⟨((script.instructions.filter fun instruction => instruction.opcode ≠ .codeSeparator).flatMap
    Instruction.encode) ++ script.brokenEnd⟩

/-- The script without the occurrences of a pattern that begin where an
instruction begins, and the number of those occurrences. -/
def delete (script pattern : Script) : Script × Nat :=
  if pattern.isEmpty then
    (script, 0)
  else
    let (pieces, found) := Instruction.deleteFrom pattern.bytes [] 0 script.bytes
    (⟨pieces.reverse.flatten⟩, found)

end Script

end CoinSpend
