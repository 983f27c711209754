import CoinSpend.Proofs.ScriptCuts

/-!
# Cutting with cursors

On an array a script is cut by cursors.  One goes over the instructions and the occurrences of
the pattern; another stands behind what was copied last.  Both stay inside of the bytes, and what
is copied is what stays when the script is cut from the front.
-/

namespace CoinSpend

namespace Bytes

def between? (bytes : Bytes) (first past : Nat) : Option Bytes :=
  if first ≤ past ∧ past ≤ bytes.length then
    some ((bytes.drop first).take (past - first))
  else
    none

/-- The position of a cursor that has given bytes in front of it. -/
structure StandsAt (bytes : Bytes) (position : Nat) (rest : Bytes) : Prop where
  inside : position ≤ bytes.length
  drop : bytes.drop position = rest

namespace StandsAt

variable {bytes rest piece : Bytes} {position : Nat}

theorem start (bytes : Bytes) : StandsAt bytes 0 bytes :=
  ⟨Nat.zero_le _, rfl⟩

theorem length (stands : StandsAt bytes position rest) :
    position + rest.length = bytes.length := by
  have inside := stands.inside
  rw [← stands.drop, List.length_drop]
  omega

theorem between? (stands : StandsAt bytes position rest) (count : Nat) :
    bytes.between? position (position + count) =
      if count ≤ rest.length then some (rest.take count) else none := by
  have length := stands.length
  rw [Bytes.between?, stands.drop, Nat.add_sub_cancel_left]
  by_cases fits : count ≤ rest.length
  · rw [if_pos fits, if_pos (by omega)]
  · rw [if_neg fits, if_neg (by omega)]

theorem between?_end (stands : StandsAt bytes position rest) :
    bytes.between? position bytes.length = some rest := by
  rw [← stands.length, stands.between?, if_pos (Nat.le_refl _), List.take_length]

theorem between?_append (stands : StandsAt bytes position (piece ++ rest)) :
    bytes.between? position (position + piece.length) = some piece := by
  rw [stands.between?, if_pos (by rw [List.length_append]; omega), List.take_left]

theorem move (stands : StandsAt bytes position (piece ++ rest)) :
    StandsAt bytes (position + piece.length) rest := by
  have length := stands.length
  rw [List.length_append] at length
  refine ⟨by omega, ?_⟩
  rw [← List.drop_drop, stands.drop, List.drop_left]

end StandsAt

end Bytes

namespace Instruction

open Bytes (StandsAt)

def readDataAt? (bytes : Bytes) (form : PushForm) (length position : Nat) :
    Option (Instruction × Nat) :=
  (bytes.between? position (position + length)).map fun data =>
    (push form data, position + length)

def readFieldAt? (bytes : Bytes) (form : PushForm) (position : Nat) :
    Option (Instruction × Nat) :=
  match bytes.between? position (position + form.lengthWidth) with
  | none => none
  | some field => readDataAt? bytes form (Bytes.toNat field) (position + form.lengthWidth)

/-- The instruction at a position, and the position after it. -/
def readAt? (bytes : Bytes) (position : Nat) : Option (Instruction × Nat) :=
  match bytes[position]? with
  | none => none
  | some first =>
      match PushForm.ofOpcode? ⟨first⟩ with
      | none => some (op ⟨first⟩, position + 1)
      | some .direct => readDataAt? bytes .direct first.toNat (position + 1)
      | some form => readFieldAt? bytes form (position + 1)

theorem le_of_readDataAt? {bytes : Bytes} {form : PushForm} {length position next : Nat}
    {instruction : Instruction}
    (found : readDataAt? bytes form length position = some (instruction, next)) :
    position ≤ next := by
  obtain ⟨data, -, same⟩ := Option.map_eq_some_iff.mp found
  cases same
  exact Nat.le_add_right _ _

theorem lt_of_readAt? {bytes : Bytes} {position next : Nat} {instruction : Instruction}
    (found : readAt? bytes position = some (instruction, next)) :
    position < bytes.length ∧ position < next := by
  unfold readAt? at found
  split at found
  · cases found
  · rename_i first isFirst
    refine ⟨(List.getElem?_eq_some_iff.mp isFirst).1, ?_⟩
    split at found
    · cases found
      exact Nat.lt_succ_self _
    · exact le_of_readDataAt? found
    · unfold readFieldAt? at found
      split at found
      · cases found
      · have later := le_of_readDataAt? found
        omega

/-- Pass over the occurrences of a pattern from a position on. -/
def skipAt (pattern bytes : Bytes) (found position : Nat) : Nat × Nat :=
  if pattern ≠ [] ∧ bytes.between? position (position + pattern.length) = some pattern then
    skipAt pattern bytes (found + 1) (position + pattern.length)
  else
    (found, position)
termination_by bytes.length - position
decreasing_by
  rename_i occurs
  have positive : 0 < pattern.length := List.length_pos_iff.mpr occurs.1
  have inside : position + pattern.length ≤ bytes.length := by
    by_contra outside
    have missing := occurs.2
    rw [Bytes.between?, if_neg (fun bounds => outside bounds.2)] at missing
    cases missing
  omega

theorem le_skipAt (pattern bytes : Bytes) (found position : Nat) :
    position ≤ (skipAt pattern bytes found position).2 := by
  fun_induction skipAt pattern bytes found position with
  | case1 found position occurs ih => exact Nat.le_trans (Nat.le_add_right _ _) ih
  | case2 => exact Nat.le_refl _

/-- Copy what stands between the cursors, pass over the occurrences of a pattern, and go over one
instruction.  At the end the last cursor is returned, behind which nothing was copied. -/
def deleteAt (pattern bytes kept : Bytes) (found copiedTo position : Nat) :
    Option (Bytes × Nat × Nat) :=
  match bytes.between? copiedTo position with
  | none => none
  | some piece =>
      let skipped := skipAt pattern bytes found position
      if bytes.length ≤ skipped.2 then
        some (kept ++ piece, skipped)
      else
        match _read : readAt? bytes skipped.2 with
        | none => some (kept ++ piece, skipped)
        | some (_, next) => deleteAt pattern bytes (kept ++ piece) skipped.1 skipped.2 next
termination_by bytes.length - position
decreasing_by
  have bounds := lt_of_readAt? _read
  have later : position ≤ skipped.2 := le_skipAt pattern bytes found position
  omega

def dropSeparatorsAt (bytes kept : Bytes) (position : Nat) : Option Bytes :=
  if position < bytes.length then
    match _read : readAt? bytes position with
    | none => (bytes.between? position bytes.length).map (kept ++ ·)
    | some (instruction, next) =>
        if instruction.opcode ≠ .codeSeparator then
          match bytes.between? position next with
          | none => none
          | some piece => dropSeparatorsAt bytes (kept ++ piece) next
        else
          dropSeparatorsAt bytes kept next
  else
    some kept
termination_by bytes.length - position
decreasing_by
  all_goals
    have bounds := lt_of_readAt? _read
    omega

/-! ## Where the cursors stand -/

variable {bytes rest : Bytes} {position : Nat}

theorem readDataAt?_eq {form : PushForm} {length start : Nat}
    (stands : StandsAt bytes (start + 1 + form.lengthWidth) rest) :
    readDataAt? bytes form length (start + 1 + form.lengthWidth) =
      (readData? form length rest).map fun found => (found.1, start + found.1.size) := by
  rw [readDataAt?, stands.between?, readData?]
  by_cases enough : length ≤ rest.length
  · have size : (push form (rest.take length)).size = 1 + form.lengthWidth + length := by
      rw [size, List.length_take, Nat.min_eq_left enough]
    rw [if_pos enough, if_pos ((Bytes.hasAtLeast_eq_true_iff _ _).mpr enough),
      Option.map_some, Option.map_some, size]
    simp only [Nat.add_assoc]
  · rw [if_neg enough, if_neg (mt (Bytes.hasAtLeast_eq_true_iff _ _).mp enough)]
    rfl

theorem readFieldAt?_eq {form : PushForm} {start : Nat}
    (stands : StandsAt bytes (start + 1) rest) :
    readFieldAt? bytes form (start + 1) =
      (if Bytes.hasAtLeast rest form.lengthWidth then
        readData? form (Bytes.toNat (rest.take form.lengthWidth)) (rest.drop form.lengthWidth)
      else none).map fun found => (found.1, start + found.1.size) := by
  rw [readFieldAt?, stands.between?]
  by_cases enough : form.lengthWidth ≤ rest.length
  · have field : (rest.take form.lengthWidth).length = form.lengthWidth := by
      rw [List.length_take, Nat.min_eq_left enough]
    rw [← List.take_append_drop form.lengthWidth rest] at stands
    have behind := stands.move
    rw [field] at behind
    rw [if_pos enough, if_pos ((Bytes.hasAtLeast_eq_true_iff _ _).mpr enough)]
    exact readDataAt?_eq behind
  · rw [if_neg enough, if_neg (mt (Bytes.hasAtLeast_eq_true_iff _ _).mp enough)]
    rfl

theorem readAt?_eq (stands : StandsAt bytes position rest) :
    readAt? bytes position =
      (read? rest).map fun found => (found.1, position + found.1.size) := by
  unfold readAt?
  cases rest with
  | nil =>
      have length := stands.length
      have outside : bytes[position]? = none :=
        List.getElem?_eq_none (by rw [← length]; exact Nat.le_refl _)
      rw [outside]
      rfl
  | cons first tail =>
      have isFirst : bytes[position]? = some first := by
        have found := congrArg List.head? stands.drop
        rwa [List.head?_drop] at found
      have behind : StandsAt bytes (position + 1) tail :=
        (show StandsAt bytes position ([first] ++ tail) from stands).move
      rw [isFirst, read?]
      dsimp only
      cases PushForm.ofOpcode? ⟨first⟩ with
      | none => rfl
      | some form =>
          cases form with
          | direct => exact readDataAt?_eq behind
          | oneByte => exact readFieldAt?_eq behind
          | twoBytes => exact readFieldAt?_eq behind
          | fourBytes => exact readFieldAt?_eq behind

theorem standsAt_of_read? {instruction : Instruction} {later : Bytes}
    (stands : StandsAt bytes position rest) (found : read? rest = some (instruction, later)) :
    StandsAt bytes (position + instruction.size) later ∧
      readAt? bytes position = some (instruction, position + instruction.size) ∧
      bytes.between? position (position + instruction.size) = some instruction.encode := by
  have read := readAt?_eq stands
  rw [found] at read
  rw [← encode_of_read? found] at stands
  rw [← length_encode]
  exact ⟨stands.move, by rw [length_encode]; exact read, stands.between?_append⟩

theorem readAt?_of_stuck (stands : StandsAt bytes position rest) (stuck : read? rest = none) :
    readAt? bytes position = none := by
  rw [readAt?_eq stands, stuck]
  rfl

variable {pattern : Bytes}

theorem between?_eq_some_iff (stands : StandsAt bytes position rest) :
    bytes.between? position (position + pattern.length) = some pattern ↔
      pattern.isPrefixOf rest = true := by
  rw [stands.between?, List.isPrefixOf_iff_prefix, List.prefix_iff_eq_take]
  constructor
  · intro same
    split at same
    · exact (Option.some.inj same).symm
    · cases same
  · intro same
    have fits := congrArg List.length same
    rw [List.length_take] at fits
    rw [if_pos (by omega), ← same]

theorem skipAt_eq (found : Nat) (stands : StandsAt bytes position rest) :
    ∃ past, skipAt pattern bytes found position = ((skipPattern pattern found rest).2, past) ∧
      StandsAt bytes past (skipPattern pattern found rest).1 := by
  fun_induction skipPattern pattern found rest generalizing position with
  | case1 found rest occurs ih =>
      have front := List.prefix_iff_eq_append.mp (List.isPrefixOf_iff_prefix.mp occurs.2)
      have moved := stands
      rw [← front] at moved
      rw [skipAt, if_pos ⟨occurs.1, (between?_eq_some_iff stands).mpr occurs.2⟩]
      exact ih moved.move
  | case2 found rest misses =>
      rw [skipAt, if_neg fun occurs =>
        misses ⟨occurs.1, (between?_eq_some_iff stands).mp occurs.2⟩]
      exact ⟨position, rfl, stands⟩

/-- Copying between the cursors is keeping pieces. -/
theorem deleteAt_eq (pattern : Bytes) (done : List Bytes) (kept : Bytes) (found : Nat)
    {piece : Bytes} {copiedTo : Nat} (stands : StandsAt bytes position rest)
    (copies : bytes.between? copiedTo position = some piece)
    (holds : kept ++ piece = done.reverse.flatten) :
    ∃ copied past tail,
      deleteAt pattern bytes kept found copiedTo position =
        some (copied, (deleteFrom pattern done found rest).2, past) ∧
      bytes.between? past bytes.length = some tail ∧
      copied ++ tail = (deleteFrom pattern done found rest).1.reverse.flatten := by
  fun_induction deleteFrom pattern done found rest
    generalizing position kept piece copiedTo with
  | case1 done found rest stuck =>
      obtain ⟨past, skipped, standsPast⟩ := skipAt_eq found stands
      refine ⟨kept ++ piece, past, _, ?_, standsPast.between?_end, ?_⟩
      · rw [deleteAt, copies]
        dsimp only
        rw [skipped]
        split
        · rfl
        · split
          · rfl
          · rename_i read
            rw [readAt?_of_stuck standsPast stuck] at read
            cases read
      · rw [holds, List.reverse_cons, List.flatten_append, List.flatten_singleton]
  | case2 done found rest instruction later read ih =>
      obtain ⟨past, skipped, standsPast⟩ := skipAt_eq found stands
      obtain ⟨standsNext, readsAt, between⟩ := standsAt_of_read? standsPast read
      have heldNext : kept ++ piece ++ instruction.encode =
          (instruction.encode :: done).reverse.flatten := by
        rw [holds, List.reverse_cons, List.flatten_append, List.flatten_singleton]
      obtain ⟨copied, last, tail, runs, ends, total⟩ := ih _ standsNext between heldNext
      refine ⟨copied, last, tail, ?_, ends, total⟩
      have inside : ¬ bytes.length ≤ past :=
        Nat.not_le.mpr (lt_of_readAt? readsAt).1
      rw [deleteAt, copies]
      dsimp only
      rw [skipped, if_neg inside]
      split
      · rename_i stuck
        rw [readsAt] at stuck
        cases stuck
      · rename_i next same
        rw [readsAt] at same
        cases same
        exact runs

theorem dropSeparatorsAt_eq (kept : Bytes) (stands : StandsAt bytes position rest) :
    dropSeparatorsAt bytes kept position =
      some (kept ++ (((decode rest).1.filter fun instruction =>
        instruction.opcode ≠ .codeSeparator).flatMap encode ++ (decode rest).2)) := by
  induction shorter : rest.length using Nat.strongRecOn generalizing rest kept position with
  | ind length ih =>
      subst shorter
      have length := stands.length
      cases found : read? rest with
      | none =>
          rw [decode_eq_of_read?_none found, dropSeparatorsAt]
          split
          · split
            · rw [stands.between?_end]
              rfl
            · rename_i read
              rw [readAt?_of_stuck stands found] at read
              cases read
          · have noRest : rest = [] := List.length_eq_zero_iff.mp (by omega)
            rw [noRest, List.filter_nil, List.flatMap_nil, List.append_nil, List.append_nil]
      | some split =>
          obtain ⟨instruction, later⟩ := split
          obtain ⟨standsNext, readsAt, between⟩ := standsAt_of_read? stands found
          rw [decode_eq_of_read?_some found, dropSeparatorsAt,
            if_pos (lt_of_readAt? readsAt).1]
          split
          · rename_i stuck
            rw [readsAt] at stuck
            cases stuck
          · rename_i other next same
            rw [readsAt] at same
            cases same
            have next := fun kept =>
              ih later.length (read?_length found) kept standsNext rfl
            by_cases separates : instruction.opcode = .codeSeparator
            · rw [if_neg (not_not.mpr separates),
                List.filter_cons_of_neg (by simpa using separates)]
              exact next kept
            · rw [if_pos separates, between, List.filter_cons_of_pos (by simpa using separates)]
              dsimp only
              rw [next, List.flatMap_cons, List.append_assoc, List.append_assoc]

end Instruction

namespace Script

/-- `delete` with cursors.  It is `none` where a cursor would leave the bytes. -/
def deleteByCursors (script pattern : Script) : Option (Script × Nat) :=
  if pattern.isEmpty then
    some (script, 0)
  else
    match Instruction.deleteAt pattern.bytes script.bytes [] 0 0 0 with
    | none => none
    | some (kept, found, copiedTo) =>
        if found = 0 then
          some (script, 0)
        else
          (script.bytes.between? copiedTo script.bytes.length).map fun tail =>
            (⟨kept ++ tail⟩, found)

def withoutSeparatorsByCursor (script : Script) : Option Script :=
  (Instruction.dropSeparatorsAt script.bytes [] 0).map Script.mk

theorem deleteByCursors_eq (script pattern : Script) :
    script.deleteByCursors pattern = some (script.delete pattern) := by
  cases empty : pattern.isEmpty with
  | true => rw [deleteByCursors, delete, empty, if_pos rfl, if_pos rfl]
  | false =>
      have deletes := deletes script empty
      have start := Bytes.StandsAt.start script.bytes
      have nothing : script.bytes.between? 0 0 = some [] := by
        rw [start.between? 0, if_pos (Nat.zero_le _), List.take_zero]
      obtain ⟨copied, past, tail, runs, ends, total⟩ :=
        Instruction.deleteAt_eq pattern.bytes [] [] 0 start nothing rfl
      rw [deleteByCursors, empty, if_neg Bool.false_ne_true, runs]
      dsimp only
      rw [ends, Option.map_some, total]
      split
      · rename_i missing
        have counted : (script.delete pattern).2 = 0 := by
          rwa [delete_of_nonempty script empty]
        have same : (script.delete pattern).1 = script :=
          congrArg Script.mk (deletes.eq_of_none counted)
        exact congrArg some (Prod.ext same.symm counted.symm)
      · rw [delete_of_nonempty script empty]

theorem withoutSeparatorsByCursor_eq (script : Script) :
    script.withoutSeparatorsByCursor = some script.withoutSeparators := by
  rw [withoutSeparatorsByCursor, Instruction.dropSeparatorsAt_eq [] (.start script.bytes)]
  rfl

end Script

/-- Cuts of a script are made where instructions begin.  Every occurrence of a pattern that is
deleted accounts for its length, and without one the script stays as it is.  A pattern that is
one whole instruction leaves exactly the instructions that have other bytes, and what cannot be
decoded; it does not occur in the rest, and it does not matter which of two such patterns is
deleted first.  Leaving out the code separators is deleting one.  All this is what the cursors
do, which never leave the bytes. -/
theorem deletion_cuts_out_instructions (script : Script) :
    (∀ pattern : Script, pattern.isEmpty = false →
      (script.delete pattern).1.length + (script.delete pattern).2 * pattern.length =
          script.length ∧
        ((script.delete pattern).2 = 0 → (script.delete pattern).1 = script)) ∧
    (∀ pattern : Script, pattern.isSingle = true →
      script.delete pattern =
          (script.keep fun instruction => instruction.encode ≠ pattern.bytes,
            script.instructions.countP fun instruction =>
              instruction.encode = pattern.bytes) ∧
        (script.delete pattern).1.instructions = (script.instructions.filter fun instruction =>
          instruction.encode ≠ pattern.bytes) ∧
        (script.delete pattern).1.brokenEnd = script.brokenEnd ∧
        ((script.delete pattern).1.delete pattern).2 = 0) ∧
    (∀ first second : Script, first.isSingle = true → second.isSingle = true →
      ((script.delete first).1.delete second).1 = ((script.delete second).1.delete first).1) ∧
    script.withoutSeparators = (script.delete ⟨[Opcode.codeSeparator.byte]⟩).1 ∧
    (∀ pattern, script.deleteByCursors pattern = some (script.delete pattern)) ∧
    script.withoutSeparatorsByCursor = some script.withoutSeparators := by
  refine ⟨fun pattern nonempty => ?_, fun pattern single => ?_, fun first second one other => ?_,
    script.withoutSeparators_eq_delete, script.deleteByCursors_eq,
    script.withoutSeparatorsByCursor_eq⟩
  · have deletes := Script.deletes script nonempty
    exact ⟨deletes.length, fun missing => congrArg Script.mk (deletes.eq_of_none missing)⟩
  · have cut := Script.delete_of_isSingle single script
    refine ⟨cut, ?_, ?_, ?_⟩
    · rw [cut, Script.instructions_keep]
    · rw [cut, Script.brokenEnd_keep]
    · rw [cut, Script.delete_of_isSingle single, Script.instructions_keep, List.countP_filter]
      refine List.countP_eq_zero.mpr fun instruction _ => ?_
      simp
  · rw [Script.delete_of_isSingle one, Script.delete_of_isSingle other,
      Script.delete_of_isSingle other, Script.delete_of_isSingle one]
    exact script.keep_comm _ _

/-- A number, a push that holds a separator and the number, more of both, and a broken push. -/
def Script.onesAndSeparators : Script :=
  ⟨[0x51, 0x02, 0xab, 0x51, 0xab, 0x51, 0x51, 0x4c]⟩

/-- What stands within pushed data stays, and so does a push that runs past the end.  A pattern
that ends within an instruction is deleted as well. -/
theorem deletion_of_one_cuts_out_instructions :
    Script.isSingle ⟨[0x51]⟩ = true ∧ Script.isSingle ⟨[0xab]⟩ = true ∧
    Script.delete .onesAndSeparators ⟨[0x51]⟩ = (⟨[0x02, 0xab, 0x51, 0xab, 0x4c]⟩, 3) ∧
    Script.deleteByCursors .onesAndSeparators ⟨[0x51]⟩ =
      some (⟨[0x02, 0xab, 0x51, 0xab, 0x4c]⟩, 3) ∧
    (Script.delete ⟨[0x02, 0xab, 0x51, 0xab, 0x4c]⟩ ⟨[0x51]⟩).2 = 0 ∧
    (Script.delete ⟨[0x02, 0xab, 0x51, 0xab, 0x4c]⟩ ⟨[0xab]⟩).1 =
      ((Script.delete .onesAndSeparators ⟨[0xab]⟩).1.delete ⟨[0x51]⟩).1 ∧
    (Script.delete .onesAndSeparators ⟨[0x51, 0x02]⟩).1.length +
      (Script.delete .onesAndSeparators ⟨[0x51, 0x02]⟩).2 * 2 = 8 := by
  have number : Script.isSingle ⟨[0x51]⟩ = true := by decide +kernel
  have separator : Script.isSingle ⟨[0xab]⟩ = true := by decide +kernel
  have cut : Script.delete .onesAndSeparators ⟨[0x51]⟩ =
      (⟨[0x02, 0xab, 0x51, 0xab, 0x4c]⟩, 3) := by
    decide +kernel
  obtain ⟨sizes, singles, commute, -, cursors, -⟩ :=
    deletion_cuts_out_instructions .onesAndSeparators
  have missing := (singles _ number).2.2.2
  have either := commute _ _ number separator
  rw [cut] at missing either
  exact ⟨number, separator, cut, (cursors _).trans (congrArg some cut), missing, either,
    (sizes ⟨[0x51, 0x02]⟩ rfl).1⟩

end CoinSpend
