import Mathlib.Data.List.Forall2
import CoinSpend.Script.Text

/-!
# Reading a script text is undoing its writing

A script is written as words that are free of blanks, so that the text falls into the
same words again.  Every word that is written stands for the bytes it was written for:
hexadecimal literals by their digits, small numbers as decimal numbers, and the other
opcodes by their names.
-/

namespace CoinSpend

namespace Text

/-! ## Words -/

/-- A piece of text that is not cut. -/
structure IsWord (word : List Char) : Prop where
  ne_nil : word ≠ []
  noBlank : ∀ char ∈ word, isBlank char = false

theorem isWord_iff {word : List Char} :
    (word ≠ [] ∧ word.all (!isBlank ·) = true) ↔ IsWord word := by
  simp only [List.all_eq_true, Bool.not_eq_true']
  exact ⟨fun both => ⟨both.1, both.2⟩, fun isWord => ⟨isWord.ne_nil, isWord.noBlank⟩⟩

instance (word : List Char) : Decidable (IsWord word) :=
  decidable_of_iff (word ≠ [] ∧ word.all (!isBlank ·) = true) isWord_iff

theorem wordsFrom_append {word : List Char} (noBlank : ∀ char ∈ word, isBlank char = false)
    (begun rest : List Char) :
    wordsFrom begun (word ++ rest) = wordsFrom (word.reverse ++ begun) rest := by
  induction word generalizing begun with
  | nil => rfl
  | cons char word ih =>
      obtain ⟨first, noBlank⟩ := List.forall_mem_cons.mp noBlank
      rw [List.cons_append, wordsFrom, if_neg (by rw [first]; exact Bool.false_ne_true),
        ih noBlank, List.reverse_cons, List.append_assoc, List.singleton_append]

theorem closeWord_reverse {word : List Char} (isWord : IsWord word)
    (words : List (List Char)) : closeWord word.reverse words = word :: words := by
  cases reversed : word.reverse with
  | nil => exact absurd (List.reverse_eq_nil_iff.mp reversed) isWord.ne_nil
  | cons last others => rw [closeWord, ← reversed, List.reverse_reverse]

theorem words_of_isWord {word : List Char} (isWord : IsWord word) : words word = [word] := by
  have scanned := wordsFrom_append isWord.noBlank [] []
  rw [List.append_nil, List.append_nil] at scanned
  rw [words, scanned, wordsFrom, closeWord_reverse isWord]

theorem words_append_space {word : List Char} (isWord : IsWord word) (rest : List Char) :
    words (word ++ ' ' :: rest) = word :: words rest := by
  have blank : isBlank ' ' = true := by decide
  rw [words, wordsFrom_append isWord.noBlank, List.append_nil, wordsFrom, if_pos blank,
    closeWord_reverse isWord]
  rfl

/-- A text made of words with spaces between them falls into these words. -/
theorem words_intercalate {pieces : List (List Char)} (areWords : ∀ piece ∈ pieces, IsWord piece) :
    words ([' '].intercalate pieces) = pieces := by
  induction pieces with
  | nil => rfl
  | cons piece pieces ih =>
      obtain ⟨isWord, areWords⟩ := List.forall_mem_cons.mp areWords
      cases pieces with
      | nil => rw [List.intercalate_singleton, words_of_isWord isWord]
      | cons next later =>
          rw [List.intercalate_cons_cons, List.append_assoc, List.singleton_append,
            words_append_space isWord, ih areWords]

/-! ## Hexadecimal digits -/

/-- What is written for a number below sixteen is one byte of UTF-8, which is read back
as that number, and no blank. -/
theorem hexDigit_reads {value : UInt8} (small : value < 16) :
    ∃ digit, String.utf8EncodeChar (hexDigit value) = [digit] ∧
      hexValue? digit = some value ∧ isBlank (hexDigit value) = false := by
  have table : ∀ number : Fin 16,
      String.utf8EncodeChar (hexDigit (.ofNat number)) =
          [.ofNat (hexDigit (.ofNat number)).toNat] ∧
        hexValue? (.ofNat (hexDigit (.ofNat number)).toNat) = some (.ofNat number) ∧
        isBlank (hexDigit (.ofNat number)) = false := by
    decide
  have found := table ⟨value.toNat, UInt8.lt_iff_toNat_lt.mp small⟩
  rw [UInt8.ofNat_toNat] at found
  exact ⟨_, found⟩

theorem high_lt (byte : UInt8) : byte / 16 < 16 := by
  rw [UInt8.lt_iff_toNat_lt, UInt8.toNat_div]
  have bound := byte.toNat_lt
  change byte.toNat / 16 < 16
  omega

theorem low_lt (byte : UInt8) : byte % 16 < 16 := by
  rw [UInt8.lt_iff_toNat_lt, UInt8.toNat_mod]
  exact Nat.mod_lt _ (by decide)

theorem halves (byte : UInt8) : 16 * (byte / 16) + byte % 16 = byte := by
  apply UInt8.toNat_inj.mp
  have bound := byte.toNat_lt
  rw [UInt8.toNat_add, UInt8.toNat_mul, UInt8.toNat_div, UInt8.toNat_mod]
  change (16 * (byte.toNat / 16) % 256 + byte.toNat % 16) % 256 = byte.toNat
  omega

theorem readHexFrom_hexPair (position : Nat) (done : Bytes) (byte : UInt8) (rest : Bytes) :
    readHexFrom position done (utf8 (hexPair byte) ++ rest) =
      readHexFrom (position + 2) (byte :: done) rest := by
  obtain ⟨high, isHigh, readsHigh, -⟩ := hexDigit_reads (high_lt byte)
  obtain ⟨low, isLow, readsLow, -⟩ := hexDigit_reads (low_lt byte)
  have form : utf8 (hexPair byte) = [high, low] := by
    rw [utf8, hexPair, List.flatMap_cons, List.flatMap_singleton, isHigh, isLow]
    rfl
  rw [form, List.cons_append, List.singleton_append, readHexFrom, readsHigh, readsLow]
  dsimp only
  rw [halves]

theorem utf8_hexChars_cons (byte : UInt8) (bytes : Bytes) :
    utf8 (hexChars (byte :: bytes)) = utf8 (hexPair byte) ++ utf8 (hexChars bytes) := by
  rw [hexChars, List.flatMap_cons, utf8, List.flatMap_append]
  rfl

theorem readHexFrom_hexChars (position : Nat) (done bytes : Bytes) :
    readHexFrom position done (utf8 (hexChars bytes)) = .ok (done.reverse ++ bytes) := by
  induction bytes generalizing position done with
  | nil => rw [List.append_nil]; rfl
  | cons byte bytes ih =>
      rw [utf8_hexChars_cons, readHexFrom_hexPair, ih, List.reverse_cons, List.append_assoc,
        List.singleton_append]

theorem length_utf8_hexChars (bytes : Bytes) :
    (utf8 (hexChars bytes)).length = 2 * bytes.length := by
  induction bytes with
  | nil => rfl
  | cons byte bytes ih =>
      obtain ⟨high, isHigh, -⟩ := hexDigit_reads (high_lt byte)
      obtain ⟨low, isLow, -⟩ := hexDigit_reads (low_lt byte)
      rw [utf8_hexChars_cons, List.length_append, ih, utf8, hexPair, List.flatMap_cons,
        List.flatMap_singleton, isHigh, isLow, List.length_cons]
      simp only [List.singleton_append, List.length_cons, List.length_nil]
      omega

/-- The digits of a byte string are read back. -/
theorem readHex_hexChars (bytes : Bytes) : readHex (hexChars bytes) = .ok bytes := by
  have even : ¬ (utf8 (hexChars bytes)).length % 2 = 1 := by
    rw [length_utf8_hexChars]
    omega
  rw [readHex, readHexBytes, if_neg even, readHexFrom_hexChars]
  rfl

theorem noBlank_hexChars (bytes : Bytes) : ∀ char ∈ hexChars bytes, isBlank char = false := by
  intro char member
  obtain ⟨byte, -, member⟩ := List.mem_flatMap.mp member
  rw [hexPair, List.mem_cons, List.mem_singleton] at member
  rcases member with rfl | rfl
  · obtain ⟨-, -, -, noBlank⟩ := hexDigit_reads (high_lt byte)
    exact noBlank
  · obtain ⟨-, -, -, noBlank⟩ := hexDigit_reads (low_lt byte)
    exact noBlank

end Text

namespace Script

/-! ## Words that stand for bytes -/

/-- A word that is not cut and is read as the given bytes. -/
structure Writes (word : List Char) (bytes : Bytes) : Prop where
  isWord : Text.IsWord word
  reads : readWord word = .ok bytes

/-- Words that are read as the pieces of the given bytes. -/
def AllWrite (words : List (List Char)) (bytes : Bytes) : Prop :=
  ∃ pieces : List Bytes, List.Forall₂ Writes words pieces ∧ pieces.flatten = bytes

namespace AllWrite

theorem nil : AllWrite [] [] :=
  ⟨[], .nil, rfl⟩

theorem singleton {word : List Char} {bytes : Bytes} (writes : Writes word bytes) :
    AllWrite [word] bytes :=
  ⟨[bytes], .cons writes .nil, List.append_nil bytes⟩

theorem append {front back : List (List Char)} {frontBytes backBytes : Bytes}
    (first : AllWrite front frontBytes) (second : AllWrite back backBytes) :
    AllWrite (front ++ back) (frontBytes ++ backBytes) := by
  obtain ⟨pieces, write, rfl⟩ := first
  obtain ⟨others, alsoWrite, rfl⟩ := second
  exact ⟨pieces ++ others, List.rel_append write alsoWrite, List.flatten_append⟩

theorem flatMap {α : Type} {words : α → List (List Char)} {bytes : α → Bytes}
    (each : ∀ item, AllWrite (words item) (bytes item)) (items : List α) :
    AllWrite (items.flatMap words) (items.flatMap bytes) := by
  induction items with
  | nil => exact nil
  | cons item items ih => exact (each item).append ih

theorem areWords {words : List (List Char)} {bytes : Bytes} (write : AllWrite words bytes) :
    ∀ word ∈ words, Text.IsWord word := by
  obtain ⟨pieces, write, -⟩ := write
  induction write with
  | nil => exact nofun
  | cons first _ ih => exact List.forall_mem_cons.mpr ⟨first.isWord, ih⟩

end AllWrite

theorem readWords_of_forall₂ {words : List (List Char)} {pieces : List Bytes}
    (write : List.Forall₂ Writes words pieces) (done : List Bytes) :
    readWords done words = .ok ⟨done.reverse.flatten ++ pieces.flatten⟩ := by
  induction write generalizing done with
  | nil => rw [readWords, List.flatten_nil, List.append_nil]
  | @cons word piece _ pieces first _ ih =>
      rw [readWords, first.reads]
      dsimp only
      rw [ih, List.reverse_cons, List.flatten_append, List.flatten_singleton,
        List.append_assoc, List.flatten_cons]

/-- A text of such words is read as the bytes they stand for. -/
theorem parse_intercalate {words : List (List Char)} {bytes : Bytes}
    (write : AllWrite words bytes) : parse ([' '].intercalate words) = .ok ⟨bytes⟩ := by
  rw [parse, Text.words_intercalate write.areWords]
  obtain ⟨pieces, each, rfl⟩ := write
  exact readWords_of_forall₂ each []

/-! ## Literals and names -/

theorem writes_hexLiteral {bytes : Bytes} (nonempty : bytes ≠ []) :
    Writes (hexLiteral bytes) bytes := by
  refine ⟨⟨List.cons_ne_nil _ _, ?_⟩, ?_⟩
  · rw [hexLiteral, List.forall_mem_cons, List.forall_mem_cons]
    exact ⟨by decide, by decide, Text.noBlank_hexChars bytes⟩
  · have notDecimal : decimal? (hexLiteral bytes) = none := by
      simp [hexLiteral, decimal?]
    have digits : hexDigits? (hexLiteral bytes) = some (Text.hexChars bytes) := by
      cases bytes with
      | nil => exact absurd rfl nonempty
      | cons byte bytes => rfl
    rw [readWord, notDecimal, digits]
    dsimp only
    rw [Text.readHex_hexChars]

/-- Every name in the table is read back as its opcode, the small numbers as decimal
numbers. -/
theorem writes_of_mem_names {entry : UInt8 × String} (member : entry ∈ Opcode.names) :
    Writes entry.2.toList [entry.1] := by
  have table : ∀ entry ∈ Opcode.names,
      Text.IsWord entry.2.toList ∧ readWord entry.2.toList = .ok [entry.1] := by
    decide +kernel
  exact ⟨(table entry member).1, (table entry member).2⟩

theorem writes_opcodeWord (opcode : Opcode) : Writes (opcodeWord opcode) [opcode.byte] := by
  rw [opcodeWord, Opcode.name?]
  cases found : Opcode.names.find? fun entry => entry.1 = opcode.byte with
  | none => exact writes_hexLiteral (List.cons_ne_nil _ _)
  | some entry =>
      have same := List.find?_some found
      rw [decide_eq_true_eq] at same
      rw [← same]
      exact writes_of_mem_names (List.mem_of_find?_eq_some found)

/-! ## Instructions -/

theorem allWrite_instructionWords (instruction : Instruction) :
    AllWrite (instructionWords instruction) instruction.encode := by
  cases instruction with
  | op opcode => exact .singleton (writes_opcodeWord opcode)
  | push form data =>
      have header := writes_hexLiteral (List.cons_ne_nil (form.opcode data.length).byte
        (Bytes.littleEndian form.lengthWidth data.length))
      rw [instructionWords, Instruction.encode]
      split
      · rename_i nothing
        obtain ⟨rfl, rfl⟩ := nothing
        exact .singleton (writes_opcodeWord .zero)
      · split
        · rename_i empty
          subst empty
          rw [List.append_nil]
          exact .singleton header
        · rename_i nonempty
          exact (AllWrite.singleton header).append (.singleton (writes_hexLiteral nonempty))

theorem allWrite_textWords (script : Script) : AllWrite script.textWords script.bytes := by
  have whole := Instruction.flatMap_encode_decode script.bytes
  have tail : AllWrite (if script.brokenEnd = [] then [] else [hexLiteral script.brokenEnd])
      script.brokenEnd := by
    split
    · rename_i empty
      rw [empty]
      exact .nil
    · rename_i nonempty
      exact .singleton (writes_hexLiteral nonempty)
  rw [← whole]
  exact (AllWrite.flatMap allWrite_instructionWords script.instructions).append tail

/-- The text of a script is read as that script, whatever bytes the script is made of. -/
theorem text_is_read_as_the_script (script : Script) : parse script.text = .ok script :=
  parse_intercalate script.allWrite_textWords

example : text ⟨[0x51, 0x00, 0xba, 0x02, 0xab, 0xcd, 0x05, 0x01]⟩ =
    "1 0 0xba 0x02 0xabcd 0x0501".toList := by
  decide +kernel

end Script

end CoinSpend
