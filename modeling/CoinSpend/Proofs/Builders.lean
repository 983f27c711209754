import CoinSpend.Proofs.MinimalPushes
import CoinSpend.Proofs.ScriptText
import CoinSpend.Proofs.ShortestNumbers
import CoinSpend.Proofs.SignatureBudget
import CoinSpend.Script.Template

/-!
# What the builders append

Scripts are built by appending instructions, and what is appended to whole instructions is
decoded after them.  Data is pushed in the shortest form for its length.  A number is pushed by
an instruction that is accepted wherever the shortest is required, and its decimal text stands
for the same instruction.
-/

namespace CoinSpend

namespace Script

/-! ## Appending -/

theorem decode_append {script : Script} {instruction : Instruction} (whole : script.isWhole = true)
    (wellFormed : instruction.WellFormed) :
    (script.append instruction).isWhole = true ∧
      (script.append instruction).instructions = script.instructions ++ [instruction] := by
  have isAppended : script.append instruction =
      ofInstructions (script.instructions ++ [instruction]) := by
    have isScript := congrArg bytes (ofInstructions_instructions whole)
    rw [append, ← isScript, ofInstructions, ofInstructions, List.flatMap_append,
      List.flatMap_singleton]
  have allWellFormed : ∀ each ∈ script.instructions ++ [instruction], each.WellFormed := by
    intro each member
    rcases List.mem_append.mp member with before | last
    · exact wellFormed_of_mem_instructions before
    · rwa [List.mem_singleton.mp last]
  rw [isAppended]
  exact ⟨isWhole_ofInstructions allWellFormed, instructions_ofInstructions allWellFormed⟩

theorem size_pushOf_le {form : PushForm} {data : Bytes} (fits : data.length ≤ form.maxLength) :
    (pushOf data).size ≤ (Instruction.push form data).size := by
  by_cases same : form = .shortest data.length
  · rw [same]
    exact Nat.le_refl _
  · have wider := PushForm.lengthWidth_shortest_lt fits same
    simp only [pushOf, Instruction.size]
    omega

/-! ## Numbers -/

theorem value_of_pushed?_op {opcode : Opcode} {data : Bytes}
    (pushed : Instruction.pushed? (.op opcode) = some data) :
    ScriptNumber.value data = -1 ∨
      1 ≤ ScriptNumber.value data ∧ ScriptNumber.value data ≤ 16 := by
  obtain ⟨byte⟩ := opcode
  have below : byte.toNat < 0x61 := Instruction.toNat_lt_of_pushed?_op pushed
  have all : ∀ data ∈ Instruction.pushed? (.op ⟨byte⟩),
      ScriptNumber.value data = -1 ∨
        1 ≤ ScriptNumber.value data ∧ ScriptNumber.value data ≤ 16 := by
    apply Bytes.of_table below
    decide +kernel
  exact all data pushed

/-- Every number that fits an element is pushed by one instruction, which is allowed even where
the shortest is required. -/
theorem pushes_numberOf {number : Int}
    (short : (ScriptNumber.encode number).length ≤ Limits.maxElementSize) (requireMinimal : Bool) :
    (numberOf number).WellFormed ∧ (numberOf number).IsAllowed requireMinimal ∧
      (numberOf number).pushed? = some (ScriptNumber.encode number) := by
  by_cases negative : number = -1
  · rw [negative]
    cases requireMinimal <;> decide +kernel
  by_cases small : 0 ≤ number ∧ number ≤ 16
  · obtain ⟨natural, rfl⟩ := Int.eq_ofNat_of_zero_le small.1
    exact pushed?_numberOf (Int.ofNat_le.mp small.2) requireMinimal
  have isPush : numberOf number = pushOf (ScriptNumber.encode number) := by
    rw [numberOf, if_neg negative, if_neg (by omega), if_neg (by omega)]
  have wellFormed : (pushOf (ScriptNumber.encode number)).WellFormed :=
    wellFormed_pushOf (Nat.le_trans short (by decide))
  rw [isPush]
  refine ⟨wellFormed, (Instruction.isAllowed_iff wellFormed rfl _).mpr ⟨short, fun _ => ?_⟩, rfl⟩
  rcases Instruction.minimalFor_eq (ScriptNumber.encode number) with isMinimal | isNumber
  · exact isMinimal.symm
  · obtain ⟨opcode, -, pushed⟩ := isNumber
    have bounds := value_of_pushed?_op pushed
    rw [ScriptNumber.value_encode] at bounds
    omega

theorem length_encode_toInt_le (number : Int64) :
    (ScriptNumber.encode number.toInt).length ≤ Limits.maxElementSize := by
  have least := number.le_toInt
  have most := number.toInt_lt
  have small : number.toInt.natAbs < 2 ^ (8 * 8 + 7) := by omega
  exact Nat.le_trans (ScriptNumber.length_encode_le small) (by decide)

/-! ## Decimal text -/

section Digits

variable {digits : List Char} (nonempty : digits ≠ [])
  (areDigits : ∀ char ∈ digits, char.isDigit = true)

include nonempty areDigits

theorem decimal?_of_digits :
    decimal? digits = some (decimalNat digits : Int) ∧
      decimal? ('-' :: digits) = some (-(decimalNat digits : Int)) := by
  have accepted : digits ≠ [] ∧ digits.all Char.isDigit = true :=
    ⟨nonempty, List.all_eq_true.mpr areDigits⟩
  constructor
  · unfold decimal?
    split
    · exact absurd (areDigits '-' List.mem_cons_self) (by decide)
    · exact if_pos accepted
  · exact if_pos accepted

theorem isWord_of_digits : Text.IsWord digits ∧ Text.IsWord ('-' :: digits) := by
  have noBlank : ∀ char ∈ digits, Text.isBlank char = false := by
    intro char member
    have bounds := Char.isDigit_iff_toNat.mp (areDigits char member)
    change 48 ≤ char.toNat ∧ char.toNat ≤ 57 at bounds
    simp [Text.isBlank, Text.blankRanges]
    omega
  exact ⟨⟨nonempty, noBlank⟩,
    ⟨List.cons_ne_nil _ _, List.forall_mem_cons.mpr ⟨by decide, noBlank⟩⟩⟩

end Digits

theorem decimalNat_toDigits (number : Nat) : decimalNat (Nat.toDigits 10 number) = number := by
  have reads : Nat.ofDigitChars 10 (Nat.toDigits 10 number) 0 = number :=
    Nat.ofDigitChars_ten_toDigits
  rw [Nat.ofDigitChars_eq_foldl] at reads
  exact reads

/-- The decimal text of a number is one word, and it is read as the number. -/
theorem decimal?_toString (number : Int) :
    Text.IsWord (toString number).toList ∧ decimal? (toString number).toList = some number := by
  have areDigits : ∀ natural : Nat, ∀ char ∈ Nat.toDigits 10 natural, char.isDigit = true :=
    fun _ _ => Nat.isDigit_of_mem_toDigits (by decide) (by decide)
  have isText : toString number = number.repr := rfl
  rw [isText, Int.repr_eq_if]
  split
  · rename_i natural
    rw [Nat.toList_repr]
    refine ⟨(isWord_of_digits Nat.toDigits_ne_nil (areDigits _)).1, ?_⟩
    rw [(decimal?_of_digits Nat.toDigits_ne_nil (areDigits _)).1, decimalNat_toDigits,
      Int.toNat_of_nonneg natural]
  · rename_i negative
    have isSigned : ("-" ++ (-number).toNat.repr).toList =
        '-' :: Nat.toDigits 10 (-number).toNat := by
      rw [String.toList_append, Nat.toList_repr]
      rfl
    rw [isSigned]
    refine ⟨(isWord_of_digits Nat.toDigits_ne_nil (areDigits _)).2, ?_⟩
    rw [(decimal?_of_digits Nat.toDigits_ne_nil (areDigits _)).2, decimalNat_toDigits,
      Int.toNat_of_nonneg (by omega), Int.neg_neg]

theorem parse_toString {number : Int} (small : number.natAbs ≤ 2 ^ 32 - 1) :
    parse (toString number).toList = .ok (empty.appendNumber number) := by
  obtain ⟨isWord, isDecimal⟩ := decimal?_toString number
  have inRange : -maxTextNumber ≤ number ∧ number ≤ maxTextNumber := by
    rw [maxTextNumber]
    omega
  have reads : readWord (toString number).toList = .ok (numberOf number).encode := by
    rw [readWord, isDecimal]
    exact if_pos inRange
  have written := parse_intercalate (.singleton ⟨isWord, reads⟩)
  rwa [List.intercalate_singleton] at written

/-! ## Multiple signatures -/

theorem instructionChecks_of_not_isCounted {current : Opcode}
    (uncounted : current.isCounted = false) (trustNumbers : Bool) (previous : Opcode) :
    instructionChecks trustNumbers previous current = 0 := by
  have single : ¬ (current = .checkSig ∨ current = .checkSigVerify) := by
    rintro (rfl | rfl) <;> cases uncounted
  have multiple : ¬ (current = .checkMultisig ∨ current = .checkMultisigVerify) := by
    rintro (rfl | rfl) <;> cases uncounted
  rw [instructionChecks, if_neg single, if_neg multiple]

theorem countChecks_append_of_not_isCounted {front : List Opcode}
    (uncounted : ∀ opcode ∈ front, opcode.isCounted = false) (trustNumbers : Bool)
    (total : Nat) (previous : Opcode) (back : List Opcode) :
    ∃ last, countChecks trustNumbers total previous (front ++ back) =
      countChecks trustNumbers total last back := by
  induction front generalizing previous with
  | nil => exact ⟨previous, rfl⟩
  | cons current front ih =>
      obtain ⟨first, uncounted⟩ := List.forall_mem_cons.mp uncounted
      obtain ⟨last, counted⟩ := ih uncounted current
      refine ⟨last, ?_⟩
      rw [List.cons_append, countChecks,
        instructionChecks_of_not_isCounted first trustNumbers previous]
      exact counted

/-- A multiple check right after a number counts the number, if it is trusted. -/
theorem instructionChecks_checkMultisig {number : Nat} (positive : 1 ≤ number) (small : number ≤ 16)
    (trustNumbers : Bool) :
    instructionChecks trustNumbers ⟨.ofNat (0x50 + number)⟩ .checkMultisig =
      if trustNumbers then number else Limits.maxMultisigKeys := by
  have byte : (UInt8.ofNat (0x50 + number)).toNat = 0x50 + number :=
    UInt8.toNat_ofNat_of_lt' (Nat.lt_of_le_of_lt (Nat.add_le_add_left small _) (by decide))
  have isSmall : Opcode.isSmallNumber ⟨.ofNat (0x50 + number)⟩ = true := by
    rw [Opcode.isSmallNumber_iff, byte]
    omega
  rw [instructionChecks, if_neg (by decide), if_pos (by decide), isSmall, Bool.and_true, byte,
    Nat.add_sub_cancel_left]

theorem numberOf_natCast {number : Nat} (positive : 1 ≤ number) (small : number ≤ 16) :
    numberOf number = .op ⟨.ofNat (0x50 + number)⟩ := by
  rw [numberOf, if_neg (by omega), if_neg (by omega), if_pos (by omega), Int.toNat_natCast]

/-- The instructions of a script that asks for the signatures of some of several keys. -/
def multisigInstructions (required total : Nat) (keys : List Bytes) : List Instruction :=
  numberOf required :: keys.map pushOf ++ [numberOf total, .op .checkMultisig]

section Multisig

variable {required total : Nat} {keys : List Bytes} (positive : 1 ≤ required)
  (enough : required ≤ total) (few : total ≤ 16)
  (fits : ∀ key ∈ keys, key.length ≤ PushForm.fourBytes.maxLength)

include enough few fits

theorem of_mem_numberOf_keys : ∀ instruction ∈ numberOf required :: keys.map pushOf,
    instruction.WellFormed ∧ instruction.opcode.isCounted = false := by
  refine List.forall_mem_cons.mpr ⟨?_, ?_⟩
  · obtain ⟨wellFormed, -, pushed⟩ := pushed?_numberOf (Nat.le_trans enough few) false
    exact ⟨wellFormed, Instruction.isCounted_of_pushed? wellFormed pushed⟩
  · intro instruction member
    obtain ⟨key, isKey, rfl⟩ := List.mem_map.mp member
    have wellFormed := wellFormed_pushOf (fits key isKey)
    exact ⟨wellFormed, Instruction.isCounted_push wellFormed⟩

theorem wellFormed_multisigInstructions :
    ∀ instruction ∈ multisigInstructions required total keys, instruction.WellFormed := by
  intro instruction member
  rcases List.mem_append.mp member with front | back
  · exact (of_mem_numberOf_keys enough few fits instruction front).1
  · rcases List.mem_pair.mp back with rfl | rfl
    · exact (pushed?_numberOf few false).1
    · decide

include positive

/-- As many checks are counted as there are keys, if their number is trusted. -/
theorem signatureChecks_multisigInstructions (trustNumbers : Bool) :
    (ofInstructions (multisigInstructions required total keys)).signatureChecks trustNumbers =
      if trustNumbers then total else Limits.maxMultisigKeys := by
  have someKeys : 1 ≤ total := Nat.le_trans positive enough
  have uncounted : ∀ opcode ∈ (numberOf required :: keys.map pushOf).map Instruction.opcode,
      opcode.isCounted = false := by
    intro opcode member
    obtain ⟨instruction, isPush, rfl⟩ := List.mem_map.mp member
    exact (of_mem_numberOf_keys enough few fits instruction isPush).2
  have isNumber := numberOf_natCast someKeys few
  have silent : Opcode.isCounted ⟨.ofNat (0x50 + total)⟩ = false := by
    have pushed := (pushed?_numberOf few false).2.2
    rw [isNumber] at pushed
    exact Instruction.isCounted_op_of_pushed? pushed
  have opcodes : (multisigInstructions required total keys).map Instruction.opcode =
      (numberOf required :: keys.map pushOf).map Instruction.opcode ++
        [⟨.ofNat (0x50 + total)⟩, .checkMultisig] := by
    rw [multisigInstructions, List.map_append, isNumber]
    rfl
  obtain ⟨last, skipped⟩ := countChecks_append_of_not_isCounted uncounted trustNumbers 0 ⟨0xff⟩
    [⟨.ofNat (0x50 + total)⟩, .checkMultisig]
  rw [signatureChecks,
    instructions_ofInstructions (wellFormed_multisigInstructions enough few fits), opcodes, skipped,
    countChecks_cons, countChecks_cons,
    instructionChecks_of_not_isCounted silent, instructionChecks_checkMultisig someKeys few]
  exact Nat.zero_add _

/-- A script for multiple signatures is decoded as the number of signatures, the keys, the number
of keys and the check. -/
theorem multisig_decodes (given : keys.length = total) :
    ∃ script, multisig required total keys = .ok script ∧ script.isWhole = true ∧
      script.instructions = .op ⟨.ofNat (0x50 + required)⟩ :: keys.map pushOf ++
        [.op ⟨.ofNat (0x50 + total)⟩, .op .checkMultisig] ∧
      script.signatureChecks true = total ∧
      script.signatureChecks false = Limits.maxMultisigKeys := by
  have wellFormed := wellFormed_multisigInstructions enough few fits
  have counts := signatureChecks_multisigInstructions positive enough few fits
  refine ⟨_, ?_, isWhole_ofInstructions wellFormed, ?_, counts true, counts false⟩
  · rw [multisig, if_neg (not_not.mpr given), if_neg (by omega)]
    rfl
  · rw [instructions_ofInstructions wellFormed, multisigInstructions,
      numberOf_natCast positive (Nat.le_trans enough few),
      numberOf_natCast (Nat.le_trans positive enough) few]

end Multisig

/-! ## The builders -/

/-- What is appended to whole instructions is decoded after them as one instruction: the shortest
push of the data, or one that puts the number on every stack with room for it, whatever the flags
are.  The decimal text of a number is read as what is appended for it, and a script for multiple
signatures is decoded as its two numbers with the keys between them and the check, which counts as
its keys where numbers are trusted. -/
theorem builders_append_what_is_executed :
    (∀ script : Script, script.isWhole = true →
      (∀ data : Bytes, data.length < 2 ^ 32 →
        (script.appendData data).isWhole = true ∧
        ∃ form : PushForm,
          (script.appendData data).instructions = script.instructions ++ [.push form data] ∧
          data.length ≤ form.maxLength ∧
          ∀ other : PushForm, data.length ≤ other.maxLength →
            (Instruction.push form data).encode.length ≤
              (Instruction.push other data).encode.length) ∧
      ∀ number : Int64,
        (script.appendNumber number.toInt).isWhole = true ∧
        ∃ instruction,
          (script.appendNumber number.toInt).instructions =
            script.instructions ++ [instruction] ∧
          ∀ (flags : Flags) (checker : Checker) (version : SignatureVersion) (stack : Stack),
            stack.length < 1000 →
              Context.evaluate ⟨ofInstructions [instruction], flags, checker, version⟩ stack =
                pure (ScriptNumber.encode number.toInt :: stack)) ∧
    (∀ number : Int, number.natAbs ≤ 2 ^ 32 - 1 →
      parse (toString number).toList = .ok (empty.appendNumber number)) ∧
    ∀ (required total : Nat) (keys : List Bytes), 1 ≤ required → required ≤ total → total ≤ 16 →
      keys.length = total → (∀ key ∈ keys, key.length < 2 ^ 32) →
        ∃ built, multisig required total keys = .ok built ∧ built.isWhole = true ∧
          built.instructions = .op ⟨.ofNat (0x50 + required)⟩ :: keys.map pushOf ++
            [.op ⟨.ofNat (0x50 + total)⟩, .op .checkMultisig] ∧
          built.signatureChecks true = total ∧ built.signatureChecks false = 20 := by
  refine ⟨fun script whole => ⟨fun data short => ?_, fun number => ?_⟩,
    fun number => parse_toString, fun required total keys positive enough few given short => ?_⟩
  · have fits : data.length ≤ PushForm.fourBytes.maxLength := Nat.le_of_lt_succ short
    have wellFormed := wellFormed_pushOf fits
    obtain ⟨stillWhole, decoded⟩ := decode_append whole wellFormed
    refine ⟨stillWhole, .shortest data.length, decoded, wellFormed, fun other otherFits => ?_⟩
    rw [Instruction.length_encode, Instruction.length_encode]
    exact size_pushOf_le otherFits
  · have short := length_encode_toInt_le number
    obtain ⟨stillWhole, decoded⟩ := decode_append whole (pushes_numberOf short false).1
    refine ⟨stillWhole, numberOf number.toInt, decoded, ?_⟩
    intro flags checker version stack room
    obtain ⟨wellFormed, allowed, pushed⟩ := pushes_numberOf short (flags.has .minimalData)
    exact Context.evaluate_single wellFormed pushed allowed checker version room
  · exact multisig_decodes positive enough few
      (fun key isKey => Nat.le_of_lt_succ (short key isKey)) given

theorem builders_after_one :
    (∃ form, (appendData ⟨[0x51]⟩ [0x81]).instructions = [.op ⟨0x51⟩, .push form [0x81]]) ∧
    (∃ instruction, (appendNumber ⟨[0x51]⟩ 17).instructions = [.op ⟨0x51⟩, instruction] ∧
      Context.evaluate ⟨ofInstructions [instruction], .standard, .refuse, .base⟩ [] =
        pure [[0x11]]) ∧
    parse "-1000".toList = .ok ⟨[0x02, 0xe8, 0x83]⟩ ∧
    ∃ built, multisig 1 2 [[0x02], [0x03]] = .ok built ∧ built.signatureChecks true = 2 := by
  obtain ⟨appended, texts, keys⟩ := builders_append_what_is_executed
  have one : ofInstructions [.op ⟨0x51⟩] = ⟨[0x51]⟩ := rfl
  have wellFormed : ∀ instruction ∈ [Instruction.op ⟨0x51⟩], instruction.WellFormed := by decide
  have whole : isWhole ⟨[0x51]⟩ = true := by
    rw [← one, isWhole, brokenEnd_ofInstructions wellFormed]
    rfl
  have decoded : instructions ⟨[0x51]⟩ = [.op ⟨0x51⟩] := instructions_ofInstructions wellFormed
  obtain ⟨data, numbers⟩ := appended ⟨[0x51]⟩ whole
  refine ⟨?_, ?_, ?_, ?_⟩
  · obtain ⟨-, form, isAppended, -⟩ := data [0x81] (by decide)
    rw [decoded] at isAppended
    exact ⟨form, isAppended⟩
  · obtain ⟨-, instruction, isAppended, evaluates⟩ := numbers 17
    rw [decoded] at isAppended
    exact ⟨instruction, isAppended, evaluates .standard .refuse .base [] (by decide)⟩
  · have isText : toString (-1000 : Int) = "-1000" := by decide +kernel
    have isAppended : empty.appendNumber (-1000) = ⟨[0x02, 0xe8, 0x83]⟩ := by decide +kernel
    have parsed := texts (-1000) (by decide)
    rwa [isText, isAppended] at parsed
  · obtain ⟨built, isBuilt, -, -, counted, -⟩ := keys 1 2 [[0x02], [0x03]] (by decide) (by decide)
      (by decide) rfl (by decide)
    exact ⟨built, isBuilt, counted⟩

end Script

end CoinSpend
