import CoinSpend.Proofs.ScriptHash

/-!
# Recognized templates

A witness program and the hash of a script are recognized by their bytes, at fixed positions, and
are built as instructions.  Each is recognized in what is built for it and in no other script:
there is one way to write the opcode and the lengths.  No script is recognized as both, and the
hash of a key as neither.
-/

namespace CoinSpend

theorem Opcode.ofSmallNumber?_eq_some_iff {number : Nat} {opcode : Opcode} :
    ofSmallNumber? number = some opcode ↔ opcode.smallNumber? = some number := by
  refine ⟨Script.smallNumber?_of_ofSmallNumber?, fun found => ?_⟩
  unfold smallNumber? at found
  split_ifs at found with isZero isSmall
  · cases found
    rw [isZero]
    rfl
  · cases found
    obtain ⟨least, most⟩ := isSmallNumber_iff.mp isSmall
    have byte : 0x50 + (opcode.byte.toNat - 0x50) = opcode.byte.toNat := by omega
    rw [ofSmallNumber?, if_neg (by omega), if_pos (by omega), byte, UInt8.ofNat_toNat]

theorem Opcode.isSome_ofSmallNumber?_iff {number : Nat} :
    (ofSmallNumber? number).isSome = true ↔ number ≤ 16 := by
  rw [ofSmallNumber?]
  split_ifs with isZero small
  · simp [isZero]
  · simp [small]
  · simp [small]

namespace Script

variable {script : Script} {program : WitnessProgram}

/-! ## Witness programs -/

/-- The builder wants a small number and two to forty bytes, and nothing else. -/
theorem exists_payToWitness_iff :
    (∃ script, payToWitness program = .ok script) ↔
      program.version ≤ 16 ∧ 2 ≤ program.data.length ∧ program.data.length ≤ 40 := by
  rw [← Opcode.isSome_ofSmallNumber?_iff, payToWitness]
  cases Opcode.ofSmallNumber? program.version with
  | none => simp
  | some opcode =>
      dsimp only
      split_ifs with outside
      · simp only [exists_false, false_iff]
        omega
      · simp only [Except.ok.injEq, exists_eq', Option.isSome_some, true_and, true_iff]
        omega

/-- A script is recognized as a witness program exactly if it is built for that program. -/
theorem witnessProgram?_eq_some_iff :
    script.witnessProgram? = some program ↔ payToWitness program = .ok script := by
  refine ⟨fun found => ?_, witnessProgram?_of_payToWitness⟩
  obtain ⟨bytes⟩ := script
  unfold witnessProgram? at found
  split at found
  · rename_i version size data isBytes
    split_ifs at found with sized
    obtain ⟨long, short, isSize⟩ := sized
    obtain ⟨number, isNumber, rfl⟩ := Option.map_eq_some_iff.mp found
    obtain rfl : bytes = version :: size :: data := isBytes
    have written := Opcode.ofSmallNumber?_eq_some_iff.mpr isNumber
    rw [payToWitness, written]
    dsimp only
    rw [if_neg (by omega), encode_pushOf_of_le (by omega), ← isSize, UInt8.ofNat_toNat]
  · cases found

theorem witnessProgram?_eq_some_iff_positions :
    script.witnessProgram? = some program ↔
      4 ≤ script.length ∧ script.length ≤ 42 ∧
      (script.bytes[0]?.bind fun version => Opcode.smallNumber? ⟨version⟩) =
        some program.version ∧
      script.bytes[1]?.map UInt8.toNat = some (script.length - 2) ∧
      script.bytes.drop 2 = program.data := by
  obtain ⟨number, data⟩ := program
  obtain ⟨bytes⟩ := script
  rcases bytes with _ | ⟨version, _ | ⟨size, rest⟩⟩
  · simp [witnessProgram?, Script.length]
  · simp [witnessProgram?, Script.length]
  · simp only [witnessProgram?, Script.length, List.length_cons, List.getElem?_cons_zero,
      List.getElem?_cons_succ, Option.bind_some, Option.map_some, Option.some.injEq,
      List.drop_succ_cons, List.drop_zero, Option.ite_none_right_eq_some,
      Option.map_eq_some_iff, WitnessProgram.mk.injEq]
    constructor
    · rintro ⟨⟨long, short, isSize⟩, _, isVersion, rfl, rfl⟩
      exact ⟨by omega, by omega, isVersion, by omega, rfl⟩
    · rintro ⟨long, short, isVersion, isSize, rfl⟩
      exact ⟨⟨by omega, by omega, by omega⟩, _, isVersion, rfl, rfl⟩

/-! ## Hashes of scripts -/

theorem isPayToScriptHash_iff :
    script.isPayToScriptHash = true ↔ ∃ hash, script = payToScriptHash hash := by
  refine ⟨exists_eq_payToScriptHash, ?_⟩
  rintro ⟨hash, rfl⟩
  exact isPayToScriptHash_payToScriptHash hash

theorem isPayToScriptHash_iff_positions :
    script.isPayToScriptHash = true ↔
      script.length = 23 ∧ script.bytes[0]? = some 0xa9 ∧ script.bytes[1]? = some 20 ∧
        script.bytes[22]? = some 0x87 := by
  obtain ⟨bytes⟩ := script
  simp only [isPayToScriptHash, Script.length, Bool.and_eq_true, beq_iff_eq, Opcode.hash160,
    Opcode.equal, and_assoc]
  refine and_congr_right fun sized => ?_
  have inside : 22 < bytes.length := by omega
  have last : bytes.drop 22 = [bytes[22]] := by
    rw [List.drop_eq_getElem_cons inside, List.drop_of_length_le (by omega)]
  rw [last, List.getElem?_eq_getElem inside, List.singleton_inj, Option.some.injEq, ← and_assoc]
  refine and_congr_left' ?_
  rcases bytes with _ | ⟨first, _ | ⟨second, rest⟩⟩
  · cases sized
  · cases sized
  · simp

/-! ## Hashes of keys -/

theorem bytes_payToKeyHash (hash : Bytes) :
    (payToKeyHash hash).bytes = 0x76 :: 0xa9 :: ((pushOf hash).encode ++ [0x88, 0xac]) := by
  simp [payToKeyHash, ofInstructions, Instruction.encode, Opcode.dup, Opcode.hash160,
    Opcode.equalVerify, Opcode.checkSig]

theorem isPayToScriptHash_payToKeyHash (hash : Bytes) :
    (payToKeyHash hash).isPayToScriptHash = false := by
  simp [isPayToScriptHash, bytes_payToKeyHash, Opcode.hash160]

theorem witnessProgram?_payToKeyHash (hash : Bytes) :
    (payToKeyHash hash).witnessProgram? = none := by
  have noNumber : Opcode.smallNumber? ⟨0x76⟩ = none := rfl
  simp [witnessProgram?, bytes_payToKeyHash, noNumber]

/-- The two templates that verification looks for are recognized in the scripts that are built
for them, and nowhere else. -/
theorem recognized_templates_are_the_built_ones :
    (∀ (script : Script) (program : WitnessProgram),
      (script.witnessProgram? = some program ↔
        program.version ≤ 16 ∧ 2 ≤ program.data.length ∧ program.data.length ≤ 40 ∧
          payToWitness program = .ok script) ∧
      (script.witnessProgram? = some program ↔
        4 ≤ script.length ∧ script.length ≤ 42 ∧
        (script.bytes[0]?.bind fun version => Opcode.smallNumber? ⟨version⟩) =
          some program.version ∧
        script.bytes[1]?.map UInt8.toNat = some (script.length - 2) ∧
        script.bytes.drop 2 = program.data)) ∧
    (∀ program : WitnessProgram, (∃ script, payToWitness program = .ok script) ↔
      program.version ≤ 16 ∧ 2 ≤ program.data.length ∧ program.data.length ≤ 40) ∧
    (∀ script : Script,
      (script.isPayToScriptHash = true ↔ ∃ hash, script = payToScriptHash hash) ∧
      (script.isPayToScriptHash = true ↔
        script.length = 23 ∧ script.bytes[0]? = some 0xa9 ∧ script.bytes[1]? = some 20 ∧
          script.bytes[22]? = some 0x87) ∧
      ¬ (script.isPayToScriptHash = true ∧ script.witnessProgram?.isSome = true)) ∧
    ∀ hash : Bytes, (payToKeyHash hash).isPayToScriptHash = false ∧
      (payToKeyHash hash).witnessProgram? = none := by
  refine ⟨fun script program => ⟨?_, witnessProgram?_eq_some_iff_positions⟩,
    fun _ => exists_payToWitness_iff,
    fun script => ⟨isPayToScriptHash_iff, isPayToScriptHash_iff_positions, ?_⟩,
    fun hash => ⟨isPayToScriptHash_payToKeyHash hash, witnessProgram?_payToKeyHash hash⟩⟩
  · rw [witnessProgram?_eq_some_iff]
    constructor
    · intro built
      obtain ⟨small, long, short⟩ := exists_payToWitness_iff.mp ⟨script, built⟩
      exact ⟨small, long, short, built⟩
    · rintro ⟨-, -, -, built⟩
      exact built
  · rintro ⟨isHash, isProgram⟩
    rw [witnessProgram?_of_isPayToScriptHash isHash] at isProgram
    cases isProgram

/-- Neither a length field nor the opcode of -1 makes a witness program. -/
example :
    witnessProgram? ⟨[0x51, 0x02, 7, 8]⟩ = some ⟨1, [7, 8]⟩ ∧
      witnessProgram? ⟨[0x51, 0x4c, 0x02, 7, 8]⟩ = none ∧
      witnessProgram? ⟨[0x4f, 0x02, 7, 8]⟩ = none := by
  decide

end Script

end CoinSpend
