import CoinSpend.Proofs.ShortestNumbers

/-!
# Numbers of up to eight bytes

A machine writes the magnitude of a number byte by byte and then puts the sign into the last
byte, and it reads a number by shifting its bytes into a word and masking the sign.  Up to eight
bytes no shift is too wide and no word overflows, so it writes and reads the same strings as the
numbers themselves do.
-/

namespace CoinSpend

namespace ScriptNumber

/-- The word of a number of up to eight bytes; a shift may push bits out of it. -/
def decodeWord (bytes : Bytes) : Checked Int64 :=
  wordOf Word.losingShift bytes

theorem toNat_shiftRight_eight (magnitude : UInt64) :
    (magnitude >>> 8).toNat = magnitude.toNat / 256 := by
  rw [UInt64.toNat_shiftRight]
  exact Nat.shiftRight_eq_div_pow _ 8

/-- The bytes of a magnitude, the lowest first, until nothing is left. -/
def magnitudeBytes (magnitude : UInt64) : Bytes :=
  if _positive : 0 < magnitude then
    (magnitude &&& 0xff).toUInt8 :: magnitudeBytes (magnitude >>> 8)
  else
    []
termination_by magnitude.toNat
decreasing_by
  rw [toNat_shiftRight_eight]
  exact Nat.div_lt_self (UInt64.lt_iff_toNat_lt.mp _positive) (by decide)

/-- Put a sign into the top bit of the last byte, or into one more byte if that bit is used. -/
def addSign (negative : Bool) (bytes : Bytes) : Bytes :=
  match bytes.reverse with
  | [] => []
  | last :: front =>
      if last &&& 0x80 ≠ 0 then ((if negative then 0x80 else 0) :: last :: front).reverse
      else if negative then ((last ||| 0x80) :: front).reverse
      else bytes

def encodeWord (word : Int64) : Bytes :=
  if word = 0 then []
  else addSign (word < 0) (magnitudeBytes (UInt64.ofNat word.toInt.natAbs))

theorem toNat_magnitudeBytes (magnitude : UInt64) :
    Bytes.toNat (magnitudeBytes magnitude) = magnitude.toNat := by
  induction magnitude using magnitudeBytes.induct with
  | case1 magnitude positive ih =>
      have low : (magnitude &&& 0xff).toUInt8.toNat = magnitude.toNat % 256 := by
        rw [UInt64.toNat_toUInt8, UInt64.toNat_and]
        change (magnitude.toNat &&& 2 ^ 8 - 1) % 256 = _
        rw [Nat.and_two_pow_sub_one_eq_mod]
        exact Nat.mod_mod _ _
      rw [magnitudeBytes, dif_pos positive, Bytes.toNat, ih, toNat_shiftRight_eight, low]
      exact Nat.mod_add_div _ _
  | case2 magnitude zero =>
      rw [magnitudeBytes, dif_neg zero]
      exact (Nat.le_zero.mp (UInt64.le_iff_toNat_le.mp (UInt64.not_lt.mp zero))).symm

theorem getLast?_magnitudeBytes (magnitude : UInt64) :
    (magnitudeBytes magnitude).getLast? ≠ some 0 := by
  induction magnitude using magnitudeBytes.induct with
  | case1 magnitude positive ih =>
      have whole := toNat_magnitudeBytes magnitude
      rw [magnitudeBytes, dif_pos positive] at whole ⊢
      cases rest : magnitudeBytes (magnitude >>> 8) with
      | nil =>
          rw [rest] at whole
          intro isZero
          have first : (magnitude &&& 0xff).toUInt8 = 0 := Option.some.inj isZero
          rw [first] at whole
          exact absurd (UInt64.lt_iff_toNat_lt.mp positive) (by rw [← whole]; decide)
      | cons next later =>
          rwa [List.getLast?_cons_cons, ← rest]
  | case2 magnitude zero =>
      rw [magnitudeBytes, dif_neg zero]
      exact nofun

theorem toNat_or_sign {byte : UInt8} (unsigned : byte.toNat < 128) :
    (byte ||| 0x80).toNat = byte.toNat + 128 := by
  apply Bytes.of_table unsigned
  decide +kernel

theorem isMinimal_of_last {last : UInt8} (used : last.toNat % 128 ≠ 0) (front : Bytes) :
    isMinimal (last :: front).reverse = true := by
  rw [← and_others_ne_zero_iff, ← bne_iff_ne] at used
  rw [isMinimal, List.reverse_reverse]
  cases front with
  | nil => exact used
  | cons before others => exact Bool.or_eq_true_iff.mpr (.inl used)

/-- A sign makes a magnitude the shortest form of a number. -/
theorem addSign_spec (negative : Bool) {bytes : Bytes} (nonempty : bytes ≠ [])
    (tight : bytes.getLast? ≠ some 0) :
    isMinimal (addSign negative bytes) = true ∧
      value (addSign negative bytes) =
        if negative then -(Bytes.toNat bytes : Int) else Bytes.toNat bytes := by
  obtain ⟨backwards, rfl⟩ : ∃ backwards : Bytes, bytes = backwards.reverse :=
    ⟨bytes.reverse, bytes.reverse_reverse.symm⟩
  match backwards with
  | [] => exact absurd rfl nonempty
  | last :: front =>
      have byte := last.toNat_lt
      have nonzero : last.toNat ≠ 0 := by
        intro isZero
        rw [List.getLast?_reverse, List.head?_cons] at tight
        exact tight (congrArg some (UInt8.toNat_inj.mp isZero))
      rw [addSign, List.reverse_reverse]
      dsimp only
      by_cases used : last &&& 0x80 ≠ 0
      · rw [if_pos used]
        refine ⟨?_, ?_⟩
        · rw [isMinimal, List.reverse_reverse]
          simp only [bne_iff_ne.mpr used, Bool.or_true]
        · rw [value_reverse_cons]
          cases negative <;> simp
      · have unsigned : last.toNat < 128 := Nat.not_le.mp (mt (and_sign_ne_zero_iff last).mpr used)
        have magnitude := toNat_reverse_cons last front
        rw [if_neg used]
        cases negative with
        | false =>
            refine ⟨isMinimal_of_last (by omega) front, ?_⟩
            rw [if_neg Bool.false_ne_true, if_neg Bool.false_ne_true, value_reverse_cons,
              if_neg (Nat.not_le.mpr unsigned), magnitude]
        | true =>
            have signed := toNat_or_sign unsigned
            refine ⟨isMinimal_of_last (by omega) front, ?_⟩
            rw [if_pos rfl, if_pos rfl, value_reverse_cons, signed,
              if_pos (Nat.le_add_left _ _), Nat.add_sub_cancel, magnitude]

theorem encodeWord_eq (word : Int64) : encodeWord word = encode word.toInt := by
  symm
  rw [encode_eq_iff, encodeWord]
  by_cases zero : word = 0
  · rw [if_pos zero, zero]
    decide
  · have most := word.toInt_lt
    have least := word.le_toInt
    have magnitude : (UInt64.ofNat word.toInt.natAbs).toNat = word.toInt.natAbs :=
      UInt64.toNat_ofNat_of_lt' (show word.toInt.natAbs < 2 ^ 64 by omega)
    have nonempty : magnitudeBytes (UInt64.ofNat word.toInt.natAbs) ≠ [] := by
      intro isEmpty
      have isZero := toNat_magnitudeBytes (UInt64.ofNat word.toInt.natAbs)
      rw [isEmpty, magnitude] at isZero
      exact zero (Int64.toInt_inj.mp (Int.natAbs_eq_zero.mp isZero.symm))
    obtain ⟨minimal, isValue⟩ :=
      addSign_spec (word < 0) nonempty (getLast?_magnitudeBytes _)
    rw [if_neg zero]
    refine ⟨minimal, isValue.trans ?_⟩
    rw [toNat_magnitudeBytes, magnitude]
    simp only [decide_eq_true_iff, Int64.lt_iff_toInt_lt, Int64.toInt_zero]
    split <;> omega

theorem toInt_ofInt_value {bytes : Bytes} (few : bytes.length ≤ 8) :
    (Int64.ofInt (value bytes)).toInt = value bytes := by
  have fits : bytes.length ≤ 7 + 1 := few
  have bound := natAbs_value_lt_of_length_le fits
  exact Word.toInt_ofInt bound

/-- Every number has one minimal string, and every minimal string is that of its number.  A number
takes as many bytes as its magnitude and its sign need; other strings of the same number are
longer; and only zero counts as false, however it is written.  A machine that shifts and masks
words of 64 bits writes and reads the same strings. -/
theorem words_correspond_to_minimal_strings {maxLength : Nat} (few : maxLength ≤ 8) :
    (∀ word : Int64,
      (∀ count, 1 ≤ count →
        ((encode word.toInt).length ≤ count ↔ |word.toInt| ≤ 2 ^ (8 * count - 1) - 1)) ∧
      isMinimal (encode word.toInt) = true ∧
      ((encode word.toInt).length ≤ maxLength →
        decode? (encode word.toInt) true maxLength = some word.toInt) ∧
      encodeWord word = encode word.toInt) ∧
    (∀ bytes : Bytes, bytes.length ≤ maxLength → ∃ word : Int64,
      decode? bytes false maxLength = some word.toInt ∧
      decodeWord bytes = pure word ∧
      (isMinimal bytes = true ↔ encode word.toInt = bytes) ∧
      (isMinimal bytes = false → (encode word.toInt).length < bytes.length) ∧
      (isTrue bytes = true ↔ word ≠ 0)) ∧
    ∀ bytes : Bytes, isTrue bytes = false ↔
      ∃ zeros, bytes = List.replicate zeros 0 ∨ bytes = List.replicate zeros 0 ++ [0x80] := by
  refine ⟨fun word => ⟨fun count some => ?_, isMinimal_encode _, fun short => ?_, ?_⟩,
    fun bytes short => ?_, isTrue_eq_false_iff⟩
  · have positive := Nat.two_pow_pos (8 * count - 1)
    have asInt : ((2 ^ (8 * count - 1) : Nat) : Int) = 2 ^ (8 * count - 1) := Int.natCast_pow _ _
    rw [length_encode, width_le_iff some, Int.abs_eq_natAbs, ← asInt]
    omega
  · exact decode?_encode short true
  · exact encodeWord_eq word
  · have fits := toInt_ofInt_value (Nat.le_trans short few)
    refine ⟨Int64.ofInt (value bytes), ?_, wordOf_eq Word.losingShift_placesBytes (Nat.le_trans short few), ?_, ?_, ?_⟩
    · rw [fits, decode?_of_length_le short]
    · rw [fits, isMinimal_iff]
    · rw [fits]
      exact length_encode_value_lt
    · rw [isTrue_iff, ne_eq, ne_eq, ← Int64.toInt_inj, fits, Int64.toInt_zero]

theorem words_at_eight_bytes :
    ((encode (-0x8000000000000000)).length ≤ 8 ↔
      |(-0x8000000000000000 : Int)| ≤ 2 ^ (8 * 8 - 1) - 1) ∧
    decode? [0xff, 0xff, 0xff, 0xff, 0xff, 0xff, 0xff, 0xff] true 8 =
      some (-0x7fffffffffffffff) ∧
    ∃ word : Int64, decode? [0, 0, 0, 0, 0, 0, 0, 0x80] false 8 = some word.toInt ∧
      (encode word.toInt).length < 8 := by
  obtain ⟨written, read, -⟩ := words_correspond_to_minimal_strings (show 8 ≤ 8 by decide)
  have least : (-0x8000000000000000 : Int64).toInt = -0x8000000000000000 := by decide
  have next : (-0x7fffffffffffffff : Int64).toInt = -0x7fffffffffffffff := by decide
  have ones : encode (-0x7fffffffffffffff) = [0xff, 0xff, 0xff, 0xff, 0xff, 0xff, 0xff, 0xff] := by
    decide +kernel
  refine ⟨?_, ?_, ?_⟩
  · have sized := (written (-0x8000000000000000)).1 8 (by decide)
    rwa [least] at sized
  · have decoded := (written (-0x7fffffffffffffff)).2.2.1
    rw [next, ones] at decoded
    exact decoded (by decide)
  · obtain ⟨word, decoded, -, -, shorter, -⟩ := read [0, 0, 0, 0, 0, 0, 0, 0x80] (by decide)
    exact ⟨word, decoded, shorter (by decide)⟩

end ScriptNumber

end CoinSpend
