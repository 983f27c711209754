import CoinSpend.Proofs.WordNumbers

/-!
# Shortest forms of numbers

Every number has one minimal string, and every minimal string is the one of its number.  Both
come from how many bytes a number takes: a string stands for a number that takes no more bytes
than the string has, and it is minimal exactly if the number takes all of them.
-/

namespace CoinSpend

namespace ScriptNumber

/-! ## Widths -/

theorem width_le_succ_iff {number : Int} {count : Nat} :
    width number ≤ count + 1 ↔ number.natAbs < 2 ^ (8 * count + 7) := by
  constructor
  · intro narrow
    by_cases zero : number = 0
    · rw [zero]
      exact Nat.two_pow_pos _
    · rw [width, if_neg zero] at narrow
      exact (Nat.log2_lt (Int.natAbs_ne_zero.mpr zero)).mp (by omega)
  · intro small
    rw [← length_encode]
    exact length_encode_le small

theorem width_eq_zero_iff {number : Int} : width number = 0 ↔ number = 0 := by
  rw [width]
  split <;> simp [*]

theorem width_le_iff {number : Int} {count : Nat} (some : 1 ≤ count) :
    width number ≤ count ↔ number.natAbs ≤ 2 ^ (8 * count - 1) - 1 := by
  obtain ⟨fewer, rfl⟩ := Nat.exists_eq_add_of_le' some
  have exponent : 8 * (fewer + 1) - 1 = 8 * fewer + 7 := by omega
  have positive := Nat.two_pow_pos (8 * fewer + 7)
  rw [width_le_succ_iff, exponent]
  omega

theorem natAbs_lt_signBit {number : Int} (nonzero : number ≠ 0) :
    number.natAbs < signBit (width number) := by
  obtain ⟨count, isWidth⟩ := Nat.exists_eq_succ_of_ne_zero (mt width_eq_zero_iff.mp nonzero)
  rw [isWidth, signBit_succ]
  exact width_le_succ_iff.mp (Nat.le_of_eq isWidth)

/-! ## Values by the last byte -/

/-- The top bit of the last byte is the sign, and the others are the upper bits of the
magnitude. -/
theorem value_reverse_cons (last : UInt8) (front : Bytes) :
    value (last :: front).reverse =
      if 128 ≤ last.toNat then
        -((Bytes.toNat front.reverse + 256 ^ front.length * (last.toNat - 128) : Nat) : Int)
      else
        ((Bytes.toNat front.reverse + 256 ^ front.length * last.toNat : Nat) : Int) := by
  have nonempty : (last :: front).reverse ≠ [] := by simp
  have signed := and_sign_iff_signBit_le last front
  rw [and_sign_ne_zero_iff] at signed
  have isSign : signBit (front.length + 1) = 256 ^ front.length * 128 := by
    rw [signBit_succ, Nat.pow_add, Nat.pow_mul]
  rw [value, List.length_reverse, List.length_cons]
  by_cases above : 128 ≤ last.toNat
  · rw [if_pos ⟨nonempty, signed.mp above⟩, if_pos above, toNat_reverse_cons, isSign]
    rw [Nat.mul_sub, Nat.add_sub_assoc (Nat.mul_le_mul_left _ above)]
  · rw [if_neg fun both => above (signed.mpr both.2), if_neg above, toNat_reverse_cons]

theorem natAbs_value_reverse_cons (last : UInt8) (front : Bytes) :
    (value (last :: front).reverse).natAbs =
      Bytes.toNat front.reverse + 256 ^ front.length * (last.toNat % 128) := by
  have byte := last.toNat_lt
  rw [value_reverse_cons]
  split
  · rename_i above
    rw [Int.natAbs_neg, Int.natAbs_natCast, show last.toNat - 128 = last.toNat % 128 by omega]
  · rename_i below
    rw [Int.natAbs_natCast, Nat.mod_eq_of_lt (Nat.not_le.mp below)]

theorem width_value_le (bytes : Bytes) : width (value bytes) ≤ bytes.length := by
  cases bytes with
  | nil => exact Nat.le_refl _
  | cons first rest =>
      have bound := natAbs_value_lt (List.cons_ne_nil first rest)
      rw [List.length_cons, signBit_succ] at bound
      exact width_le_succ_iff.mpr bound

/-! ## Minimal forms -/

theorem and_others_ne_zero_iff (byte : UInt8) : byte &&& 0x7f ≠ 0 ↔ byte.toNat % 128 ≠ 0 := by
  have small : byte.toNat < 256 := byte.toNat_lt
  apply Bytes.of_table small
  decide +kernel

/-- A number leaves the last of its bytes free if that holds no more than a sign, which would fit
in the byte before. -/
theorem width_value_reverse_le_iff (last before : UInt8) (others : Bytes) :
    width (value (last :: before :: others).reverse) ≤ others.length + 1 ↔
      last.toNat % 128 = 0 ∧ before.toNat < 128 := by
  have lower := Bytes.toNat_lt others.reverse
  rw [List.length_reverse] at lower
  have bound : 2 ^ (8 * others.length + 7) = 256 ^ others.length * 128 := by
    rw [Nat.pow_add, Nat.pow_mul]
  rw [width_le_succ_iff, natAbs_value_reverse_cons, toNat_reverse_cons, List.length_cons, bound,
    Nat.pow_succ]
  generalize Bytes.toNat others.reverse = low at lower ⊢
  generalize 256 ^ others.length = base at lower ⊢
  constructor
  · intro small
    constructor
    · by_contra set
      have most := Nat.mul_le_mul_left (base * 256) (Nat.one_le_iff_ne_zero.mpr set)
      omega
    · by_contra set
      have most := Nat.mul_le_mul_left base (Nat.not_lt.mp set)
      omega
  · rintro ⟨clear, small⟩
    have most := Nat.mul_le_mul_left base (Nat.le_of_lt_succ small)
    rw [clear]
    omega

/-- A byte string is minimal exactly if its number takes all its bytes. -/
theorem isMinimal_iff_width (bytes : Bytes) :
    isMinimal bytes = true ↔ width (value bytes) = bytes.length := by
  have narrow := width_value_le bytes
  obtain ⟨backwards, rfl⟩ : ∃ backwards : Bytes, bytes = backwards.reverse :=
    ⟨bytes.reverse, bytes.reverse_reverse.symm⟩
  rw [List.length_reverse] at narrow
  rw [isMinimal, List.reverse_reverse, List.length_reverse]
  rcases backwards with _ | ⟨last, _ | ⟨before, others⟩⟩
  · simp [width, value, Bytes.toNat]
  · have wide : width (value [last].reverse) = 0 ↔ last.toNat % 128 = 0 := by
      rw [width_eq_zero_iff, ← Int.natAbs_eq_zero, natAbs_value_reverse_cons]
      simp [Bytes.toNat]
    rw [List.length_singleton] at narrow ⊢
    simp only [bne_iff_ne, and_others_ne_zero_iff]
    omega
  · have wide := width_value_reverse_le_iff last before others
    simp only [List.length_cons] at narrow ⊢
    simp only [Bool.or_eq_true, bne_iff_ne, and_others_ne_zero_iff, and_sign_ne_zero_iff]
    omega

theorem value_encode (number : Int) : value (encode number) = number := by
  by_cases zero : number = 0
  · rw [zero]
    rfl
  · have small := natAbs_lt_signBit zero
    have nonempty : encode number ≠ [] := by
      rw [← List.length_pos_iff, length_encode]
      exact Nat.pos_of_ne_zero (mt width_eq_zero_iff.mp zero)
    have room := pow_length_eq nonempty
    rw [length_encode] at room
    have magnitude : Bytes.toNat (encode number) =
        number.natAbs + if number < 0 then signBit (width number) else 0 := by
      rw [encode, Bytes.toNat_littleEndian, Nat.mod_eq_of_lt]
      split <;> omega
    rw [value, magnitude, length_encode]
    by_cases negative : number < 0
    · rw [if_pos negative, if_pos ⟨nonempty, Nat.le_add_left _ _⟩, Nat.add_sub_cancel]
      omega
    · rw [if_neg negative, if_neg (fun both => by omega)]
      omega

/-- A byte string that its number takes all of is what is written for the number. -/
theorem encode_value_of_width {bytes : Bytes} (wide : width (value bytes) = bytes.length) :
    encode (value bytes) = bytes := by
  have signed : (value bytes).natAbs +
      (if value bytes < 0 then signBit bytes.length else 0) = Bytes.toNat bytes := by
    by_cases negative : bytes ≠ [] ∧ signBit bytes.length ≤ Bytes.toNat bytes
    · have isValue : value bytes =
          -((Bytes.toNat bytes - signBit bytes.length : Nat) : Int) := if_pos negative
      have nonzero : value bytes ≠ 0 := by
        intro isZero
        rw [← width_eq_zero_iff, wide, List.length_eq_zero_iff] at isZero
        exact negative.1 isZero
      rw [if_pos (by omega)]
      omega
    · have isValue : value bytes = (Bytes.toNat bytes : Int) := if_neg negative
      rw [if_neg (by omega)]
      omega
  rw [encode, wide, signed, Bytes.littleEndian_toNat]

theorem isMinimal_iff (bytes : Bytes) : isMinimal bytes = true ↔ encode (value bytes) = bytes := by
  rw [isMinimal_iff_width]
  constructor
  · exact encode_value_of_width
  · intro written
    rw [← length_encode, written]

theorem isMinimal_encode (number : Int) : isMinimal (encode number) = true := by
  rw [isMinimal_iff, value_encode]

/-- The minimal strings and the numbers are in one-to-one correspondence. -/
theorem encode_eq_iff {number : Int} {bytes : Bytes} :
    encode number = bytes ↔ isMinimal bytes = true ∧ value bytes = number := by
  constructor
  · rintro rfl
    exact ⟨isMinimal_encode number, value_encode number⟩
  · rintro ⟨minimal, rfl⟩
    exact (isMinimal_iff bytes).mp minimal

theorem length_encode_value_le (bytes : Bytes) : (encode (value bytes)).length ≤ bytes.length := by
  rw [length_encode]
  exact width_value_le bytes

theorem length_encode_value_lt {bytes : Bytes} (wasteful : isMinimal bytes = false) :
    (encode (value bytes)).length < bytes.length := by
  refine Nat.lt_of_le_of_ne (length_encode_value_le bytes) fun same => ?_
  rw [length_encode, ← isMinimal_iff_width, wasteful] at same
  cases same

theorem decode?_of_length_le {bytes : Bytes} {maxLength : Nat} (short : bytes.length ≤ maxLength) :
    decode? bytes false maxLength = some (value bytes) := by
  rw [decode?, if_neg (Nat.not_lt.mpr short)]
  rfl

theorem decode?_encode {number : Int} {maxLength : Nat}
    (short : (encode number).length ≤ maxLength) (requireMinimal : Bool) :
    decode? (encode number) requireMinimal maxLength = some number := by
  rw [decode?, if_neg (Nat.not_lt.mpr short), isMinimal_encode, Bool.not_true, Bool.and_false,
    if_neg Bool.false_ne_true, value_encode]

/-! ## Truth -/

theorem natAbs_value_cons (byte next : UInt8) (rest : Bytes) :
    (value (byte :: next :: rest)).natAbs = byte.toNat + 256 * (value (next :: rest)).natAbs := by
  have small := byte.toNat_lt
  have isSign : signBit (byte :: next :: rest).length = 256 * signBit (next :: rest).length := by
    rw [List.length_cons, List.length_cons, signBit_succ, signBit_succ, Nat.mul_add, Nat.pow_add,
      Nat.pow_add, Nat.pow_add]
    ring
  have magnitude : Bytes.toNat (byte :: next :: rest) =
      byte.toNat + 256 * Bytes.toNat (next :: rest) := rfl
  simp only [value, isSign, magnitude, ne_eq, reduceCtorEq, not_false_eq_true, true_and]
  split <;> split <;> omega

@[simp] theorem isTrue_zero_cons (rest : Bytes) : isTrue (0 :: rest) = isTrue rest := by
  cases rest <;> rfl

theorem isTrue_singleton_iff (last : UInt8) : isTrue [last] = true ↔ last.toNat % 128 ≠ 0 := by
  have small : last.toNat < 256 := last.toNat_lt
  apply Bytes.of_table small
  decide +kernel

/-- A byte string counts as true exactly if it does not stand for zero. -/
theorem isTrue_iff (bytes : Bytes) : isTrue bytes = true ↔ value bytes ≠ 0 := by
  induction bytes with
  | nil => decide
  | cons byte rest ih =>
      cases rest with
      | nil =>
          have magnitude := natAbs_value_reverse_cons byte []
          rw [isTrue_singleton_iff, ← Int.natAbs_ne_zero]
          simp_all [Bytes.toNat]
      | cons next rest =>
          have either : isTrue (byte :: next :: rest) = (byte != 0 || isTrue (next :: rest)) := rfl
          rw [either, Bool.or_eq_true, ih, ← Int.natAbs_ne_zero, ← Int.natAbs_ne_zero,
            natAbs_value_cons, bne_iff_ne, ne_eq, ← UInt8.toNat_inj, UInt8.toNat_zero]
          omega

/-- Only zeros count as false, with or without a sign in the last byte. -/
theorem isTrue_eq_false_iff (bytes : Bytes) :
    isTrue bytes = false ↔
      ∃ zeros, bytes = List.replicate zeros 0 ∨ bytes = List.replicate zeros 0 ++ [0x80] := by
  constructor
  · intro isFalse
    induction bytes with
    | nil => exact ⟨0, .inl rfl⟩
    | cons byte rest ih =>
        cases rest with
        | nil =>
            simp only [isTrue, Bool.and_eq_false_iff, bne_eq_false_iff_eq] at isFalse
            rcases isFalse with rfl | rfl
            · exact ⟨1, .inl rfl⟩
            · exact ⟨0, .inr rfl⟩
        | cons next rest =>
            have both : (byte != 0 || isTrue (next :: rest)) = false := isFalse
            rw [Bool.or_eq_false_iff, bne_eq_false_iff_eq] at both
            obtain ⟨rfl, isFalse⟩ := both
            obtain ⟨zeros, isZero | isSign⟩ := ih isFalse
            · exact ⟨zeros + 1, .inl (congrArg (List.cons 0) isZero)⟩
            · exact ⟨zeros + 1, .inr (congrArg (List.cons 0) isSign)⟩
  · rintro ⟨zeros, rfl | rfl⟩
    · induction zeros with
      | zero => rfl
      | succ zeros ih => simpa [List.replicate_succ] using ih
    · induction zeros with
      | zero => rfl
      | succ zeros ih => simpa [List.replicate_succ] using ih

end ScriptNumber

end CoinSpend
