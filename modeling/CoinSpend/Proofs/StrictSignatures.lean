import Mathlib.Data.List.Basic
import CoinSpend.Bytes.Lemmas
import CoinSpend.Signature.Encoding

/-!
# The grammar of strict signatures

A strict signature is a sequence of two numbers in their shortest form, with a byte for the hash
type behind it.  Reading it from the front accepts exactly the byte strings of this grammar, and
splits them in the only possible way.  A check by positions has to make sure of every position
before it looks there; its tests do that for each other, and give the same answer.
-/

namespace CoinSpend

namespace Signature

/-! ## The grammar -/

/-- A number that is not negative, without a needless zero: its top bit is clear, and a zero
stands in front only if the top bit after it is set. -/
structure IsDerNumber (bytes : Bytes) : Prop where
  nonempty : bytes ≠ []
  nonneg : ∀ first, bytes[0]? = some first → first &&& 0x80 = 0
  shortest : bytes[0]? = some 0 →
    bytes.length = 1 ∨ ∃ second, bytes[1]? = some second ∧ second &&& 0x80 ≠ 0

def numberField (number : Bytes) : Bytes :=
  0x02 :: UInt8.ofNat number.length :: number

@[simp] theorem length_numberField (number : Bytes) :
    (numberField number).length = number.length + 2 :=
  rfl

/-- A signature of two numbers and a hash type.  Its length byte counts what follows it, less the
hash type. -/
structure IsMadeOf (signature r s : Bytes) (hashType : UInt8) : Prop where
  bytes : signature =
    0x30 :: UInt8.ofNat (signature.length - 3) :: (numberField r ++ numberField s ++ [hashType])
  short : signature.length ≤ 73
  first : IsDerNumber r
  second : IsDerNumber s

theorem IsMadeOf.length {signature r s : Bytes} {hashType : UInt8}
    (made : IsMadeOf signature r s hashType) : signature.length = r.length + s.length + 7 := by
  have size := congrArg List.length made.bytes
  simp only [List.length_cons, List.length_append, length_numberField, List.length_nil] at size
  omega

/-! ## Reading from the front -/

theorem topBit_clear_iff (byte : UInt8) : byte < 0x80 ↔ byte &&& 0x80 = 0 := by
  apply Bytes.of_table byte.toNat_lt
  decide +kernel

theorem isDerInteger_iff {bytes : Bytes} : isDerInteger bytes = true ↔ IsDerNumber bytes := by
  match bytes with
  | [] => exact ⟨nofun, fun number => absurd rfl number.nonempty⟩
  | [byte] =>
      rw [isDerInteger, decide_eq_true_iff, topBit_clear_iff]
      constructor
      · intro clear
        exact ⟨List.cons_ne_nil _ _, fun _ same => Option.some.inj same ▸ clear, fun _ => .inl rfl⟩
      · intro number
        exact number.nonneg byte rfl
  | first :: second :: rest =>
      rw [isDerInteger, Bool.and_eq_true, decide_eq_true_iff, topBit_clear_iff,
        Bool.not_eq_true', Bool.and_eq_false_iff, beq_eq_false_iff_ne, decide_eq_false_iff_not,
        topBit_clear_iff]
      constructor
      · rintro ⟨clear, needed⟩
        refine ⟨List.cons_ne_nil _ _, fun _ same => Option.some.inj same ▸ clear, ?_⟩
        intro zero
        exact .inr ⟨second, rfl, needed.resolve_left (not_not_intro (Option.some.inj zero))⟩
      · intro number
        refine ⟨number.nonneg first rfl, ?_⟩
        by_cases zero : first = 0
        · rcases number.shortest (congrArg some zero) with single | ⟨next, isNext, set⟩
          · cases single
          · cases isNext
            exact .inr set
        · exact .inl zero

theorem readDerInteger?_eq_some_iff {bytes number rest : Bytes} :
    readDerInteger? bytes = some (number, rest) ↔
      IsDerNumber number ∧ number.length < 256 ∧ bytes = numberField number ++ rest := by
  rw [← isDerInteger_iff]
  constructor
  · intro found
    unfold readDerInteger? at found
    split at found
    · rename_i tag length tail
      split at found
      · rename_i valid
        obtain ⟨rfl, enough, isNumber⟩ := valid
        rw [Bytes.hasAtLeast_eq_true_iff] at enough
        cases found
        have size : (tail.take length.toNat).length = length.toNat := by
          rw [List.length_take, Nat.min_eq_left enough]
        have fits : (tail.take length.toNat).length < 256 := by
          rw [size]
          exact length.toNat_lt
        refine ⟨isNumber, fits, ?_⟩
        rw [numberField, size, UInt8.ofNat_toNat, List.cons_append, List.cons_append,
          List.take_append_drop]
      · cases found
    · cases found
  · rintro ⟨isNumber, fits, rfl⟩
    have size : (UInt8.ofNat number.length).toNat = number.length := UInt8.toNat_ofNat_of_lt' fits
    have enough : Bytes.hasAtLeast (number ++ rest) number.length = true := by
      rw [Bytes.hasAtLeast_eq_true_iff, List.length_append]
      exact Nat.le_add_right _ _
    rw [numberField, List.cons_append, List.cons_append, readDerInteger?, size, List.take_left,
      List.drop_left, if_pos ⟨rfl, enough, isNumber⟩]

/-- What is read from a signature is what it is made of. -/
theorem readStrict?_eq_some_iff {signature r s : Bytes} {hashType : UInt8} :
    readStrict? signature = some (r, s, hashType) ↔ IsMadeOf signature r s hashType := by
  constructor
  · intro found
    unfold readStrict? at found
    split at found
    · rename_i tag length body
      split at found
      · rename_i valid
        obtain ⟨rfl, announced, short⟩ := valid
        simp only [Option.bind_eq_bind, Option.bind_eq_some_iff] at found
        obtain ⟨⟨first, afterFirst⟩, isFirst, ⟨second, afterSecond⟩, isSecond, found⟩ := found
        dsimp only at found
        split at found
        · cases found
          obtain ⟨firstNumber, -, rfl⟩ := readDerInteger?_eq_some_iff.mp isFirst
          obtain ⟨secondNumber, -, rfl⟩ := readDerInteger?_eq_some_iff.mp isSecond
          refine ⟨?_, short, firstNumber, secondNumber⟩
          rw [← announced, Nat.add_sub_cancel, UInt8.ofNat_toNat, List.append_assoc]
        · cases found
      · cases found
    · cases found
  · intro made
    have size := made.length
    have short := made.short
    have announced : (UInt8.ofNat (signature.length - 3)).toNat + 3 = signature.length := by
      rw [UInt8.toNat_ofNat_of_lt' (show _ < 256 by omega)]
      omega
    have firstRead : readDerInteger? (numberField r ++ (numberField s ++ [hashType])) =
        some (r, numberField s ++ [hashType]) :=
      readDerInteger?_eq_some_iff.mpr ⟨made.first, by omega, rfl⟩
    have secondRead : readDerInteger? (numberField s ++ [hashType]) = some (s, [hashType]) :=
      readDerInteger?_eq_some_iff.mpr ⟨made.second, by omega, rfl⟩
    rw [made.bytes, readStrict?, ← made.bytes, if_pos ⟨rfl, announced, short⟩, List.append_assoc,
      firstRead, Option.bind_eq_bind, Option.bind_some]
    dsimp only
    rw [secondRead]
    rfl

theorem isStrict_iff {signature : Bytes} :
    isStrict signature = true ↔ ∃ r s hashType, IsMadeOf signature r s hashType := by
  rw [isStrict, Option.isSome_iff_exists]
  simp only [Prod.exists, readStrict?_eq_some_iff]

/-! ## Checks that may look outside -/

def testAt? (bytes : Bytes) (position : Nat) (test : UInt8 → Prop) [DecidablePred test] :
    Option Bool :=
  bytes[position]?.map fun byte => decide (test byte)

/-- A check gives an answer, and the answer is whether something is so. -/
def Decides (check : Option Bool) (fact : Prop) : Prop :=
  ∃ answer, check = some answer ∧ (answer = true ↔ fact)

namespace Decides

variable {check next : Option Bool} {fact later : Prop}

theorem pure (fact : Prop) [Decidable fact] : Decides (Pure.pure (decide fact)) fact :=
  ⟨decide fact, rfl, decide_eq_true_iff⟩

theorem congr (decides : Decides check fact) (same : fact ↔ later) : Decides check later := by
  obtain ⟨answer, given, tells⟩ := decides
  exact ⟨answer, given, tells.trans same⟩

/-- A second check is made only after the first has passed, and may rely on it. -/
theorem and (first : Decides check fact) (second : fact → Decides next later) :
    Decides (check <&&> next) (fact ∧ later) := by
  obtain ⟨answer, rfl, tells⟩ := first
  cases answer with
  | false =>
      have fails : ¬ fact := fun holds => Bool.noConfusion (tells.mpr holds)
      exact ⟨false, rfl, iff_of_false Bool.false_ne_true fun both => fails both.1⟩
  | true =>
      have holds : fact := tells.mp rfl
      obtain ⟨last, given, tellsLater⟩ := second holds
      exact ⟨last, given, by rw [tellsLater, and_iff_right holds]⟩

theorem not (decides : Decides check fact) : Decides (check.map Bool.not) (¬ fact) := by
  obtain ⟨answer, rfl, tells⟩ := decides
  exact ⟨!answer, rfl, by rw [← tells, Bool.not_eq_true', Bool.not_eq_true]⟩

section Position

variable {bytes : Bytes} {position : Nat} (inside : position < bytes.length)

include inside

theorem bindAt {next : UInt8 → Option Bool} {fact : UInt8 → Prop}
    (rest : ∀ byte, Decides (next byte) (fact byte)) :
    Decides (bytes[position]?.bind next) (∃ byte, bytes[position]? = some byte ∧ fact byte) := by
  have found := List.getElem?_eq_getElem inside
  rw [found, Option.bind_some]
  refine (rest _).congr ⟨fun holds => ⟨_, rfl, holds⟩, ?_⟩
  rintro ⟨byte, same, holds⟩
  exact Option.some.inj same ▸ holds

theorem testAt (test : UInt8 → Prop) [DecidablePred test] :
    Decides (testAt? bytes position test) (∃ byte, bytes[position]? = some byte ∧ test byte) := by
  have bound : testAt? bytes position test =
      bytes[position]?.bind fun byte => Pure.pure (decide (test byte)) := by
    rw [testAt?, Option.map_eq_bind]
    rfl
  rw [bound]
  exact bindAt inside fun byte => .pure (test byte)

end Position

end Decides

/-! ## Checking by position -/

/-- Whether a number of a given length in its shortest form stands behind the tag at a position. -/
def numberAt? (bytes : Bytes) (tag length : Nat) : Option Bool :=
  testAt? bytes tag (· = 0x02) <&&> pure (decide (length ≠ 0)) <&&>
    testAt? bytes (tag + 2) (· &&& 0x80 = 0) <&&>
    (pure (decide (1 < length)) <&&> testAt? bytes (tag + 2) (· = 0) <&&>
      testAt? bytes (tag + 3) (· &&& 0x80 = 0)).map Bool.not

/-- `isStrict` by positions, which depend on the two lengths that are found on the way. -/
def isStrictByPosition? (signature : Bytes) : Option Bool :=
  pure (decide (9 ≤ signature.length ∧ signature.length ≤ 73)) <&&>
    testAt? signature 0 (· = 0x30) <&&>
    testAt? signature 1 (·.toNat = signature.length - 3) <&&>
    signature[3]?.bind fun first =>
      pure (decide (first.toNat + 5 < signature.length)) <&&>
      signature[first.toNat + 5]?.bind fun second =>
        pure (decide (first.toNat + second.toNat + 7 = signature.length)) <&&>
        numberAt? signature 2 first.toNat <&&>
        numberAt? signature (first.toNat + 4) second.toNat

theorem length_window {bytes : Bytes} {start length : Nat}
    (inside : start + length ≤ bytes.length) :
    ((bytes.drop start).take length).length = length := by
  rw [List.length_take, List.length_drop]
  omega

theorem isDerNumber_window_iff {bytes : Bytes} {start length : Nat}
    (inside : start + length ≤ bytes.length) :
    IsDerNumber ((bytes.drop start).take length) ↔
      length ≠ 0 ∧ (∃ first, bytes[start]? = some first ∧ first &&& 0x80 = 0) ∧
        ¬(1 < length ∧ (∃ first, bytes[start]? = some first ∧ first = 0) ∧
          ∃ second, bytes[start + 1]? = some second ∧ second &&& 0x80 = 0) := by
  have size := length_window inside
  have elementAt : ∀ offset, offset < length →
      ((bytes.drop start).take length)[offset]? = bytes[start + offset]? := by
    intro offset within
    rw [List.getElem?_take_of_lt within, List.getElem?_drop]
  constructor
  · intro number
    have positive : 0 < length := by
      rw [← size]
      exact List.length_pos_iff.mpr number.nonempty
    have isFirst := elementAt 0 positive
    have found := List.getElem?_eq_getElem (show start < bytes.length by omega)
    refine ⟨Nat.ne_of_gt positive, ⟨_, found, number.nonneg _ (isFirst.trans found)⟩, ?_⟩
    rintro ⟨long, ⟨_, isZero, rfl⟩, second, isSecond, clear⟩
    rcases number.shortest (isFirst.trans isZero) with single | ⟨other, isOther, set⟩
    · omega
    · rw [elementAt 1 long, isSecond] at isOther
      cases isOther
      exact set clear
  · rintro ⟨positive, ⟨first, found, clear⟩, needed⟩
    have isFirst := (elementAt 0 (Nat.pos_of_ne_zero positive)).trans found
    refine ⟨List.length_pos_iff.mp (by omega), ?_, fun zero => ?_⟩
    · intro other isOther
      rw [isFirst] at isOther
      cases isOther
      exact clear
    · rw [isFirst] at zero
      rw [size]
      by_cases long : 1 < length
      · have isSecond := List.getElem?_eq_getElem (show start + 1 < bytes.length by omega)
        refine .inr ⟨_, (elementAt 1 long).trans isSecond, fun clear => ?_⟩
        exact needed ⟨long, ⟨_, found.trans zero, rfl⟩, _, isSecond, clear⟩
      · exact .inl (by omega)

theorem numberAt?_decides {bytes : Bytes} {tag length : Nat}
    (inside : tag + 2 + length < bytes.length) :
    Decides (numberAt? bytes tag length)
      (bytes[tag]? = some 0x02 ∧ IsDerNumber ((bytes.drop (tag + 2)).take length)) := by
  have someTag : (∃ byte, bytes[tag]? = some byte ∧ byte = 0x02) ↔ bytes[tag]? = some 0x02 := by
    simp
  have isTag := (Decides.testAt (show tag < bytes.length by omega) (· = 0x02)).congr someTag
  rw [isDerNumber_window_iff (Nat.le_of_lt inside)]
  refine isTag.and fun _ => .and (.pure _) fun _ => .and (.testAt (by omega) _) fun _ => .not ?_
  exact .and (.pure _) fun long => .and (.testAt (by omega) _) fun _ => .testAt (by omega) _

/-! ## Parts by position -/

theorem drop_eq_cons_iff {bytes rest : Bytes} {position : Nat} {byte : UInt8} :
    bytes.drop position = byte :: rest ↔
      bytes[position]? = some byte ∧ bytes.drop (position + 1) = rest := by
  by_cases inside : position < bytes.length
  · rw [List.drop_eq_getElem_cons inside, List.getElem?_eq_getElem inside, List.cons.injEq,
      Option.some.injEq]
  · rw [List.drop_eq_nil_of_le (by omega), List.getElem?_eq_none (by omega)]
    exact iff_of_false nofun nofun

theorem drop_eq_append_iff {bytes front rest : Bytes} {position : Nat} :
    bytes.drop position = front ++ rest ↔
      (bytes.drop position).take front.length = front ∧
        bytes.drop (position + front.length) = rest := by
  rw [← List.drop_drop]
  constructor
  · intro same
    rw [same, List.take_left, List.drop_left]
    exact ⟨rfl, rfl⟩
  · rintro ⟨isFront, isRest⟩
    calc bytes.drop position
        = (bytes.drop position).take front.length ++ (bytes.drop position).drop front.length :=
          (List.take_append_drop _ _).symm
      _ = front ++ rest := by rw [isFront, isRest]

theorem drop_eq_numberField_iff {bytes number rest : Bytes} {tag : Nat} :
    bytes.drop tag = numberField number ++ rest ↔
      bytes[tag]? = some 0x02 ∧ bytes[tag + 1]? = some (UInt8.ofNat number.length) ∧
        (bytes.drop (tag + 2)).take number.length = number ∧
        bytes.drop (number.length + (tag + 2)) = rest := by
  rw [numberField, List.cons_append, List.cons_append, drop_eq_cons_iff, drop_eq_cons_iff,
    drop_eq_append_iff, Nat.add_comm number.length]

theorem eq_two_fields_iff {signature r s : Bytes} {length hashType : UInt8} :
    signature = 0x30 :: length :: (numberField r ++ numberField s ++ [hashType]) ↔
      signature[0]? = some 0x30 ∧ signature[1]? = some length ∧
        signature[2]? = some 0x02 ∧ signature[3]? = some (UInt8.ofNat r.length) ∧
        (signature.drop 4).take r.length = r ∧
        signature[r.length + 4]? = some 0x02 ∧
        signature[r.length + 5]? = some (UInt8.ofNat s.length) ∧
        (signature.drop (r.length + 6)).take s.length = s ∧
        signature.drop (s.length + (r.length + 6)) = [hashType] := by
  rw [← List.drop_zero (l := signature), drop_eq_cons_iff, drop_eq_cons_iff, List.append_assoc,
    drop_eq_numberField_iff, drop_eq_numberField_iff, List.drop_zero]

/-- What a strict signature has at its positions, which depend on the lengths of its numbers. -/
structure HasPositions (signature : Bytes) (first second : UInt8) : Prop where
  short : signature.length ≤ 73
  total : first.toNat + second.toNat + 7 = signature.length
  sequenceTag : signature[0]? = some 0x30
  length : ∃ length, signature[1]? = some length ∧ length.toNat = signature.length - 3
  firstLength : signature[3]? = some first
  secondLength : signature[first.toNat + 5]? = some second
  firstNumber : signature[2]? = some 0x02 ∧ IsDerNumber ((signature.drop 4).take first.toNat)
  secondNumber : signature[first.toNat + 4]? = some 0x02 ∧
    IsDerNumber ((signature.drop (first.toNat + 6)).take second.toNat)

theorem HasPositions.isMadeOf {signature : Bytes} {first second : UInt8}
    (positions : HasPositions signature first second) :
    ∃ r s hashType, IsMadeOf signature r s hashType := by
  have total := positions.total
  obtain ⟨length, isLength, announced⟩ := positions.length
  have firstSize := length_window (show 4 + first.toNat ≤ signature.length by omega)
  have secondSize :=
    length_window (show first.toNat + 6 + second.toNat ≤ signature.length by omega)
  obtain ⟨hashType, isLast⟩ :
      ∃ hashType, signature.drop (second.toNat + (first.toNat + 6)) = [hashType] := by
    rw [← List.length_eq_one_iff, List.length_drop]
    omega
  obtain ⟨firstTag, firstNumber⟩ := positions.firstNumber
  obtain ⟨secondTag, secondNumber⟩ := positions.secondNumber
  refine ⟨_, _, hashType, ?_, positions.short, firstNumber, secondNumber⟩
  rw [eq_two_fields_iff, ← announced, firstSize, secondSize, UInt8.ofNat_toNat,
    UInt8.ofNat_toNat, UInt8.ofNat_toNat]
  exact ⟨positions.sequenceTag, isLength, firstTag, positions.firstLength, rfl, secondTag,
    positions.secondLength, rfl, isLast⟩

theorem IsMadeOf.hasPositions {signature r s : Bytes} {hashType : UInt8}
    (made : IsMadeOf signature r s hashType) :
    HasPositions signature (UInt8.ofNat r.length) (UInt8.ofNat s.length) := by
  have size := made.length
  have short := made.short
  have toNat_ofNat : ∀ {number : Nat}, number < 256 → (UInt8.ofNat number).toNat = number :=
    fun small => UInt8.toNat_ofNat_of_lt' small
  have firstSize := toNat_ofNat (show r.length < 256 by omega)
  have secondSize := toNat_ofNat (show s.length < 256 by omega)
  obtain ⟨sequenceTag, isLength, firstTag, firstLength, firstTaken, secondTag, secondLength,
    secondTaken, -⟩ := eq_two_fields_iff.mp made.bytes
  constructor
  case short => exact short
  case total => omega
  case sequenceTag => exact sequenceTag
  case length => exact ⟨_, isLength, toNat_ofNat (by omega)⟩
  case firstLength => exact firstLength
  case secondLength => rwa [firstSize]
  case firstNumber =>
    rw [firstSize, firstTaken]
    exact ⟨firstTag, made.first⟩
  case secondNumber =>
    rw [firstSize, secondSize, secondTaken]
    exact ⟨secondTag, made.second⟩

/-- Every test is made at a position that the tests before it have shown to exist. -/
theorem isStrictByPosition?_decides (signature : Bytes) :
    Decides (isStrictByPosition? signature) (∃ r s hashType, IsMadeOf signature r s hashType) := by
  refine Decides.congr (.and (.pure _) fun sizes => .and (.testAt (by omega) _) fun _ =>
    .and (.testAt (by omega) _) fun _ => .bindAt (by omega) fun first =>
    .and (.pure _) fun inside => .bindAt inside fun second => .and (.pure _) fun total =>
    .and (numberAt?_decides (by omega)) fun _ => numberAt?_decides (by omega)) ?_
  constructor
  · rintro ⟨⟨-, short⟩, ⟨_, sequenceTag, rfl⟩, length, first, firstLength, -, second,
      secondLength, total, firstNumber, secondNumber⟩
    exact HasPositions.isMadeOf ⟨short, total, sequenceTag, length, firstLength, secondLength,
      firstNumber, secondNumber⟩
  · rintro ⟨r, s, hashType, made⟩
    have positions := made.hasPositions
    have total := positions.total
    have firstPositive := List.length_pos_iff.mpr made.first.nonempty
    have secondPositive := List.length_pos_iff.mpr made.second.nonempty
    have size := made.length
    refine ⟨⟨by omega, positions.short⟩, ⟨_, positions.sequenceTag, rfl⟩, positions.length, _,
      positions.firstLength, by omega, _, positions.secondLength, total, positions.firstNumber,
      positions.secondNumber⟩

/-- A signature is strict exactly if it is made of two numbers in their shortest form and a hash
type.  These parts are unique, and a check by positions finds out without leaving the bytes. -/
theorem strict_form_is_its_grammar (signature : Bytes) :
    (isStrict signature = true ↔ ∃ r s hashType, IsMadeOf signature r s hashType) ∧
    (∀ r s hashType otherR otherS otherType, IsMadeOf signature r s hashType →
      IsMadeOf signature otherR otherS otherType →
        r = otherR ∧ s = otherS ∧ hashType = otherType) ∧
    isStrictByPosition? signature = some (isStrict signature) := by
  refine ⟨isStrict_iff, ?_, ?_⟩
  · intro r s hashType otherR otherS otherType made other
    have read := readStrict?_eq_some_iff.mpr made
    rw [readStrict?_eq_some_iff.mpr other] at read
    cases read
    exact ⟨rfl, rfl, rfl⟩
  · obtain ⟨answer, given, tells⟩ := isStrictByPosition?_decides signature
    rw [given, Bool.eq_iff_iff.mpr (tells.trans isStrict_iff.symm)]

/-- The numbers 128, which needs a zero in front, and 1. -/
def ofTwoNumbers : Bytes :=
  [0x30, 0x07, 0x02, 0x02, 0x00, 0x80, 0x02, 0x01, 0x01, 0x83]

theorem ofTwoNumbers_isMadeOf : IsMadeOf ofTwoNumbers [0x00, 0x80] [0x01] 0x83 :=
  readStrict?_eq_some_iff.mp rfl

theorem strict_form_of_two_numbers :
    isStrict ofTwoNumbers = true ∧ isStrictByPosition? ofTwoNumbers = some true ∧
      ∀ r s hashType, IsMadeOf ofTwoNumbers r s hashType →
        r = [0x00, 0x80] ∧ s = [0x01] ∧ hashType = 0x83 := by
  obtain ⟨grammar, unique, byPosition⟩ := strict_form_is_its_grammar ofTwoNumbers
  have strict := grammar.mpr ⟨_, _, _, ofTwoNumbers_isMadeOf⟩
  refine ⟨strict, by rw [byPosition, strict], fun r s hashType made => ?_⟩
  exact unique _ _ _ _ _ _ made ofTwoNumbers_isMadeOf

end Signature

end CoinSpend
