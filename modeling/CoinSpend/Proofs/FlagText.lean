import Mathlib.Data.List.Basic
import Mathlib.Data.List.TakeWhile
import CoinSpend.Flags

/-!
# Texts of flags

A text of flags is cut at commas, and each piece counts without the blanks around it, if anything
is left.  So texts joined by a comma stand for the union of what they stand for, and how a set is
written does not matter beyond the names in it.
-/

namespace CoinSpend

/-! ## Pieces -/

namespace Text

variable {separator : Char} {piece left right text before after : List Char}

theorem splitFrom_append_separator :
    splitFrom separator piece (left ++ separator :: right) =
      splitFrom separator piece left ++ split separator right := by
  induction left generalizing piece with
  | nil =>
      rw [List.nil_append, splitFrom.eq_def separator piece (separator :: right)]
      exact if_pos rfl
  | cons char rest ih =>
      rw [List.cons_append, splitFrom, splitFrom]
      split_ifs with here
      · rw [ih, List.cons_append]
      · exact ih

theorem splitFrom_of_not_mem (free : separator ∉ text) :
    splitFrom separator piece text = [piece.reverse ++ text] := by
  induction text generalizing piece with
  | nil => rw [splitFrom, List.append_nil]
  | cons char rest ih =>
      rw [List.mem_cons, not_or] at free
      rw [splitFrom, if_neg (Ne.symm free.1), ih free.2, List.reverse_cons, List.append_assoc,
        List.singleton_append]

theorem split_append_separator :
    split separator (left ++ separator :: right) = split separator left ++ split separator right :=
  splitFrom_append_separator

theorem split_of_not_mem (free : separator ∉ text) : split separator text = [text] :=
  splitFrom_of_not_mem free

/-! ## Blanks at the ends -/

/-- Nothing but blanks. -/
def AllBlank (text : List Char) : Prop :=
  ∀ char ∈ text, isBlank char = true

theorem AllBlank.not_mem_comma (blank : AllBlank text) : ',' ∉ text :=
  fun member => absurd (blank _ member) (by decide)

theorem trim_of_blank (blank : AllBlank text) : trim text = [] := by
  rw [trim, List.dropWhile_eq_nil_iff.mpr blank]
  rfl

theorem trim_pad (blankBefore : AllBlank before) (blankAfter : AllBlank after) :
    trim (before ++ text ++ after) = trim text := by
  rw [trim, List.append_assoc, List.dropWhile_append_of_pos blankBefore, List.dropWhile_append]
  split_ifs with nothing
  · rw [List.isEmpty_iff] at nothing
    rw [List.dropWhile_eq_nil_iff.mpr blankAfter, trim, nothing]
  · have backwards : AllBlank after.reverse :=
      fun char member => blankAfter char (List.mem_reverse.mp member)
    rw [List.reverse_append, List.dropWhile_append_of_pos backwards, trim]

/-- A text that is blank at neither end is trimmed already. -/
theorem trim_eq_self (startsFull : ∀ char ∈ text.head?, isBlank char = false)
    (endsFull : ∀ char ∈ text.getLast?, isBlank char = false) : trim text = text := by
  have forwards : text.dropWhile isBlank = text := by
    cases text with
    | nil => rfl
    | cons char rest => exact List.dropWhile_cons_of_neg (by simp [startsFull char rfl])
  have backwards : text.reverse.dropWhile isBlank = text.reverse := by
    rw [← List.head?_reverse] at endsFull
    cases reversed : text.reverse with
    | nil => rfl
    | cons char rest =>
        rw [reversed] at endsFull
        exact List.dropWhile_cons_of_neg (by simp [endsFull char rfl])
  rw [trim, forwards, backwards, List.reverse_reverse]

end Text

/-! ## Places of flags -/

namespace Flag

theorem mem_all (flag : Flag) : flag ∈ all := by
  cases flag <;> decide

def position (flag : Flag) : Nat :=
  all.idxOf flag

theorem toBitVec_mask (flag : Flag) : flag.mask.toBitVec = BitVec.twoPow 32 flag.position := by
  cases flag <;> decide +kernel

end Flag

namespace Flags

/-! ## Unions -/

def bit (flags : Flags) (position : Nat) : Bool :=
  flags.bits.toBitVec.getLsbD position

theorem eq_of_bit_eq {left right : Flags}
    (same : ∀ position, left.bit position = right.bit position) : left = right := by
  obtain ⟨left⟩ := left
  obtain ⟨right⟩ := right
  refine congrArg Flags.mk (UInt32.toBitVec_inj.mp ?_)
  exact BitVec.eq_of_getLsbD_eq fun position _ => same position

@[simp] theorem bit_none (position : Nat) : none.bit position = false :=
  BitVec.getLsbD_zero

@[simp] theorem bit_union (left right : Flags) (position : Nat) :
    (left.union right).bit position = (left.bit position || right.bit position) :=
  BitVec.getLsbD_or

@[simp] theorem none_union (flags : Flags) : none.union flags = flags :=
  eq_of_bit_eq fun position => by simp

@[simp] theorem union_none (flags : Flags) : flags.union none = flags :=
  eq_of_bit_eq fun position => by simp

theorem union_assoc (first second third : Flags) :
    (first.union second).union third = first.union (second.union third) :=
  eq_of_bit_eq fun position => by simp [Bool.or_assoc]

/-- All the flags of some sets. -/
def unionAll (sets : List Flags) : Flags :=
  sets.foldr union none

theorem unionAll_cons (flags : Flags) (sets : List Flags) :
    unionAll (flags :: sets) = flags.union (unionAll sets) :=
  rfl

theorem unionAll_append (left right : List Flags) :
    unionAll (left ++ right) = (unionAll left).union (unionAll right) := by
  induction left with
  | nil => exact (none_union _).symm
  | cons flags rest ih => rw [List.cons_append, unionAll_cons, unionAll_cons, ih, union_assoc]

theorem bit_unionAll (sets : List Flags) (position : Nat) :
    (unionAll sets).bit position = sets.any fun flags => flags.bit position := by
  induction sets with
  | nil => exact bit_none position
  | cons flags rest ih =>
      rw [List.any_cons, ← ih, unionAll_cons, bit_union]

/-! ## Items -/

variable {left right text item before after : List Char} {flags : Flags}

theorem items_append_comma (left right : List Char) :
    items (left ++ ',' :: right) = items left ++ items right := by
  rw [items, Text.split_append_separator, List.map_append, List.filter_append]
  rfl

theorem items_of_not_mem_comma (free : ',' ∉ text) :
    items text = [Text.trim text].filter (· ≠ []) := by
  rw [items, Text.split_of_not_mem free, List.map_singleton]

theorem items_of_blank (blank : Text.AllBlank text) : items text = [] := by
  rw [items_of_not_mem_comma blank.not_mem_comma, Text.trim_of_blank blank]
  rfl

theorem items_pad (free : ',' ∉ text) (blankBefore : Text.AllBlank before)
    (blankAfter : Text.AllBlank after) : items (before ++ text ++ after) = items text := by
  have stillFree : ',' ∉ before ++ text ++ after := by
    simp only [List.mem_append, not_or]
    exact ⟨⟨blankBefore.not_mem_comma, free⟩, blankAfter.not_mem_comma⟩
  rw [items_of_not_mem_comma stillFree, items_of_not_mem_comma free,
    Text.trim_pad blankBefore blankAfter]

/-- A piece of a text that counts as it stands. -/
structure IsItem (item : List Char) : Prop where
  nonempty : item ≠ []
  noComma : ',' ∉ item
  startsFull : ∀ char ∈ item.head?, Text.isBlank char = false
  endsFull : ∀ char ∈ item.getLast?, Text.isBlank char = false

theorem items_of_isItem (isItem : IsItem item) : items item = [item] := by
  rw [items_of_not_mem_comma isItem.noComma,
    Text.trim_eq_self isItem.startsFull isItem.endsFull]
  exact List.filter_cons_of_pos (decide_eq_true isItem.nonempty)

/-- The items of a text with commas between them. -/
theorem items_intercalate {names : List (List Char)} (areItems : ∀ name ∈ names, IsItem name) :
    items ([','].intercalate names) = names := by
  induction names with
  | nil => rfl
  | cons name rest ih =>
      obtain ⟨isItem, later⟩ := List.forall_mem_cons.mp areItems
      cases rest with
      | nil => rw [List.intercalate_singleton, items_of_isItem isItem]
      | cons next rest =>
          rw [List.intercalate_cons_cons, List.append_assoc, List.singleton_append,
            items_append_comma, items_of_isItem isItem, ih later]
          rfl

/-! ## Reading items -/

/-- Items are read up to the first one that is unknown, and as all their flags if none is. -/
theorem ofItems_eq (flags : Flags) (items : List (List Char)) :
    ofItems flags items =
      match items.find? fun item => (ofName? item).isNone with
      | some item => .error item
      | Option.none => .ok (flags.union (unionAll (items.filterMap ofName?))) := by
  induction items generalizing flags with
  | nil => exact congrArg Except.ok (union_none flags).symm
  | cons item rest ih =>
      rw [ofItems, List.find?_cons]
      cases known : ofName? item with
      | none => rfl
      | some named =>
          rw [Option.isNone_some, List.filterMap_cons_some known, unionAll_cons, ← union_assoc]
          exact ih _

theorem parse_eq (text : List Char) :
    parse text =
      match (items text).find? fun item => (ofName? item).isNone with
      | some item => .error item
      | Option.none => .ok (unionAll ((items text).filterMap ofName?)) := by
  rw [parse, ofItems_eq, none_union]

/-- The error is the first item that is no name. -/
theorem parse_eq_error_iff : parse text = .error item ↔
    ∃ earlier later, items text = earlier ++ item :: later ∧ ofName? item = Option.none ∧
      ∀ other ∈ earlier, ofName? other ≠ Option.none := by
  have first : parse text = .error item ↔
      (items text).find? (fun other => (ofName? other).isNone) = some item := by
    rw [parse_eq]
    cases (items text).find? fun other => (ofName? other).isNone with
    | none => simp
    | some unknown => simp
  rw [first, List.find?_eq_some_iff_append]
  simp only [Bool.not_eq_true', Option.isNone_iff_eq_none, Option.isNone_eq_false_iff,
    Option.isSome_iff_ne_none]
  constructor
  · rintro ⟨unknown, earlier, later, cut, known⟩
    exact ⟨earlier, later, cut, unknown, known⟩
  · rintro ⟨earlier, later, cut, unknown, known⟩
    exact ⟨unknown, earlier, later, cut, known⟩

theorem parse_eq_ok_iff :
    parse text = .ok flags ↔
      (∀ item ∈ items text, (ofName? item).isSome = true) ∧
        unionAll ((items text).filterMap ofName?) = flags := by
  rw [parse_eq]
  cases found : (items text).find? fun item => (ofName? item).isNone with
  | none =>
      have known : ∀ item ∈ items text, (ofName? item).isSome = true := by
        intro item member
        have notUnknown := List.find?_eq_none.mp found item member
        rwa [Option.isNone_iff_eq_none, ← ne_eq, ← Option.isSome_iff_ne_none] at notUnknown
      rw [Except.ok.injEq]
      exact ⟨fun same => ⟨known, same⟩, fun valid => valid.2⟩
  | some unknown =>
      have member := List.mem_of_find?_eq_some found
      have isUnknown := List.find?_some found
      refine iff_of_false nofun fun known => ?_
      rw [Option.isNone_iff_eq_none] at isUnknown
      simpa [isUnknown] using known.1 unknown member

theorem parse_append_comma (left right : List Char) :
    parse (left ++ ',' :: right) = (do
      let first ← parse left
      let second ← parse right
      return first.union second) := by
  rw [parse_eq, parse_eq left, parse_eq right, items_append_comma, List.find?_append,
    List.filterMap_append, unionAll_append]
  cases (items left).find? fun item => (ofName? item).isNone with
  | some item => rfl
  | none =>
      cases (items right).find? fun item => (ofName? item).isNone with
      | some item => rfl
      | none => rfl

theorem parse_append_comma_eq_ok_iff : parse (left ++ ',' :: right) = .ok flags ↔
    ∃ first second, parse left = .ok first ∧ parse right = .ok second ∧
      flags = ⟨first.bits ||| second.bits⟩ := by
  rw [parse_append_comma]
  rcases parse left with unknown | first
  · exact iff_of_false nofun nofun
  · rcases parse right with unknown | second
    · exact iff_of_false nofun nofun
    · constructor
      · rintro ⟨rfl⟩
        exact ⟨first, second, rfl, rfl, rfl⟩
      · rintro ⟨_, _, ⟨rfl⟩, ⟨rfl⟩, rfl⟩
        rfl

theorem parse_append_comma_eq_error_iff : parse (left ++ ',' :: right) = .error item ↔
    parse left = .error item ∨ (∃ first, parse left = .ok first) ∧ parse right = .error item := by
  rw [parse_append_comma]
  rcases parse left with unknown | first
  · simp [Bind.bind, Except.bind]
  · rcases parse right with unknown | second
    · simp [Bind.bind, Except.bind]
    · simp [Bind.bind, Except.bind, Pure.pure, Except.pure]

theorem parse_of_isItem (isItem : IsItem item) :
    parse item = (ofName? item).elim (.error item) .ok := by
  rw [parse, items_of_isItem isItem, ofItems]
  cases ofName? item with
  | none => rfl
  | some flags => exact congrArg Except.ok (none_union flags)

/-! ## Names -/

/-- The names of sets, of which all but the first have a single flag. -/
def table : List (List Char × Flags) :=
  ("NONE".toList, none) :: Flag.all.map fun flag => (flag.name.toList, ⟨flag.mask⟩)

theorem mem_table_iff {name : List Char} :
    (name, flags) ∈ table ↔
      (name = "NONE".toList ∧ flags = none) ∨
        ∃ flag : Flag, name = flag.name.toList ∧ flags = ⟨flag.mask⟩ := by
  simp only [table, List.mem_cons, List.mem_map, Prod.mk.injEq, Flag.mem_all, true_and]
  simp only [eq_comm]

theorem find?_name (flag : Flag) :
    (Flag.all.find? fun other => other.name.toList = flag.name.toList) = some flag := by
  have each : ∀ flag ∈ Flag.all,
      (Flag.all.find? fun other => other.name.toList = flag.name.toList) = some flag := by
    decide +kernel
  exact each flag flag.mem_all

theorem ofName?_eq_some_iff_mem : ofName? item = some flags ↔ (bareName item, flags) ∈ table := by
  have ordinary : ∀ flag : Flag, flag.name.toList ≠ "NONE".toList := by
    intro flag
    cases flag <;> decide +kernel
  rw [mem_table_iff, ofName?]
  split_ifs with isNone
  · rw [isNone]
    constructor
    · intro found
      exact .inl ⟨rfl, (Option.some.inj found).symm⟩
    · rintro (⟨-, rfl⟩ | ⟨flag, same, -⟩)
      · rfl
      · exact absurd same.symm (ordinary flag)
  · constructor
    · intro found
      obtain ⟨flag, isFlag, rfl⟩ := Option.map_eq_some_iff.mp found
      have isName := List.find?_some isFlag
      exact .inr ⟨flag, (of_decide_eq_true isName).symm, rfl⟩
    · rintro (⟨same, -⟩ | ⟨flag, same, rfl⟩)
      · exact absurd same isNone
      · rw [same, find?_name]
        rfl

/-- No name begins like the optional beginning, so at most one beginning is left out. -/
theorem bareName_eq_iff {name : List Char} (known : (name, flags) ∈ table) :
    bareName item = name ↔ item = name ∨ item = "VERIFY_".toList ++ name := by
  have plain : ∀ entry ∈ table, "VERIFY_".toList.isPrefixOf entry.1 = false := by
    decide +kernel
  have bareSelf : bareName name = name := by
    rw [bareName, plain _ known, if_neg Bool.false_ne_true]
  have bareLong : bareName ("VERIFY_".toList ++ name) = name := by
    rw [bareName, if_pos (List.isPrefixOf_iff_prefix.mpr (List.prefix_append _ _))]
    exact List.drop_left
  constructor
  · intro same
    rw [bareName] at same
    split_ifs at same with begun
    · obtain ⟨rest, rfl⟩ := List.isPrefixOf_iff_prefix.mp begun
      rw [List.drop_left] at same
      exact .inr (congrArg _ same)
    · exact .inl same
  · rintro (rfl | rfl)
    · exact bareSelf
    · exact bareLong

theorem ofName?_eq_some_iff : ofName? item = some flags ↔
    ∃ name, (name, flags) ∈ table ∧ (item = name ∨ item = "VERIFY_".toList ++ name) := by
  rw [ofName?_eq_some_iff_mem]
  constructor
  · intro known
    exact ⟨_, known, (bareName_eq_iff known).mp rfl⟩
  · rintro ⟨name, known, written⟩
    rwa [(bareName_eq_iff known).mpr written]

/-- Only the name itself counts, not whether it starts with `VERIFY_`. -/
theorem ofName?_congr {other : List Char} (same : bareName item = bareName other) :
    ofName? item = ofName? other := by
  ext flags
  rw [ofName?_eq_some_iff_mem, ofName?_eq_some_iff_mem, same]

theorem bit_unionAll_filterMap (items : List (List Char)) (position : Nat) :
    (unionAll (items.filterMap ofName?)).bit position = true ↔
      ∃ item ∈ items, ∃ flags, ofName? item = some flags ∧ flags.bit position = true := by
  rw [bit_unionAll, List.any_eq_true]
  constructor
  · rintro ⟨flags, member, isSet⟩
    obtain ⟨item, listed, known⟩ := List.mem_filterMap.mp member
    exact ⟨item, listed, flags, known, isSet⟩
  · rintro ⟨item, listed, flags, known, isSet⟩
    exact ⟨flags, List.mem_filterMap.mpr ⟨item, listed, known⟩, isSet⟩

/-- Every name of one text is a name of the other. -/
def NamesWithin (left right : List Char) : Prop :=
  ∀ item ∈ items left, ∃ other ∈ items right, bareName item = bareName other

instance : Decidable (NamesWithin left right) :=
  inferInstanceAs
    (Decidable (∀ item ∈ items left, ∃ other ∈ items right, bareName item = bareName other))

theorem bit_of_namesWithin {position : Nat} (within : NamesWithin left right)
    (isSet : (unionAll ((items left).filterMap ofName?)).bit position = true) :
    (unionAll ((items right).filterMap ofName?)).bit position = true := by
  rw [bit_unionAll_filterMap] at isSet ⊢
  obtain ⟨item, listed, flags, known, isSet⟩ := isSet
  obtain ⟨other, alsoListed, same⟩ := within item listed
  exact ⟨other, alsoListed, flags, ofName?_congr same ▸ known, isSet⟩

/-- Texts with the same names are read alike, whatever their order, and however often each name
stands in them. -/
theorem parse_eq_ok_of_namesWithin (within : NamesWithin left right)
    (covering : NamesWithin right left) (valid : parse left = .ok flags) :
    parse right = .ok flags := by
  rw [parse_eq_ok_iff] at valid ⊢
  obtain ⟨known, rfl⟩ := valid
  constructor
  · intro item listed
    obtain ⟨other, alsoListed, same⟩ := covering item listed
    rw [ofName?_congr same]
    exact known other alsoListed
  · refine eq_of_bit_eq fun position => Bool.eq_iff_iff.mpr ⟨?_, ?_⟩
    · exact bit_of_namesWithin covering
    · exact bit_of_namesWithin within

/-! ## Bits -/

theorem bit_mask (flag : Flag) (position : Nat) :
    (Flags.mk flag.mask).bit position = decide (flag.position = position) := by
  have inside : flag.position < 32 := by
    cases flag <;> decide +kernel
  rw [bit, Flag.toBitVec_mask, BitVec.getLsbD_twoPow, decide_eq_true inside, Bool.true_and]

theorem has_eq_bit (flags : Flags) (flag : Flag) : flags.has flag = flags.bit flag.position := by
  have nonzero : flag.mask ≠ 0 := by
    cases flag <;> decide
  have masked : flags.bits &&& flag.mask = if flags.bit flag.position then flag.mask else 0 := by
    rw [← UInt32.toBitVec_inj, UInt32.toBitVec_and, apply_ite UInt32.toBitVec, flag.toBitVec_mask,
      BitVec.and_twoPow]
    rfl
  rw [has, masked]
  cases flags.bit flag.position with
  | false => rfl
  | true => exact bne_iff_ne.mpr nonzero

theorem bit_low (flags : Flags) (position : Nat) :
    (Flags.mk (flags.bits &&& 0xffff)).bit position =
      (flags.bit position && decide (position < 16)) := by
  have ones : (0xffff : UInt32).toBitVec = BitVec.ofNat 32 (2 ^ 16 - 1) := rfl
  have isLow : (0xffff : UInt32).toBitVec.getLsbD position = decide (position < 16) := by
    rw [ones, BitVec.getLsbD_ofNat, Nat.testBit_two_pow_sub_one, ← Bool.decide_and]
    exact decide_eq_decide.mpr (by omega)
  rw [bit, UInt32.toBitVec_and, BitVec.getLsbD_and, isLow, bit]

/-- The flags of a set are its bits at the sixteen places that have a flag. -/
theorem unionAll_toList (flags : Flags) :
    unionAll (flags.toList.map fun flag => ⟨flag.mask⟩) = ⟨flags.bits &&& 0xffff⟩ := by
  have places : Flag.all.map Flag.position = List.range 16 := by decide +kernel
  refine eq_of_bit_eq fun position => Bool.eq_iff_iff.mpr ?_
  rw [bit_low, bit_unionAll, List.any_map, List.any_eq_true, Bool.and_eq_true, decide_eq_true_eq,
    ← List.mem_range, ← places]
  simp only [toList, List.mem_filter, List.mem_map, Function.comp_apply, bit_mask, has_eq_bit,
    decide_eq_true_eq]
  constructor
  · rintro ⟨flag, ⟨listed, isSet⟩, rfl⟩
    exact ⟨isSet, flag, listed, rfl⟩
  · rintro ⟨isSet, flag, listed, rfl⟩
    exact ⟨flag, ⟨listed, isSet⟩, rfl⟩

/-! ## Writing names -/

theorem isItem_name (flag : Flag) : IsItem flag.name.toList := by
  have nonempty : flag.name.toList ≠ [] := by
    cases flag <;> decide +kernel
  have noComma : ',' ∉ flag.name.toList := by
    cases flag <;> decide +kernel
  have noBlank : flag.name.toList.all (fun char => !Text.isBlank char) = true := by
    cases flag <;> decide +kernel
  simp only [List.all_eq_true, Bool.not_eq_true'] at noBlank
  exact ⟨nonempty, noComma, fun char member => noBlank char (List.mem_of_mem_head? member),
    fun char member => noBlank char (List.mem_of_mem_getLast? member)⟩

theorem ofName?_name (flag : Flag) : ofName? flag.name.toList = some ⟨flag.mask⟩ :=
  ofName?_eq_some_iff.mpr ⟨_, mem_table_iff.mpr (.inr ⟨flag, rfl, rfl⟩), .inl rfl⟩

/-- What is written as the names of a set is read as its flags. -/
theorem parse_names (flags : Flags) :
    parse (String.intercalate "," flags.names).toList = .ok ⟨flags.bits &&& 0xffff⟩ := by
  have written : items (String.intercalate "," flags.names).toList =
      flags.toList.map fun flag => flag.name.toList := by
    rw [String.toList_intercalate, names, List.map_map]
    refine items_intercalate fun name member => ?_
    obtain ⟨flag, -, rfl⟩ := List.mem_map.mp member
    exact isItem_name flag
  rw [parse_eq_ok_iff, written]
  constructor
  · intro item member
    obtain ⟨flag, -, rfl⟩ := List.mem_map.mp member
    exact Option.isSome_of_eq_some (ofName?_name flag)
  · rw [List.filterMap_map, ← unionAll_toList, ← List.filterMap_eq_map]
    exact congrArg unionAll (List.filterMap_congr fun flag _ => ofName?_name flag)

/-- Reading a flag text.  A comma stands for the union of what is read on its two sides, and both
must be readable; otherwise the error is the first item, in the order of the text, that is no name.
So what is read depends on the names alone: on neither their order nor how often they stand there,
nor on empty pieces, blanks around a piece or a `VERIFY_` before a name.  A name stands for its row
of the table, and the names of a set are read as the sixteen bits of the set that have a name. -/
theorem flag_text_is_a_union_of_names :
    (∀ left right flags, parse (left ++ ',' :: right) = .ok flags ↔
      ∃ first second, parse left = .ok first ∧ parse right = .ok second ∧
        flags = ⟨first.bits ||| second.bits⟩) ∧
    (∀ left right item, parse (left ++ ',' :: right) = .error item ↔
      parse left = .error item ∨ (∃ first, parse left = .ok first) ∧ parse right = .error item) ∧
    (∀ text item, parse text = .error item ↔
      ∃ earlier later, items text = earlier ++ item :: later ∧ ofName? item = Option.none ∧
        ∀ other ∈ earlier, ofName? other ≠ Option.none) ∧
    (∀ left right flags, NamesWithin left right → NamesWithin right left →
      parse left = .ok flags → parse right = .ok flags) ∧
    (∀ before text after, ',' ∉ text → Text.AllBlank before → Text.AllBlank after →
      parse (before ++ text ++ after) = parse text) ∧
    (∀ text, Text.AllBlank text → parse text = .ok none) ∧
    (∀ item, IsItem item → parse item = (ofName? item).elim (.error item) .ok) ∧
    (∀ item flags, ofName? item = some flags ↔
      ∃ name, (name, flags) ∈ table ∧ (item = name ∨ item = "VERIFY_".toList ++ name)) ∧
    ∀ flags : Flags, parse (String.intercalate "," flags.names).toList =
      .ok ⟨flags.bits &&& 0xffff⟩ := by
  refine ⟨?_, ?_, ?_, ?_, ?_, ?_, ?_, ?_, parse_names⟩
  · intro left right flags
    exact parse_append_comma_eq_ok_iff
  · intro left right item
    exact parse_append_comma_eq_error_iff
  · intro text item
    exact parse_eq_error_iff
  · intro left right flags within covering
    exact parse_eq_ok_of_namesWithin within covering
  · intro before text after free blankBefore blankAfter
    rw [parse, items_pad free blankBefore blankAfter, parse]
  · intro text blank
    rw [parse, items_of_blank blank, ofItems]
  · intro item isItem
    exact parse_of_isItem isItem
  · intro item flags
    exact ofName?_eq_some_iff

/-- Of two texts with the names of two flags, in different orders and with different things around
them, one is read as the other. -/
theorem untidy_flag_text_is_read_alike :
    parse " VERIFY_P2SH,,DERSIG\n".toList = .ok ⟨5⟩ ∧
      parse "DERSIG,P2SH,P2SH".toList = .ok ⟨5⟩ := by
  obtain ⟨-, -, -, sameNames, -, -, -, -, -⟩ := flag_text_is_a_union_of_names
  have tidy : parse "DERSIG,P2SH,P2SH".toList = .ok ⟨5⟩ := by rfl
  refine ⟨sameNames "DERSIG,P2SH,P2SH".toList _ _ ?_ ?_ tidy, tidy⟩
  · decide +kernel
  · decide +kernel

end Flags

end CoinSpend
