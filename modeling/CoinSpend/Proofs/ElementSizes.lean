import Mathlib.Tactic.Tauto
import CoinSpend.Interpreter.Evaluation
import CoinSpend.Proofs.NumberSizes
import CoinSpend.Proofs.Outcome
import CoinSpend.Proofs.PushOnly

/-!
# Elements stay short

No operation joins elements.  What it leaves is what it found, or a digest, a truth value
or a number; and the numbers are small, because the stack is never deeper than its limit
and no element is longer than its limit.
-/

namespace CoinSpend

namespace Stack

/-- Every element is within the limit for pushes. -/
def IsShort (stack : Stack) : Prop :=
  ∀ element ∈ stack, element.length ≤ Limits.maxElementSize

/-- What an element of the next stack is: an old element, a short new one, or the number
of the old elements or of the bytes of one of them. -/
inductive Made (old next : Stack) : Bytes → Prop where
  | kept {element : Bytes} (member : element ∈ old) : Made old next element
  | brief {element : Bytes} (brief : element.length ≤ 32) : Made old next element
  | depth (deeper : old.length < next.length) : Made old next (ScriptNumber.encode old.length)
  | size {element : Bytes} (member : element ∈ old) :
      Made old next (ScriptNumber.encode element.length)

/-- Numbers up to the limits of the stack and of elements take at most two bytes. -/
theorem length_encode_le_two {count : Nat} (small : count < 2 ^ 15) :
    (ScriptNumber.encode count).length ≤ 1 + 1 :=
  ScriptNumber.length_encode_le (by rw [Int.natAbs_natCast]; exact small)

theorem Made.isShort {old next : Stack} {element : Bytes} (made : Made old next element)
    (short : old.IsShort) (room : next.length ≤ Limits.maxStackSize) :
    element.length ≤ Limits.maxElementSize := by
  have two : 2 ≤ Limits.maxElementSize := by decide
  cases made with
  | kept member => exact short element member
  | brief brief => exact Nat.le_trans brief (by decide)
  | depth deeper =>
      have bound : old.length < 2 ^ 15 :=
        Nat.lt_of_lt_of_le deeper (Nat.le_trans room (by decide))
      exact Nat.le_trans (length_encode_le_two bound) two
  | size member =>
      have bound := Nat.lt_of_le_of_lt (short _ member)
        (show Limits.maxElementSize < 2 ^ 15 by decide)
      exact Nat.le_trans (length_encode_le_two bound) two

theorem made_of_subset {old next : Stack} (subset : next ⊆ old) :
    ∀ element ∈ next, Made old next element :=
  fun _ member => .kept (subset member)

/-- A short element on top of old ones. -/
theorem made_of_brief {old rest : Stack} {top : Bytes} (brief : top.length ≤ 32)
    (subset : rest ⊆ old) : ∀ element ∈ top :: rest, Made old (top :: rest) element :=
  List.forall_mem_cons.mpr ⟨.brief brief, fun _ member => .kept (subset member)⟩

variable {requireMinimal : Bool} {stack next : Stack}

theorem made_of_fetchAt {moved : Bool} (fetched : fetchAt requireMinimal moved stack = .ok next) :
    ∀ element ∈ next, Made stack next element := by
  unfold fetchAt at fetched
  split at fetched
  · rename_i top second rest
    obtain ⟨number, -, fetched⟩ := Except.bind_eq_ok_iff.mp fetched
    obtain ⟨depth, -, fetched⟩ := Except.bind_eq_ok_iff.mp fetched
    unfold fetch at fetched
    split at fetched
    · rename_i found isFound
      cases fetched
      have member : found ∈ second :: rest := List.mem_of_getElem? isFound
      apply made_of_subset
      rw [List.cons_subset]
      refine ⟨List.mem_cons_of_mem top member, ?_⟩
      split
      · exact fun _ inside => List.mem_cons_of_mem top (List.mem_of_mem_eraseIdx inside)
      · exact List.subset_cons_self top _
    · cases fetched
  · cases fetched

/-- Moving and copying makes nothing but depths and sizes. -/
theorem made_of_apply {operation : StackOperation}
    (applied : apply requireMinimal operation stack = .ok next) :
    ∀ element ∈ next, Made stack next element := by
  unfold apply at applied
  split at applied
  case h_7 =>
    cases applied
    apply made_of_subset
    split
    · exact List.cons_subset.mpr ⟨List.mem_cons_self, List.Subset.refl _⟩
    · exact List.Subset.refl _
  case h_8 =>
    cases applied
    exact List.forall_mem_cons.mpr ⟨.depth (Nat.lt_succ_self _), fun _ member => .kept member⟩
  case h_13 => exact made_of_fetchAt applied
  case h_14 => exact made_of_fetchAt applied
  case h_18 top rest =>
    cases applied
    exact List.forall_mem_cons.mpr ⟨.size List.mem_cons_self, fun _ member => .kept member⟩
  all_goals
    cases applied
    try
      refine made_of_subset fun element member => ?_
      simp only [List.mem_cons] at member ⊢
      tauto

theorem brief_of_encode {number : Int} (small : number.natAbs < 2 ^ 39) :
    (ScriptNumber.encode number).length ≤ 32 := by
  have short : (ScriptNumber.encode number).length ≤ 4 + 1 := ScriptNumber.length_encode_le small
  omega

theorem brief_ofBool (value : Bool) : (ScriptNumber.ofBool value).length ≤ 32 := by
  cases value <;> decide

theorem made_of_applyUnary {operation : UnaryOperation}
    (applied : applyUnary requireMinimal operation stack = .ok next) :
    ∀ element ∈ next, Made stack next element := by
  unfold applyUnary at applied
  split at applied
  · obtain ⟨number, isNumber, applied⟩ := Except.bind_eq_ok_iff.mp applied
    cases applied
    have operand := natAbs_lt_of_operand_eq_ok isNumber
    have result := natAbs_unaryValue_le operation number
    exact made_of_brief (brief_of_encode (by omega)) (List.subset_cons_self _ _)
  · cases applied

theorem made_of_applyBinary {operation : BinaryOperation}
    (applied : applyBinary requireMinimal operation stack = .ok next) :
    ∀ element ∈ next, Made stack next element := by
  unfold applyBinary at applied
  split at applied
  · obtain ⟨left, isLeft, applied⟩ := Except.bind_eq_ok_iff.mp applied
    obtain ⟨right, isRight, applied⟩ := Except.bind_eq_ok_iff.mp applied
    cases applied
    have leftOperand := natAbs_lt_of_operand_eq_ok isLeft
    have rightOperand := natAbs_lt_of_operand_eq_ok isRight
    have result := natAbs_binaryValue_le operation left right
    refine made_of_brief (brief_of_encode (by omega)) ?_
    exact fun _ member => List.mem_cons_of_mem _ (List.mem_cons_of_mem _ member)
  · cases applied

theorem made_of_applyNumEqualVerify
    (applied : applyNumEqualVerify requireMinimal stack = .ok next) :
    ∀ element ∈ next, Made stack next element := by
  unfold applyNumEqualVerify at applied
  split at applied
  · obtain ⟨left, -, applied⟩ := Except.bind_eq_ok_iff.mp applied
    obtain ⟨right, -, applied⟩ := Except.bind_eq_ok_iff.mp applied
    split at applied
    · cases applied
      exact made_of_subset fun _ member =>
        List.mem_cons_of_mem _ (List.mem_cons_of_mem _ member)
    · cases applied
  · cases applied

theorem made_of_applyWithin (applied : applyWithin requireMinimal stack = .ok next) :
    ∀ element ∈ next, Made stack next element := by
  unfold applyWithin at applied
  split at applied
  · obtain ⟨number, -, applied⟩ := Except.bind_eq_ok_iff.mp applied
    obtain ⟨least, -, applied⟩ := Except.bind_eq_ok_iff.mp applied
    obtain ⟨bound, -, applied⟩ := Except.bind_eq_ok_iff.mp applied
    cases applied
    refine made_of_brief (brief_ofBool _) ?_
    exact fun _ member =>
      List.mem_cons_of_mem _ (List.mem_cons_of_mem _ (List.mem_cons_of_mem _ member))
  · cases applied

theorem made_of_applyEqual {thenVerify : Bool} (applied : applyEqual thenVerify stack = .ok next) :
    ∀ element ∈ next, Made stack next element := by
  unfold applyEqual at applied
  split at applied
  · rename_i right left rest
    have subset : rest ⊆ right :: left :: rest := fun _ member =>
      List.mem_cons_of_mem _ (List.mem_cons_of_mem _ member)
    split at applied
    · split at applied
      · cases applied
        exact made_of_subset subset
      · cases applied
    · cases applied
      exact made_of_brief (brief_ofBool _) subset
  · cases applied

theorem made_of_applyVerify (applied : applyVerify stack = .ok next) :
    ∀ element ∈ next, Made stack next element := by
  unfold applyVerify at applied
  split at applied
  · split at applied
    · cases applied
      exact made_of_subset (List.subset_cons_self _ _)
    · cases applied
  · cases applied

theorem brief_hashValue (operation : HashOperation) (element : Bytes) :
    (hashValue operation element).length ≤ 32 := by
  cases operation with
  | ripemd160 => exact Nat.le_trans (Nat.le_of_eq (Digest.length_bytes _)) (by decide)
  | sha1 => exact Nat.le_trans (Nat.le_of_eq (Digest.length_bytes _)) (by decide)
  | sha256 => exact Nat.le_of_eq (Digest.length_bytes _)
  | hash160 => exact Nat.le_trans (Nat.le_of_eq (Digest.length_bytes _)) (by decide)
  | doubleSha256 => exact Nat.le_of_eq (Digest.length_bytes _)

theorem made_of_applyHash {operation : HashOperation}
    (applied : applyHash operation stack = .ok next) :
    ∀ element ∈ next, Made stack next element := by
  unfold applyHash at applied
  split at applied
  · cases applied
    exact made_of_brief (brief_hashValue _ _) (List.subset_cons_self _ _)
  · cases applied

end Stack

end CoinSpend
