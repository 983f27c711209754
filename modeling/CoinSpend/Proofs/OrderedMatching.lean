import Mathlib.Data.List.Forall2
import Mathlib.Data.List.NodupEquivFin
import CoinSpend.Proofs.ColumnMultisig
import CoinSpend.Proofs.SignatureBudget

/-!
# Signatures in the order of their keys

A multiple check compares from the top down and never looks back.  This finds an assignment
of keys to signatures in the same order whenever there is one: a key that fits the next
signature can be given to it, since whatever comes later finds its keys further down.
-/

namespace CoinSpend

/-! ## Relations along a list -/

section Sublist

open List

variable {α β : Type} {holds : α → β → Prop} {first : α} {second : β} {front : List α}
  {back : List β}

theorem length_le_of_sublistForall₂ (embeds : SublistForall₂ holds front back) :
    front.length ≤ back.length := by
  obtain ⟨chosen, related, within⟩ := sublistForall₂_iff.mp embeds
  rw [related.length_eq]
  exact within.length_le

theorem sublistForall₂_of_cons (embeds : SublistForall₂ holds (first :: front) back) :
    SublistForall₂ holds front back := by
  induction back with
  | nil => cases embeds
  | cons second back ih =>
      cases embeds with
      | cons _ later => exact .cons_right later
      | cons_right later => exact .cons_right (ih later)

/-- The exchange: where the first place fits, nothing is lost by taking it. -/
theorem sublistForall₂_cons_cons_of_holds (fits : holds first second) :
    SublistForall₂ holds (first :: front) (second :: back) ↔ SublistForall₂ holds front back := by
  constructor
  · intro embeds
    cases embeds with
    | cons _ later => exact later
    | cons_right later => exact sublistForall₂_of_cons later
  · exact .cons fits

theorem sublistForall₂_cons_cons_of_not (misfits : ¬ holds first second) :
    SublistForall₂ holds (first :: front) (second :: back) ↔
      SublistForall₂ holds (first :: front) back := by
  constructor
  · intro embeds
    cases embeds with
    | cons fits _ => exact absurd fits misfits
    | cons_right later => exact later
  · exact .cons_right

/-- Places for all, in increasing order, are a sublist that is related item by item. -/
theorem exists_strictMono_iff_sublistForall₂ :
    (∃ place : Fin front.length → Fin back.length, StrictMono place ∧
      ∀ index, holds (front.get index) (back.get (place index))) ↔
        SublistForall₂ holds front back := by
  rw [sublistForall₂_iff]
  constructor
  · rintro ⟨place, increases, related⟩
    have length := List.length_ofFn (f := fun index => back.get (place index))
    refine ⟨List.ofFn fun index => back.get (place index), ?_, ?_⟩
    · refine forall₂_iff_get.mpr ⟨length.symm, fun index inFront inChosen => ?_⟩
      rw [List.get_ofFn]
      exact related ⟨index, inFront⟩
    · refine sublist_iff_exists_fin_orderEmbedding_get_eq.mpr
        ⟨.ofStrictMono (fun index => place (index.cast length)) fun _ _ less => increases less,
          fun index => ?_⟩
      rw [List.get_ofFn]
      rfl
  · rintro ⟨chosen, related, within⟩
    obtain ⟨place, found⟩ := sublist_iff_exists_fin_orderEmbedding_get_eq.mp within
    obtain ⟨length, related⟩ := forall₂_iff_get.mp related
    refine ⟨fun index => place (index.cast length), fun _ _ less => place.strictMono less, ?_⟩
    intro index
    rw [← found]
    exact related index index.isLt (length ▸ index.isLt)

end Sublist

namespace Context

variable (context : Context)

def Accepts (code : Script) (signature key : Bytes) : Prop :=
  context.checker.signature signature key code context.version = true

/-- Every signature has a key that vouches for it, and the keys stand in the order of their
signatures. -/
def MatchesInOrder (code : Script) (signatures keys : List Bytes) : Prop :=
  ∃ place : Fin signatures.length → Fin keys.length, StrictMono place ∧
    ∀ index, context.Accepts code (signatures.get index) (keys.get (place index))

variable {context} {code : Script} {signature key : Bytes} {signatures keys : List Bytes}

theorem matchesInOrder_iff : context.MatchesInOrder code signatures keys ↔
    List.SublistForall₂ (context.Accepts code) signatures keys :=
  exists_strictMono_iff_sublistForall₂

theorem checkPair_of_formed
    (signatureFormed : Signature.checkEncoding signature context.flags = .ok ())
    (keyFormed : PublicKey.checkEncoding key context.flags context.version = .ok ()) :
    context.checkPair code signature key =
      ⟨[.signature signature key code context.version],
        .ok (context.checker.signature signature key code context.version)⟩ := by
  rw [checkPair, signatureFormed, keyFormed]
  rfl

variable (code signatures keys) in
/-- One comparison of good form either gives the key to the signature or passes over it, and
in both cases nothing that can be matched is lost. -/
theorem matchSignatures_cons
    (signatureFormed : Signature.checkEncoding signature context.flags = .ok ())
    (keyFormed : PublicKey.checkEncoding key context.flags context.version = .ok ()) :
    ∃ left, (left = signatures ∨ left = signature :: signatures) ∧
      (List.SublistForall₂ (context.Accepts code) (signature :: signatures) (key :: keys) ↔
        List.SublistForall₂ (context.Accepts code) left keys) ∧
      (context.matchSignatures code (signature :: signatures) (key :: keys)).result =
        if keys.length < left.length then .ok false
        else (context.matchSignatures code left keys).result := by
  cases answer : context.checker.signature signature key code context.version with
  | true =>
      refine ⟨signatures, Or.inl rfl, sublistForall₂_cons_cons_of_holds answer, ?_⟩
      rw [matchSignatures, checkPair_of_formed signatureFormed keyFormed, answer]
      change Outcome.result (if keys.length < signatures.length then _ else _) = _
      split <;> rfl
  | false =>
      have misfits : ¬ context.Accepts code signature key := by
        rw [Accepts, answer]
        exact Bool.false_ne_true
      refine ⟨signature :: signatures, Or.inr rfl, sublistForall₂_cons_cons_of_not misfits, ?_⟩
      rw [matchSignatures, checkPair_of_formed signatureFormed keyFormed, answer]
      change Outcome.result (if keys.length < (signature :: signatures).length then _ else _) = _
      split <;> rfl

variable (code) in
/-- Where all forms are good, the comparison ends and accepts exactly the signatures that stand
in the order of their keys. -/
theorem matchSignatures_decides
    (signaturesFormed : ∀ signature ∈ signatures,
      Signature.checkEncoding signature context.flags = .ok ())
    (keysFormed : ∀ key ∈ keys,
      PublicKey.checkEncoding key context.flags context.version = .ok ()) :
    ∃ accepted, (context.matchSignatures code signatures keys).result = .ok accepted ∧
      (accepted = true ↔ context.MatchesInOrder code signatures keys) := by
  simp only [matchesInOrder_iff]
  induction keys generalizing signatures with
  | nil =>
      cases signatures with
      | nil => exact ⟨true, rfl, fun _ => .nil, fun _ => rfl⟩
      | cons signature signatures => exact ⟨false, rfl, nofun, nofun⟩
  | cons key keys ih =>
      cases signatures with
      | nil => exact ⟨true, rfl, fun _ => .nil, fun _ => rfl⟩
      | cons signature signatures =>
          obtain ⟨keyFormed, keysFormed⟩ := List.forall_mem_cons.mp keysFormed
          obtain ⟨signatureFormed, laterFormed⟩ := List.forall_mem_cons.mp signaturesFormed
          obtain ⟨left, isLeft, embeds, compared⟩ :=
            matchSignatures_cons code signatures keys signatureFormed keyFormed
          rw [compared, embeds]
          split
          · rename_i fewer
            refine ⟨false, rfl, nofun, fun rest => ?_⟩
            exact absurd (length_le_of_sublistForall₂ rest) (Nat.not_le.mpr fewer)
          · refine ih ?_ keysFormed
            rcases isLeft with rfl | rfl
            · exact laterFormed
            · exact signaturesFormed

/-! ## What is asked -/

theorem mem_asked_checkPair {question : Question}
    (asked : question ∈ (context.checkPair code signature key).asked) :
    question = .signature signature key code context.version := by
  rcases Outcome.mem_asked_bind asked with silent | ⟨_, _, asked⟩
  · cases silent
  · rcases Outcome.mem_asked_bind asked with silent | ⟨_, _, asked⟩
    · cases silent
    · exact List.mem_singleton.mp asked

theorem mem_asked_matchSignatures {question : Question}
    (asked : question ∈ (context.matchSignatures code signatures keys).asked) :
    ∃ signature ∈ signatures, ∃ key ∈ keys,
      question = .signature signature key code context.version := by
  induction keys generalizing signatures with
  | nil => cases signatures <;> cases asked
  | cons key keys ih =>
      cases signatures with
      | nil => cases asked
      | cons signature signatures =>
          rw [matchSignatures] at asked
          rcases Outcome.mem_asked_bind asked with now | ⟨accepted, _, later⟩
          · exact ⟨signature, List.mem_cons_self, key, List.mem_cons_self,
              mem_asked_checkPair now⟩
          · have within : (if accepted then signatures else signature :: signatures) ⊆
                signature :: signatures := by
              cases accepted with
              | true => exact List.subset_cons_self signature signatures
              | false => exact List.Subset.refl _
            generalize (if accepted then signatures else signature :: signatures) = left
              at later within
            dsimp only at later
            split at later
            · cases later
            · obtain ⟨held, isHeld, other, isOther, isQuestion⟩ := ih later
              exact ⟨held, within isHeld, other, List.mem_cons_of_mem key isOther, isQuestion⟩

theorem length_asked_matchSignatures :
    (context.matchSignatures code signatures keys).asked.length ≤ keys.length := by
  have bounded := context.matchSignatures_asksAtMost code signatures keys
  have counted : (context.matchSignatures code signatures keys).signatureQuestions =
      (context.matchSignatures code signatures keys).asked.length := by
    refine List.countP_eq_length.mpr fun question asked => ?_
    obtain ⟨signature, -, key, -, rfl⟩ := mem_asked_matchSignatures asked
    rfl
  rwa [Outcome.AsksAtMost, counted] at bounded

theorem asked_settleMultisig (thenVerify : Bool) (operands : MultisigOperands) (counted : State) :
    (context.settleMultisig thenVerify operands code counted).asked =
      (context.matchSignatures code operands.signatures operands.keys).asked := by
  refine Outcome.asked_bind_of_silent fun accepted => ?_
  refine Outcome.asked_require_bind (Outcome.asked_require_bind ?_)
  exact (Outcome.asked_bind_of_silent fun _ => rfl).trans rfl

section LaidOut

variable {state counted : State} {operands : MultisigOperands}
  (laid : operands.LaidOut context.requireMinimal state.stack)
  (counts : state.countOperations operands.keys.length = .ok counted)

include laid counts

theorem asked_checkMultisig (thenVerify : Bool) :
    (context.checkMultisig thenVerify state).asked =
      (context.matchSignatures (context.signedScript state operands.signatures)
        operands.signatures operands.keys).asked := by
  rw [checkMultisig_eq, multisigOperands_of_laidOut laid counts]
  exact asked_settleMultisig thenVerify operands counted

theorem multisigPlaces_of_laidOut :
    context.multisigPlaces state.upended = pure (operands.places, counted.upended) := by
  have agrees := context.multisigPlaces_agrees state
  rw [multisigOperands_of_laidOut laid counts] at agrees
  exact agrees

end LaidOut

end Context

/-- A multiple check decides whether its signatures can be given keys in the same order.
Wherever its operands are laid out and of good form, the comparisons end, and they accept
exactly if there is a strictly increasing assignment of places among the keys such that the
checker accepts every signature with its key.  There are no more questions than keys, and all
of them are about the script that all signatures commit to. -/
theorem multisig_accepts_exactly_ordered_matchings {context : Context} {state : State}
    {operands : MultisigOperands} {code : Script}
    (laid : operands.LaidOut context.requireMinimal state.stack)
    (signaturesFormed : ∀ signature ∈ operands.signatures,
      Signature.checkEncoding signature context.flags = .ok ())
    (keysFormed : ∀ key ∈ operands.keys,
      PublicKey.checkEncoding key context.flags context.version = .ok ())
    (isCode : code = context.signedScript state operands.signatures) :
    ∃ asked accepted,
      context.matchSignatures code operands.signatures operands.keys = ⟨asked, .ok accepted⟩ ∧
      context.comparePairs code state.stack.reverse operands.places.keys
          operands.places.firstKey operands.places.signatures operands.places.firstSignature =
        .done ⟨asked, .ok accepted⟩ ∧
      (accepted = true ↔
        context.MatchesInOrder code operands.signatures operands.keys) ∧
      asked.length ≤ operands.keys.length ∧
      (∀ question ∈ asked, ∃ signature ∈ operands.signatures, ∃ key ∈ operands.keys,
        question = .signature signature key code context.version) ∧
      ∀ counted, state.countOperations operands.keys.length = .ok counted →
        context.multisigPlaces state.upended = pure (operands.places, counted.upended) ∧
        ∀ thenVerify, (context.checkMultisig thenVerify state).asked = asked := by
  obtain ⟨accepted, matched, decides⟩ :=
    Context.matchSignatures_decides code signaturesFormed keysFormed
  have compared : context.matchSignatures code operands.signatures operands.keys =
      ⟨(context.matchSignatures code operands.signatures operands.keys).asked,
        .ok accepted⟩ := by
    rw [← matched]
  have onColumn := context.comparePairs_operands laid.lieOn code
  rw [Checked.Agrees, Outcome.map, matched] at onColumn
  refine ⟨_, accepted, compared, onColumn, decides, Context.length_asked_matchSignatures,
    fun _ => Context.mem_asked_matchSignatures, fun counted counts => ⟨?_, fun thenVerify => ?_⟩⟩
  · exact Context.multisigPlaces_of_laidOut laid counts
  · rw [isCode]
    exact Context.asked_checkMultisig laid counts thenVerify

/-- The first and the third of three keys sign. -/
def MultisigOperands.twoOfThree : MultisigOperands :=
  ⟨[[1], [2], [3]], [[1], [3]], [], [[7]]⟩

def Checker.same : Checker :=
  { Checker.refuse with signature := fun signature key _ _ => signature == key }

def Context.ofSame : Context :=
  ⟨.empty, .ofList [.minimalData, .nullFail], .same, .base⟩

/-- The second key is passed over, and both signatures are matched. -/
theorem twoOfThree_is_matched :
    MultisigOperands.twoOfThree.LaidOut Context.ofSame.requireMinimal
        [[3], [1], [2], [3], [2], [1], [3], [], [7]] ∧
      (∀ signature ∈ MultisigOperands.twoOfThree.signatures,
        Signature.checkEncoding signature Context.ofSame.flags = .ok ()) ∧
      (∀ key ∈ MultisigOperands.twoOfThree.keys,
        PublicKey.checkEncoding key Context.ofSame.flags Context.ofSame.version = .ok ()) ∧
      ∃ asked,
        Context.ofSame.comparePairs .empty [[7], [], [3], [1], [2], [3], [2], [1], [3]] 3 2 2 6 =
          .done ⟨asked, .ok true⟩ ∧
        asked.length ≤ 3 := by
  have laid : MultisigOperands.twoOfThree.LaidOut Context.ofSame.requireMinimal
      [[3], [1], [2], [3], [2], [1], [3], [], [7]] :=
    ⟨⟨[3], [2], rfl, by decide +kernel, by decide +kernel⟩, by decide, by decide⟩
  have signaturesFormed : ∀ signature ∈ MultisigOperands.twoOfThree.signatures,
      Signature.checkEncoding signature Context.ofSame.flags = .ok () := by
    decide +kernel
  have keysFormed : ∀ key ∈ MultisigOperands.twoOfThree.keys,
      PublicKey.checkEncoding key Context.ofSame.flags Context.ofSame.version = .ok () := by
    decide +kernel
  obtain ⟨asked, accepted, -, onColumn, decides, few, -⟩ :=
    @multisig_accepts_exactly_ordered_matchings .ofSame
      (.ofStack [[3], [1], [2], [3], [2], [1], [3], [], [7]]) .twoOfThree .empty laid
      signaturesFormed keysFormed (by decide +kernel)
  have inOrder : Context.ofSame.MatchesInOrder .empty MultisigOperands.twoOfThree.signatures
      MultisigOperands.twoOfThree.keys := by
    refine ⟨fun index => if index.val = 0 then ⟨0, by decide⟩ else ⟨2, by decide⟩, ?_, ?_⟩
    · intro left right
      revert left right
      decide
    · unfold Context.Accepts
      decide
  rw [decides.mpr inOrder] at onColumn
  exact ⟨laid, signaturesFormed, keysFormed, asked, onColumn, few⟩

end CoinSpend
