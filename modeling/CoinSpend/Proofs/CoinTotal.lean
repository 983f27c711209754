import Mathlib.Data.List.Nodup
import CoinSpend.Coin
import CoinSpend.Sum

/-!
# The money in a view

The money in a view is the exact sum of the values of its coins.  Spending takes the
values of the coins out of it, and adding a transaction puts the values of its outputs
in, as long as no coin is spent twice and none is replaced.
-/

namespace CoinSpend

def Coin.sumOfValues (coins : List Coin) : Int :=
  totalOf (fun coin => coin.value.toInt) coins

def Output.sumOfValues (outputs : List Output) : Int :=
  totalOf (fun output => output.value.toInt) outputs

@[simp] theorem Coin.sumOfValues_nil : Coin.sumOfValues [] = 0 :=
  rfl

@[simp] theorem Coin.sumOfValues_cons (coin : Coin) (coins : List Coin) :
    Coin.sumOfValues (coin :: coins) = coin.value.toInt + Coin.sumOfValues coins :=
  rfl

@[simp] theorem Output.sumOfValues_nil : Output.sumOfValues [] = 0 :=
  rfl

@[simp] theorem Output.sumOfValues_cons (output : Output) (outputs : List Output) :
    Output.sumOfValues (output :: outputs) =
      output.value.toInt + Output.sumOfValues outputs :=
  rfl

theorem Coin.sumOfValues_perm {coins others : List Coin} (reordered : coins.Perm others) :
    Coin.sumOfValues coins = Coin.sumOfValues others :=
  totalOf_perm _ reordered

namespace CoinView

/-- The exact sum of the values of all coins in a view. -/
def total (view : CoinView) : Int :=
  totalOf (fun entry => entry.2.value.toInt) view.coins.toList

/-! ## One coin -/

/-- The money depends only on which coins are found. -/
theorem total_eq_of_get?_eq {view other : CoinView}
    (same : ∀ outPoint, view.get? outPoint = other.get? outPoint) :
    view.total = other.total := by
  have equivalent := Std.HashMap.Equiv.of_forall_getElem?_eq same
  exact totalOf_perm _ equivalent.toList_perm

theorem total_insert {view : CoinView} {coin : Coin}
    (free : view.get? coin.outPoint = none) :
    (view.insert coin).total = coin.value.toInt + view.total := by
  have others : ∀ entry ∈ view.coins.toList,
      (decide ¬ (coin.outPoint == entry.1) = true) = true := by
    rintro ⟨outPoint, found⟩ member
    have isFound := Std.HashMap.mem_toList_iff_getElem?_eq_some.mp member
    rw [decide_eq_true_iff, beq_iff_eq]
    rintro rfl
    rw [get?, isFound] at free
    cases free
  have entries := Std.HashMap.toList_insert_perm (m := view.coins) (k := coin.outPoint)
    (v := coin)
  rw [List.filter_eq_self.mpr others] at entries
  exact totalOf_perm _ entries

/-- Without a coin its value is missing: put back, it makes a view that finds the same coins. -/
theorem total_eq_add_erase {view : CoinView} {outPoint : OutPoint} {coin : Coin}
    (found : view.get? outPoint = some coin) :
    view.total = coin.value.toInt + (view.erase outPoint).total := by
  have named := outPoint_of_get? found
  have free : (view.erase outPoint).get? coin.outPoint = none := by
    rw [named, get?_erase_self]
  have putBack : ∀ other,
      view.get? other = ((view.erase outPoint).insert coin).get? other := by
    intro other
    by_cases here : other = outPoint
    · rw [here, found, ← named, get?_insert_self]
    · have elsewhere : other ≠ coin.outPoint := named.symm ▸ here
      rw [get?_insert_of_ne elsewhere, get?_erase_of_ne here]
  rw [total_eq_of_get?_eq putBack, total_insert free]

/-! ## The coins of a transaction -/

def spendAll (view : CoinView) : List Input → List (Option Coin) × CoinView
  | [] => ([], view)
  | input :: rest =>
      let (coin, next) := view.spend input.previous
      let (coins, last) := next.spendAll rest
      (coin :: coins, last)

/-- The view holds these coins for these inputs. -/
def Finds (view : CoinView) (inputs : List Input) (coins : List Coin) : Prop :=
  inputs.map (fun input => view.get? input.previous) = coins.map some

namespace Finds

variable {view : CoinView} {input : Input} {inputs : List Input}

theorem nil : view.Finds [] [] :=
  rfl

theorem eq_nil {coins : List Coin} (found : view.Finds [] coins) : coins = [] :=
  List.map_eq_nil_iff.mp found.symm

theorem cons {coin : Coin} {coins : List Coin} (first : view.get? input.previous = some coin)
    (later : view.Finds inputs coins) : view.Finds (input :: inputs) (coin :: coins) :=
  congrArg₂ List.cons first later

theorem exists_of_cons {coins : List Coin} (found : view.Finds (input :: inputs) coins) :
    ∃ coin rest, coins = coin :: rest ∧ view.get? input.previous = some coin ∧
      view.Finds inputs rest := by
  cases coins with
  | nil => cases found
  | cons coin rest =>
      rw [Finds, List.map_cons, List.map_cons, List.cons.injEq] at found
      exact ⟨coin, rest, rfl, found.1, found.2⟩

theorem unique {coins others : List Coin} (found : view.Finds inputs coins)
    (again : view.Finds inputs others) : coins = others :=
  (List.map_inj_right fun _ _ => Option.some.inj).mp (found.symm.trans again)

theorem map_outPoint {coins : List Coin} (found : view.Finds inputs coins) :
    coins.map Coin.outPoint = inputs.map Input.previous := by
  induction inputs generalizing coins with
  | nil => rw [found.eq_nil]; rfl
  | cons input inputs ih =>
      obtain ⟨coin, rest, rfl, first, later⟩ := found.exists_of_cons
      rw [List.map_cons, List.map_cons, outPoint_of_get? first, ih later]

theorem nodup {coins : List Coin} (found : view.Finds inputs coins)
    (distinct : (inputs.map Input.previous).Nodup) : coins.Nodup := by
  rw [← found.map_outPoint] at distinct
  exact List.Nodup.of_map _ distinct

/-- In another order the inputs find the same coins in another order. -/
theorem perm {order : List Input} {coins : List Coin} (found : view.Finds inputs coins)
    (reordered : order.Perm inputs) :
    ∃ others, view.Finds order others ∧ others.Perm coins := by
  induction reordered generalizing coins with
  | nil => exact ⟨coins, found, .refl _⟩
  | cons input reordered ih =>
      obtain ⟨coin, rest, rfl, first, later⟩ := found.exists_of_cons
      obtain ⟨others, foundOthers, permOthers⟩ := ih later
      exact ⟨coin :: others, cons first foundOthers, permOthers.cons coin⟩
  | swap first second rest =>
      obtain ⟨left, leftRest, rfl, foundLeft, later⟩ := found.exists_of_cons
      obtain ⟨right, others, rfl, foundRight, foundOthers⟩ := later.exists_of_cons
      exact ⟨right :: left :: others, cons foundRight (cons foundLeft foundOthers),
        .swap left right others⟩
  | trans before after ihBefore ihAfter =>
      obtain ⟨middle, foundMiddle, permMiddle⟩ := ihAfter found
      obtain ⟨others, foundOthers, permOthers⟩ := ihBefore foundMiddle
      exact ⟨others, foundOthers, permOthers.trans permMiddle⟩

end Finds

theorem get?_spendAll_of_not_mem {view : CoinView} {inputs : List Input}
    {outPoint : OutPoint} (kept : outPoint ∉ inputs.map Input.previous) :
    (view.spendAll inputs).2.get? outPoint = view.get? outPoint := by
  induction inputs generalizing view with
  | nil => rfl
  | cons input rest ih =>
      rw [List.map_cons, List.mem_cons, not_or] at kept
      exact (ih kept.2).trans (get?_erase_of_ne kept.1)

theorem get?_spendAll_of_mem {view : CoinView} {inputs : List Input} {outPoint : OutPoint}
    (spent : outPoint ∈ inputs.map Input.previous) :
    (view.spendAll inputs).2.get? outPoint = none := by
  induction inputs generalizing view with
  | nil => cases spent
  | cons input rest ih =>
      by_cases again : outPoint ∈ rest.map Input.previous
      · exact ih again
      · rcases List.mem_cons.mp spent with rfl | later
        · exact (get?_spendAll_of_not_mem again).trans (get?_erase_self _ _)
        · exact absurd later again

/-- Inputs that name other coins find the same without one. -/
theorem map_get?_erase (view : CoinView) {outPoint : OutPoint} {inputs : List Input}
    (elsewhere : outPoint ∉ inputs.map Input.previous) :
    inputs.map (fun input => (view.erase outPoint).get? input.previous) =
      inputs.map fun input => view.get? input.previous := by
  refine List.map_congr_left fun input member => get?_erase_of_ne fun same => elsewhere ?_
  rw [← same]
  exact List.mem_map_of_mem member

/-- Inputs that name different coins find what was there before any of them. -/
theorem spendAll_fst {view : CoinView} {inputs : List Input}
    (distinct : (inputs.map Input.previous).Nodup) :
    (view.spendAll inputs).1 = inputs.map fun input => view.get? input.previous := by
  induction inputs generalizing view with
  | nil => rfl
  | cons input rest ih =>
      rw [List.map_cons, List.nodup_cons] at distinct
      rw [List.map_cons, ← map_get?_erase view distinct.1, ← ih distinct.2]
      rfl

/-- Spending takes the values of the coins out. -/
theorem total_eq_add_spendAll {view : CoinView} {inputs : List Input} {coins : List Coin}
    (distinct : (inputs.map Input.previous).Nodup) (found : view.Finds inputs coins) :
    view.total = Coin.sumOfValues coins + (view.spendAll inputs).2.total := by
  induction inputs generalizing view coins with
  | nil =>
      rw [found.eq_nil]
      exact (Int.zero_add _).symm
  | cons input inputs ih =>
      rw [List.map_cons, List.nodup_cons] at distinct
      obtain ⟨coin, rest, rfl, first, later⟩ := found.exists_of_cons
      rw [Finds, ← map_get?_erase view distinct.1] at later
      have spent := ih distinct.2 later
      rw [total_eq_add_erase first, spent, Coin.sumOfValues_cons, Int.add_assoc]
      rfl

/-! ## The outputs of a transaction -/

theorem outPoint_ofNat_inj {hash : Hash256} {left right : Nat} (leftFits : left < UInt32.size)
    (rightFits : right < UInt32.size)
    (same : (⟨hash, UInt32.ofNat left⟩ : OutPoint) = ⟨hash, UInt32.ofNat right⟩) :
    left = right := by
  have indexes := congrArg (fun outPoint : OutPoint => outPoint.index.toNat) same
  dsimp only at indexes
  rwa [UInt32.toNat_ofNat_of_lt' leftFits, UInt32.toNat_ofNat_of_lt' rightFits] at indexes

section Outputs

variable {hash : Hash256} {transaction : Transaction} {height : Int}

theorem get?_insertOutputs_of_ne {view : CoinView} {index : Nat} {outputs : List Output}
    {outPoint : OutPoint}
    (other : ∀ offset < outputs.length, outPoint ≠ ⟨hash, UInt32.ofNat (index + offset)⟩) :
    (insertOutputs hash transaction height view index outputs).get? outPoint =
      view.get? outPoint := by
  induction outputs generalizing view index with
  | nil => rfl
  | cons output rest ih =>
      have first : outPoint ≠ ⟨hash, UInt32.ofNat index⟩ := other 0 (Nat.succ_pos _)
      rw [insertOutputs, ih, get?_insert_of_ne first]
      intro offset within
      rw [Nat.add_right_comm, Nat.add_assoc]
      exact other (offset + 1) (Nat.succ_lt_succ within)

/-- Outputs at free outpoints add their values. -/
theorem total_insertOutputs {view : CoinView} {index : Nat} {outputs : List Output}
    (fits : index + outputs.length ≤ UInt32.size)
    (free : ∀ offset < outputs.length,
      view.get? ⟨hash, UInt32.ofNat (index + offset)⟩ = none) :
    (insertOutputs hash transaction height view index outputs).total =
      view.total + Output.sumOfValues outputs := by
  induction outputs generalizing view index with
  | nil => exact (Int.add_zero _).symm
  | cons output rest ih =>
      rw [List.length_cons] at fits
      rw [insertOutputs, ih (by omega), total_insert, Output.sumOfValues_cons]
      · rw [Int.add_comm _ view.total, Int.add_assoc]
        rfl
      · exact free 0 (Nat.succ_pos _)
      · intro offset within
        have later := free (offset + 1) (Nat.succ_lt_succ within)
        rw [← Nat.add_assoc, Nat.add_right_comm] at later
        rw [get?_insert_of_ne, later]
        intro same
        have equal := outPoint_ofNat_inj (by omega) (by omega) same
        omega

theorem get?_insertTransaction_of_ne {view : CoinView} {outPoint : OutPoint}
    (other : ∀ index < transaction.outputs.length, outPoint ≠ ⟨hash, UInt32.ofNat index⟩) :
    (view.insertTransaction hash transaction height).get? outPoint = view.get? outPoint := by
  refine get?_insertOutputs_of_ne fun index within => ?_
  rw [Nat.zero_add]
  exact other index within

theorem total_insertTransaction {view : CoinView}
    (fits : transaction.outputs.length ≤ UInt32.size)
    (free : ∀ index < transaction.outputs.length,
      view.get? ⟨hash, UInt32.ofNat index⟩ = none) :
    (view.insertTransaction hash transaction height).total =
      view.total + Output.sumOfValues transaction.outputs := by
  refine total_insertOutputs (by rwa [Nat.zero_add]) fun index within => ?_
  rw [Nat.zero_add]
  exact free index within

end Outputs

end CoinView

end CoinSpend
