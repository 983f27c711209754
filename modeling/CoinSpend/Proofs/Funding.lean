import CoinSpend.Proofs.CoinTotal
import CoinSpend.Proofs.Outcome
import CoinSpend.Validation.Inputs

/-!
# Transactions that can pay

The rules about inputs are checked with running totals.  Since no value is negative, the
totals stay in range exactly if the last of them does, so the rules say the same about the
exact sums, and the fee is the exact difference.
-/

namespace CoinSpend

theorem isMoney_iff {value : Int} :
    isMoney value = true ↔ 0 ≤ value ∧ value ≤ Limits.maxMoney := by
  rw [isMoney, Bool.and_eq_true, decide_eq_true_iff, decide_eq_true_iff]

theorem nonneg_of_isMoney {α : Type} {measure : α → Int} {items : List α}
    (money : ∀ item ∈ items, isMoney (measure item) = true) :
    ∀ item ∈ items, 0 ≤ measure item :=
  fun item member => (isMoney_iff.mp (money item member)).1

theorem Coin.sumOfValues_nonneg {coins : List Coin}
    (money : ∀ coin ∈ coins, isMoney coin.value.toInt = true) :
    0 ≤ Coin.sumOfValues coins :=
  totalOf_nonneg (nonneg_of_isMoney money)

theorem Output.sumOfValues_nonneg {outputs : List Output}
    (money : ∀ output ∈ outputs, isMoney output.value.toInt = true) :
    0 ≤ Output.sumOfValues outputs :=
  totalOf_nonneg (nonneg_of_isMoney money)

/-- The coins are looked up one by one, and there are none if one is missing. -/
theorem CoinView.mapM_get?_eq_some_iff {view : CoinView} {inputs : List Input}
    {coins : List Coin} :
    inputs.mapM (fun input => view.get? input.previous) = some coins ↔
      view.Finds inputs coins := by
  induction inputs generalizing coins with
  | nil =>
      rw [List.mapM_nil, Option.pure_def, Option.some.injEq]
      exact ⟨fun same => same ▸ .nil, fun found => found.eq_nil.symm⟩
  | cons input rest ih =>
      rw [List.mapM_cons]
      constructor
      · intro found
        obtain ⟨coin, first, found⟩ := Option.bind_eq_some_iff.mp found
        obtain ⟨others, later, same⟩ := Option.bind_eq_some_iff.mp found
        cases same
        exact .cons first (ih.mp later)
      · intro found
        obtain ⟨coin, others, rfl, first, later⟩ := found.exists_of_cons
        rw [first, ih.mpr later]
        rfl

/-! ## Running totals -/

namespace InputCheck

/-- The running total of outputs stays in range if the last one does. -/
theorem outputTotal_eq_ok_iff {total result : Int} {outputs : List Output}
    (within : total ≤ Limits.maxMoney) :
    outputTotal total outputs = .ok result ↔
      (∀ output ∈ outputs, isMoney output.value.toInt = true) ∧
        total + Output.sumOfValues outputs ≤ Limits.maxMoney ∧
        result = total + Output.sumOfValues outputs := by
  induction outputs generalizing total with
  | nil =>
      rw [outputTotal, Output.sumOfValues_nil, Int.add_zero, Except.ok.injEq]
      exact ⟨fun same => ⟨nofun, within, same.symm⟩, fun valid => valid.2.2.symm⟩
  | cons output rest ih =>
      rw [outputTotal, List.forall_mem_cons, Output.sumOfValues_cons, ← Int.add_assoc]
      by_cases money : isMoney output.value.toInt = true
      · rw [money, Bool.not_true, if_neg Bool.false_ne_true]
        by_cases fits : total + output.value.toInt ≤ Limits.maxMoney
        · rw [if_neg (Int.not_lt.mpr fits), ih fits]
          simp only [true_and]
        · rw [if_pos (Int.not_le.mp fits)]
          constructor
          · exact nofun
          · rintro ⟨⟨-, restMoney⟩, lastFits, -⟩
            have grows := Output.sumOfValues_nonneg restMoney
            omega
      · rw [Bool.not_eq_true] at money
        rw [money, Bool.not_false, if_pos rfl]
        exact ⟨nofun, fun valid => nomatch valid.1.1⟩

theorem inputTotal_eq_ok_iff {view : CoinView} {height total result : Int}
    {inputs : List Input} (within : total ≤ Limits.maxMoney) :
    inputTotal view height total inputs = .ok result ↔
      ∃ coins, view.Finds inputs coins ∧
        (∀ coin ∈ coins, coin.isImmature height = false) ∧
        (∀ coin ∈ coins, isMoney coin.value.toInt = true) ∧
        total + Coin.sumOfValues coins ≤ Limits.maxMoney ∧
        result = total + Coin.sumOfValues coins := by
  induction inputs generalizing total with
  | nil =>
      rw [inputTotal, Except.ok.injEq]
      constructor
      · intro same
        refine ⟨[], .nil, nofun, nofun, ?_, ?_⟩
        · rwa [Coin.sumOfValues_nil, Int.add_zero]
        · rw [Coin.sumOfValues_nil, Int.add_zero, same]
      · rintro ⟨coins, found, -, -, -, same⟩
        rw [same, found.eq_nil, Coin.sumOfValues_nil, Int.add_zero]
  | cons input rest ih =>
      rw [inputTotal]
      constructor
      · intro checked
        split at checked
        · cases checked
        · rename_i coin first
          dsimp only at checked
          split_ifs at checked with young outside large
          rw [Bool.not_eq_true', Bool.not_eq_false] at outside
          rw [Bool.not_eq_true] at young
          obtain ⟨coins, found, mature, money, fits, same⟩ := (ih (by omega)).mp checked
          refine ⟨coin :: coins, .cons first found,
            List.forall_mem_cons.mpr ⟨young, mature⟩,
            List.forall_mem_cons.mpr ⟨outside, money⟩, ?_, ?_⟩
          · rwa [Coin.sumOfValues_cons, ← Int.add_assoc]
          · rwa [Coin.sumOfValues_cons, ← Int.add_assoc]
      · rintro ⟨coins, found, mature, money, fits, same⟩
        obtain ⟨coin, coins, rfl, first, found⟩ := found.exists_of_cons
        obtain ⟨old, mature⟩ := List.forall_mem_cons.mp mature
        obtain ⟨isMoney, money⟩ := List.forall_mem_cons.mp money
        rw [Coin.sumOfValues_cons, ← Int.add_assoc] at fits same
        have grows := Coin.sumOfValues_nonneg money
        have small : total + coin.value.toInt ≤ Limits.maxMoney := by omega
        rw [first]
        dsimp only
        rw [old, isMoney, if_neg Bool.false_ne_true, Bool.not_true,
          if_neg Bool.false_ne_true, if_neg (Int.not_lt.mpr small)]
        exact (ih small).mpr ⟨coins, found, mature, money, fits, same⟩

end InputCheck

namespace Transaction

/-! ## The rules about inputs -/

/-- A transaction spends these coins of a view, all of them old enough, and its outputs
cost no more than they bring. -/
structure FundedBy (transaction : Transaction) (view : CoinView) (height : Int)
    (coins : List Coin) : Prop where
  found : view.Finds transaction.inputs coins
  mature : ∀ coin ∈ coins, coin.isImmature height = false
  inputMoney : ∀ coin ∈ coins, isMoney coin.value.toInt = true
  outputMoney : ∀ output ∈ transaction.outputs, isMoney output.value.toInt = true
  inRange : Coin.sumOfValues coins ≤ Limits.maxMoney
  covered : Output.sumOfValues transaction.outputs ≤ Coin.sumOfValues coins

variable {transaction : Transaction} {view : CoinView} {height : Int}

theorem FundedBy.fee_bounds {coins : List Coin}
    (funded : transaction.FundedBy view height coins) :
    0 ≤ Coin.sumOfValues coins - Output.sumOfValues transaction.outputs ∧
      Coin.sumOfValues coins - Output.sumOfValues transaction.outputs ≤ Limits.maxMoney := by
  have paid := Output.sumOfValues_nonneg funded.outputMoney
  have inRange := funded.inRange
  have covered := funded.covered
  omega

/-- Totals that are found are the exact sums. -/
theorem exists_fundedBy_of_totals {taken paid : Int}
    (takes : InputCheck.inputTotal view height 0 transaction.inputs = .ok taken)
    (pays : InputCheck.outputTotal 0 transaction.outputs = .ok paid) (covers : paid ≤ taken) :
    ∃ coins, transaction.FundedBy view height coins ∧ taken = Coin.sumOfValues coins ∧
      paid = Output.sumOfValues transaction.outputs := by
  have start : (0 : Int) ≤ Limits.maxMoney := by decide
  obtain ⟨coins, found, mature, inputMoney, inRange, isTaken⟩ :=
    (InputCheck.inputTotal_eq_ok_iff start).mp takes
  obtain ⟨outputMoney, -, isPaid⟩ := (InputCheck.outputTotal_eq_ok_iff start).mp pays
  rw [Int.zero_add] at inRange isTaken isPaid
  rw [isTaken, isPaid] at covers
  exact ⟨coins, ⟨found, mature, inputMoney, outputMoney, inRange, covers⟩, isTaken, isPaid⟩

/-- The checked fee is the exact difference, and the bound on it is never the fault. -/
theorem checkedFee_eq_ok_iff {fee : Int} :
    transaction.checkedFee view height = .ok fee ↔
      ∃ coins, transaction.FundedBy view height coins ∧
        fee = Coin.sumOfValues coins - Output.sumOfValues transaction.outputs := by
  have start : (0 : Int) ≤ Limits.maxMoney := by decide
  rw [checkedFee]
  constructor
  · intro checked
    obtain ⟨taken, takes, checked⟩ := Except.bind_eq_ok_iff.mp checked
    obtain ⟨paid, pays, checked⟩ := Except.bind_eq_ok_iff.mp checked
    split_ifs at checked with below
    cases checked
    obtain ⟨coins, funded, rfl, rfl⟩ :=
      exists_fundedBy_of_totals takes pays (Int.not_lt.mp below)
    exact ⟨coins, funded, rfl⟩
  · rintro ⟨coins, funded, rfl⟩
    have bounds := funded.fee_bounds
    have covered := funded.covered
    have inRange := funded.inRange
    have takes : InputCheck.inputTotal view height 0 transaction.inputs =
        .ok (Coin.sumOfValues coins) := by
      refine (InputCheck.inputTotal_eq_ok_iff start).mpr
        ⟨coins, funded.found, funded.mature, funded.inputMoney, ?_, ?_⟩ <;> omega
    have pays : InputCheck.outputTotal 0 transaction.outputs =
        .ok (Output.sumOfValues transaction.outputs) := by
      refine (InputCheck.outputTotal_eq_ok_iff start).mpr ⟨funded.outputMoney, ?_, ?_⟩ <;> omega
    refine Except.bind_eq_ok_iff.mpr ⟨_, takes, Except.bind_eq_ok_iff.mpr ⟨_, pays, ?_⟩⟩
    rw [if_neg (Int.not_lt.mpr covered), if_neg (Int.not_lt.mpr bounds.2)]

theorem inputFault?_eq_none_iff :
    transaction.inputFault? view height = none ↔
      ∃ coins, transaction.FundedBy view height coins := by
  rw [inputFault?]
  constructor
  · intro faultless
    split at faultless
    · rename_i fee checked
      obtain ⟨coins, funded, -⟩ := checkedFee_eq_ok_iff.mp checked
      exact ⟨coins, funded⟩
    · cases faultless
  · rintro ⟨coins, funded⟩
    rw [checkedFee_eq_ok_iff.mpr ⟨coins, funded, rfl⟩]

end Transaction

/-! ## The fee -/

theorem sumFrom?_of_nonneg {α : Type} {measure : α → Int} {total : Int} {items : List α}
    (start : 0 ≤ total) (nonneg : ∀ item ∈ items, 0 ≤ measure item)
    (fits : total + totalOf measure items ≤ 0x7fffffffffffffff) :
    sumFrom? total (items.map measure) = some (total + totalOf measure items) := by
  induction items generalizing total with
  | nil => rw [List.map_nil, sumFrom?, totalOf_nil, Int.add_zero]
  | cons item rest ih =>
      obtain ⟨first, nonneg⟩ := List.forall_mem_cons.mp nonneg
      rw [totalOf_cons, ← Int.add_assoc] at fits
      have grows := totalOf_nonneg nonneg
      have fitting : fitted? (total + measure item) = some (total + measure item) := by
        rw [fitted?, if_pos ⟨by omega, by omega⟩]
      rw [List.map_cons, sumFrom?, fitting, totalOf_cons, ← Int.add_assoc]
      exact ih (by omega) nonneg fits

theorem sumFrom?_zero_of_nonneg {α : Type} {measure : α → Int} {items : List α}
    (nonneg : ∀ item ∈ items, 0 ≤ measure item)
    (fits : totalOf measure items ≤ 0x7fffffffffffffff) :
    sumFrom? 0 (items.map measure) = some (totalOf measure items) := by
  rw [sumFrom?_of_nonneg (Int.le_refl 0) nonneg (by rwa [Int.zero_add]), Int.zero_add]

namespace Transaction.FundedBy

variable {transaction : Transaction} {view : CoinView} {height : Int} {coins : List Coin}

theorem inputValue?_eq (funded : transaction.FundedBy view height coins) :
    transaction.inputValue? view = some (Coin.sumOfValues coins) := by
  have fits : Coin.sumOfValues coins ≤ 0x7fffffffffffffff :=
    Int.le_trans funded.inRange (by decide)
  rw [inputValue?, CoinView.mapM_get?_eq_some_iff.mpr funded.found, Option.bind_eq_bind, Option.bind_some]
  exact sumFrom?_zero_of_nonneg (nonneg_of_isMoney funded.inputMoney) fits

theorem outputValue?_eq (funded : transaction.FundedBy view height coins) :
    transaction.outputValue? = some (Output.sumOfValues transaction.outputs) := by
  have fits : Output.sumOfValues transaction.outputs ≤ 0x7fffffffffffffff :=
    Int.le_trans (Int.le_trans funded.covered funded.inRange) (by decide)
  exact sumFrom?_zero_of_nonneg (nonneg_of_isMoney funded.outputMoney) fits

theorem fee?_eq (funded : transaction.FundedBy view height coins) :
    transaction.fee? view =
      some (Coin.sumOfValues coins - Output.sumOfValues transaction.outputs) := by
  obtain ⟨least, most⟩ := funded.fee_bounds
  have fits : Coin.sumOfValues coins - Output.sumOfValues transaction.outputs ≤
      0x7fffffffffffffff :=
    Int.le_trans most (by decide)
  rw [fee?, funded.inputValue?_eq, funded.outputValue?_eq, Option.bind_eq_bind,
    Option.bind_some, Option.bind_some, fitted?,
    if_pos ⟨Int.le_trans (by decide) least, fits⟩]

end Transaction.FundedBy

end CoinSpend
