import CoinSpend.Proofs.CheckedTotals

/-!
# What inputs bring

A transaction is checked by a scan that stops at the first fault, and its values are told by a
scan that only asks whether the sums fit 64 bits.  Both are about the exact sums.
-/

namespace CoinSpend

/-! ## Maturity -/

namespace Coin

variable {coin : Coin} {height : Int}

theorem isImmature_iff :
    coin.isImmature height = true ↔
      coin.coinbase = true ∧ height ≠ -1 ∧ coin.height ≠ -1 ∧ height - coin.height < 100 := by
  have maturity : Limits.coinbaseMaturity = 100 := rfl
  rw [isImmature, maturity, Bool.and_eq_true, Bool.and_eq_true, Bool.and_eq_true, bne_iff_ne,
    bne_iff_ne, decide_eq_true_iff, and_assoc, and_assoc]

theorem isImmature_eq_false_iff :
    coin.isImmature height = false ↔
      ¬ (coin.coinbase = true ∧ height ≠ -1 ∧ coin.height ≠ -1 ∧ height - coin.height < 100) := by
  rw [← isImmature_iff, Bool.not_eq_true]

theorem isImmature_unknown (coin : Coin) : coin.isImmature (-1) = false :=
  isImmature_eq_false_iff.mpr fun young => young.2.1 rfl

theorem isImmature_later {later : Int} (known : height ≠ -1) (after : height < later)
    (mature : coin.isImmature height = false) : coin.isImmature later = false := by
  rw [isImmature_eq_false_iff] at mature ⊢
  rintro ⟨coinbase, -, coinKnown, young⟩
  exact mature ⟨coinbase, known, coinKnown, by omega⟩

end Coin

/-! ## Sums that fit -/

theorem eq_of_fitted?_eq_some {number fitting : Int} (fits : fitted? number = some fitting) :
    fitting = number := by
  rw [fitted?] at fits
  split_ifs at fits
  exact (Option.some.inj fits).symm

theorem eq_of_sumFrom?_eq_some {α : Type} {measure : α → Int} {total sum : Int} {items : List α}
    (fits : sumFrom? total (items.map measure) = some sum) :
    sum = total + totalOf measure items := by
  induction items generalizing total with
  | nil =>
      rw [List.map_nil, sumFrom?] at fits
      rw [totalOf_nil, Int.add_zero]
      exact (Option.some.inj fits).symm
  | cons item rest ih =>
      rw [List.map_cons, sumFrom?] at fits
      split at fits
      · rename_i next isNext
        rw [ih fits, eq_of_fitted?_eq_some isNext, totalOf_cons, Int.add_assoc]
      · cases fits

namespace Transaction

variable {transaction : Transaction} {view : CoinView} {height value : Int}

theorem eq_of_outputValue?_eq_some (isValue : transaction.outputValue? = some value) :
    value = Output.sumOfValues transaction.outputs := by
  rw [eq_of_sumFrom?_eq_some isValue, Int.zero_add]
  rfl

theorem exists_finds_of_inputValue?_eq_some (isValue : transaction.inputValue? view = some value) :
    ∃ coins, view.Finds transaction.inputs coins ∧ value = Coin.sumOfValues coins := by
  obtain ⟨coins, found, isSum⟩ := Option.bind_eq_some_iff.mp isValue
  refine ⟨coins, CoinView.mapM_get?_eq_some_iff.mp found, ?_⟩
  rw [eq_of_sumFrom?_eq_some isSum, Int.zero_add]
  rfl

theorem exists_finds_of_fee?_eq_some {fee : Int} (isFee : transaction.fee? view = some fee) :
    ∃ coins, view.Finds transaction.inputs coins ∧
      fee = Coin.sumOfValues coins - Output.sumOfValues transaction.outputs := by
  obtain ⟨taken, takes, isFee⟩ := Option.bind_eq_some_iff.mp isFee
  obtain ⟨paid, pays, isFee⟩ := Option.bind_eq_some_iff.mp isFee
  obtain ⟨coins, found, isTaken⟩ := exists_finds_of_inputValue?_eq_some takes
  refine ⟨coins, found, ?_⟩
  rw [eq_of_fitted?_eq_some isFee, isTaken, eq_of_outputValue?_eq_some pays]

theorem foldlM_outputs_eq_outputValue? (transaction : Transaction) :
    transaction.outputs.foldlM (fun total output => fitted? (total + output.value.toInt)) 0 =
      transaction.outputValue? := by
  rw [outputValue?]
  generalize (0 : Int) = total
  induction transaction.outputs generalizing total with
  | nil => rfl
  | cons output rest ih =>
      rw [List.foldlM_cons, List.map_cons, sumFrom?]
      cases fitted? (total + output.value.toInt) with
      | none => rfl
      | some sum => exact ih sum

/-- Coins may be added up as they are looked up. -/
theorem foldlM_inputs_eq_inputValue? (transaction : Transaction) (view : CoinView) :
    transaction.inputs.foldlM (fun total input => do
      let coin ← view.get? input.previous
      fitted? (total + coin.value.toInt)) 0 = transaction.inputValue? view := by
  rw [inputValue?]
  generalize (0 : Int) = total
  induction transaction.inputs generalizing total with
  | nil => rfl
  | cons input rest ih =>
      rw [List.foldlM_cons, List.mapM_cons]
      cases view.get? input.previous with
      | none => rfl
      | some coin =>
          simp only [Option.bind_eq_bind, Option.bind_some, Option.bind_assoc, Option.pure_def,
            List.map_cons, sumFrom?]
          cases fitted? (total + coin.value.toInt) with
          | none => exact (Option.bind_fun_none _).symm
          | some sum => exact ih sum

/-! ## The rules about inputs -/

theorem fundedBy_iff {coins : List Coin} :
    transaction.FundedBy view height coins ↔
      view.Finds transaction.inputs coins ∧
      (∀ coin ∈ coins, ¬ (coin.coinbase = true ∧ height ≠ -1 ∧ coin.height ≠ -1 ∧
        height - coin.height < 100)) ∧
      (∀ coin ∈ coins, 0 ≤ coin.value.toInt ∧ coin.value.toInt ≤ 2100000000000000) ∧
      (∀ output ∈ transaction.outputs,
        0 ≤ output.value.toInt ∧ output.value.toInt ≤ 2100000000000000) ∧
      Output.sumOfValues transaction.outputs ≤ Coin.sumOfValues coins ∧
      Coin.sumOfValues coins ≤ 2100000000000000 := by
  have money : Limits.maxMoney = 2100000000000000 := rfl
  simp only [← Coin.isImmature_eq_false_iff, ← money, ← isMoney_iff]
  constructor
  · intro funded
    exact ⟨funded.found, funded.mature, funded.inputMoney, funded.outputMoney, funded.covered,
      funded.inRange⟩
  · rintro ⟨found, mature, inputMoney, outputMoney, covered, inRange⟩
    exact ⟨found, mature, inputMoney, outputMoney, inRange, covered⟩

theorem FundedBy.of_mature {other : Int} {coins : List Coin}
    (funded : transaction.FundedBy view height coins)
    (mature : ∀ coin ∈ coins, coin.isImmature height = false →
      coin.isImmature other = false) : transaction.FundedBy view other coins :=
  { funded with mature := fun coin member => mature coin member (funded.mature coin member) }

/-- What is allowed at a known height is allowed from then on, and where no height is known. -/
theorem inputFault?_later (known : height ≠ -1)
    (faultless : transaction.inputFault? view height = none) :
    (∀ later, height < later → transaction.inputFault? view later = none) ∧
      transaction.inputFault? view (-1) = none := by
  obtain ⟨coins, funded⟩ := inputFault?_eq_none_iff.mp faultless
  refine ⟨fun later after => ?_, ?_⟩
  · have mature := funded.of_mature fun coin _ => Coin.isImmature_later known after
    exact inputFault?_eq_none_iff.mpr ⟨coins, mature⟩
  · have mature := funded.of_mature fun coin _ _ => Coin.isImmature_unknown coin
    exact inputFault?_eq_none_iff.mpr ⟨coins, mature⟩

end Transaction

namespace InputCheck

theorem inputTotal_ne_feeRange {view : CoinView} {height total : Int} {inputs : List Input} :
    inputTotal view height total inputs ≠ .error .feeRange := by
  induction inputs generalizing total with
  | nil => rintro ⟨⟩
  | cons input rest ih =>
      rw [inputTotal]
      cases view.get? input.previous with
      | none => rintro ⟨⟩
      | some coin =>
          dsimp only
          split_ifs
          · rintro ⟨⟩
          · rintro ⟨⟩
          · rintro ⟨⟩
          · exact ih

theorem outputTotal_ne_feeRange {total : Int} {outputs : List Output} :
    outputTotal total outputs ≠ .error .feeRange := by
  induction outputs generalizing total with
  | nil => rintro ⟨⟩
  | cons output rest ih =>
      rw [outputTotal]
      split_ifs
      · rintro ⟨⟩
      · rintro ⟨⟩
      · exact ih

end InputCheck

namespace Transaction

variable {transaction : Transaction} {view : CoinView} {height : Int}

/-- What is left over is never more than all the money, so no fee is refused for its size. -/
theorem inputFault?_ne_feeRange : transaction.inputFault? view height ≠ some .feeRange := by
  rw [inputFault?, checkedFee]
  cases takes : InputCheck.inputTotal view height 0 transaction.inputs with
  | error fault =>
      intro same
      cases same
      exact InputCheck.inputTotal_ne_feeRange takes
  | ok taken =>
      cases pays : InputCheck.outputTotal 0 transaction.outputs with
      | error fault =>
          intro same
          cases same
          exact InputCheck.outputTotal_ne_feeRange pays
      | ok paid =>
          dsimp only [bind, Except.bind]
          split_ifs with below tooLarge
          · rintro ⟨⟩
          · obtain ⟨coins, funded, rfl, rfl⟩ :=
              exists_fundedBy_of_totals takes pays (Int.not_lt.mp below)
            exact absurd tooLarge (Int.not_lt.mpr funded.fee_bounds.2)
          · rintro ⟨⟩

/-- The checks of a transaction at every height, and the values that it tells, speak about exact
sums.  The totals may be kept in words, and added up as the coins are looked up. -/
theorem input_checks_are_about_exact_sums (transaction : Transaction) (view : CoinView) :
    (∀ height : Int,
      (transaction.inputFault? view height = none ↔
        ∃ coins, view.Finds transaction.inputs coins ∧
          (∀ coin ∈ coins, ¬ (coin.coinbase = true ∧ height ≠ -1 ∧ coin.height ≠ -1 ∧
            height - coin.height < 100)) ∧
          (∀ coin ∈ coins, 0 ≤ coin.value.toInt ∧ coin.value.toInt ≤ 2100000000000000) ∧
          (∀ output ∈ transaction.outputs,
            0 ≤ output.value.toInt ∧ output.value.toInt ≤ 2100000000000000) ∧
          Output.sumOfValues transaction.outputs ≤ Coin.sumOfValues coins ∧
          Coin.sumOfValues coins ≤ 2100000000000000) ∧
      (transaction.inputFault? view height = none →
        (∃ coins, view.Finds transaction.inputs coins ∧
          transaction.inputValue? view = some (Coin.sumOfValues coins) ∧
          transaction.outputValue? = some (Output.sumOfValues transaction.outputs) ∧
          transaction.fee? view =
            some (Coin.sumOfValues coins - Output.sumOfValues transaction.outputs)) ∧
        (height ≠ -1 →
          (∀ later, height < later → transaction.inputFault? view later = none) ∧
            transaction.inputFault? view (-1) = none)) ∧
      transaction.inputFault? view height ≠ some .feeRange ∧
      InputCheck.inputTotalByWord view height 0 transaction.inputs =
        InputCheck.inputTotal view height 0 transaction.inputs) ∧
    (∀ value, transaction.inputValue? view = some value →
      ∃ coins, view.Finds transaction.inputs coins ∧ value = Coin.sumOfValues coins) ∧
    (∀ value, transaction.outputValue? = some value →
      value = Output.sumOfValues transaction.outputs) ∧
    (∀ fee, transaction.fee? view = some fee →
      ∃ coins, view.Finds transaction.inputs coins ∧
        fee = Coin.sumOfValues coins - Output.sumOfValues transaction.outputs) ∧
    InputCheck.outputTotalByWord 0 transaction.outputs =
      InputCheck.outputTotal 0 transaction.outputs ∧
    transaction.inputs.foldlM (fun total input => do
      let coin ← view.get? input.previous
      fitted? (total + coin.value.toInt)) 0 = transaction.inputValue? view ∧
    transaction.outputs.foldlM (fun total output => fitted? (total + output.value.toInt)) 0 =
      transaction.outputValue? := by
  refine ⟨fun height => ⟨?_, fun faultless => ⟨?_, ?_⟩, inputFault?_ne_feeRange, ?_⟩,
    fun value => exists_finds_of_inputValue?_eq_some, fun value => eq_of_outputValue?_eq_some,
    fun fee => exists_finds_of_fee?_eq_some, ?_, foldlM_inputs_eq_inputValue? _ _,
    foldlM_outputs_eq_outputValue? _⟩
  · simp only [inputFault?_eq_none_iff, fundedBy_iff]
  · obtain ⟨coins, funded⟩ := inputFault?_eq_none_iff.mp faultless
    exact ⟨coins, funded.found, funded.inputValue?_eq, funded.outputValue?_eq, funded.fee?_eq⟩
  · exact fun known => inputFault?_later known faultless
  · exact InputCheck.inputTotalByWord_eq (Int.le_refl 0) _
  · exact InputCheck.outputTotalByWord_eq (Int.le_refl 0) _

def nearlyAllTheMoney : Transaction where
  version := 1
  inputs := [⟨⟨.zero 32, 0⟩, .empty, [], 0xffffffff⟩, ⟨⟨.zero 32, 1⟩, .empty, [], 0xffffffff⟩]
  outputs := [⟨2099999999990000, .empty⟩, ⟨8000, .empty⟩]
  lockTime := 0
  witnessFlag := false

/-- The coins that it spends, a coinbase coin among them. -/
def coinsOfAllTheMoney : List Coin :=
  [⟨⟨.zero 32, 0⟩, 1, 10, true, 2099999999999999, .empty⟩, ⟨⟨.zero 32, 1⟩, 1, 60, false, 1, .empty⟩]

def viewOfAllTheMoney : CoinView :=
  coinsOfAllTheMoney.foldl CoinView.insert .empty

theorem viewOfAllTheMoney_finds :
    viewOfAllTheMoney.Finds nearlyAllTheMoney.inputs coinsOfAllTheMoney := by
  refine .cons ?_ (.cons (CoinView.get?_insert_self _ _) .nil)
  exact (CoinView.get?_insert_of_ne (by decide)).trans (CoinView.get?_insert_self _ _)

/-- A hundred blocks after the coinbase coin all of it can be spent, also later. -/
theorem nearly_all_the_money_is_spent_from_height_110 :
    nearlyAllTheMoney.inputFault? viewOfAllTheMoney 110 = none ∧
      nearlyAllTheMoney.inputFault? viewOfAllTheMoney 2000000 = none ∧
      nearlyAllTheMoney.inputFault? viewOfAllTheMoney (-1) = none ∧
      nearlyAllTheMoney.fee? viewOfAllTheMoney = some 2000 := by
  obtain ⟨checks, -⟩ := input_checks_are_about_exact_sums nearlyAllTheMoney viewOfAllTheMoney
  obtain ⟨allowed, told, -, -⟩ := checks 110
  have faultless : nearlyAllTheMoney.inputFault? viewOfAllTheMoney 110 = none :=
    allowed.mpr ⟨coinsOfAllTheMoney, viewOfAllTheMoney_finds, by decide, by decide, by decide,
      by decide, by decide⟩
  obtain ⟨⟨coins, found, -, -, isFee⟩, heights⟩ := told faultless
  obtain ⟨later, unknown⟩ := heights (by decide)
  cases found.unique viewOfAllTheMoney_finds
  exact ⟨faultless, later _ (by decide), unknown, isFee⟩

end Transaction

end CoinSpend
