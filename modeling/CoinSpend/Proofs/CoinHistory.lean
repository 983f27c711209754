import Mathlib.Data.List.Induction
import CoinSpend.Proofs.CoinTotal
import CoinSpend.Transaction.Memo

/-!
# The history of a view

A view holds coins and not how they came there.  Whatever is done to it is a sequence of events,
each at one outpoint, and what is found at an outpoint is what the last event there put in.  So
every coin that is put in can be taken out once.
-/

namespace CoinSpend

/-- A coin is put in at its outpoint, or what lies at an outpoint is taken out. -/
inductive CoinEvent where
  | added (coin : Coin)
  | spent (outPoint : OutPoint)

@[simp] def CoinEvent.outPoint : CoinEvent → OutPoint
  | added coin => coin.outPoint
  | spent outPoint => outPoint

/-- The last event at an outpoint put this coin in. -/
def LastAdded (events : List CoinEvent) (outPoint : OutPoint) (coin : Coin) : Prop :=
  ∃ before after, events = before ++ .added coin :: after ∧ coin.outPoint = outPoint ∧
    ∀ event ∈ after, event.outPoint ≠ outPoint

namespace LastAdded

variable {events : List CoinEvent} {event : CoinEvent} {outPoint : OutPoint} {coin : Coin}

theorem not_nil : ¬ LastAdded [] outPoint coin := by
  rintro ⟨before, after, split, -⟩
  exact List.append_ne_nil_of_right_ne_nil before (List.cons_ne_nil _ _) split.symm

/-- One more event decides about its own outpoint and about no other. -/
theorem append_singleton_iff :
    LastAdded (events ++ [event]) outPoint coin ↔
      if event.outPoint = outPoint then event = .added coin
      else LastAdded events outPoint coin := by
  constructor
  · rintro ⟨before, after, split, atOutPoint, elsewhere⟩
    rcases List.eq_nil_or_concat after with rfl | ⟨between, last, rfl⟩
    · obtain ⟨-, same⟩ := List.append_inj' split rfl
      obtain rfl : event = .added coin := List.head_eq_of_cons_eq same
      exact (if_pos atOutPoint).mpr rfl
    · rw [List.concat_eq_append] at split elsewhere
      rw [← List.cons_append, ← List.append_assoc] at split
      obtain ⟨rfl, same⟩ := List.append_inj' split rfl
      obtain rfl : event = last := List.head_eq_of_cons_eq same
      rw [if_neg (elsewhere event (List.mem_append_right _ (List.mem_singleton_self _)))]
      exact ⟨before, between, rfl, atOutPoint,
        fun other member => elsewhere other (List.mem_append_left _ member)⟩
  · split_ifs with here
    · rintro rfl
      exact ⟨events, [], rfl, here, nofun⟩
    · rintro ⟨before, after, rfl, atOutPoint, elsewhere⟩
      refine ⟨before, after ++ [event], ?_, atOutPoint, ?_⟩
      · rw [List.append_assoc, List.cons_append]
      · intro other member
        rcases List.mem_append.mp member with earlier | last
        · exact elsewhere other earlier
        · rw [List.mem_singleton.mp last]
          exact here

theorem append_spent_iff {before after : List CoinEvent} :
    LastAdded (before ++ .spent outPoint :: after) outPoint coin ↔
      LastAdded after outPoint coin := by
  induction after using List.reverseRecOn with
  | nil =>
      rw [append_singleton_iff, CoinEvent.outPoint, if_pos rfl]
      exact iff_of_false nofun not_nil
  | append_singleton after event ih =>
      rw [← List.cons_append, ← List.append_assoc, append_singleton_iff, append_singleton_iff, ih]

theorem mem (lastAdded : LastAdded events outPoint coin) : .added coin ∈ events := by
  obtain ⟨before, after, rfl, -⟩ := lastAdded
  exact List.mem_append_right _ (List.mem_cons_self ..)

end LastAdded

theorem MemoTransaction.coin?_fst (memo : MemoTransaction) (index : UInt32) (height : Int) :
    (memo.coin? index height).1 =
      Coin.ofTransaction? memo.hash.1 memo.transaction index height := by
  rw [coin?, Coin.ofTransaction?]
  split_ifs with hasOutput
  · rfl
  · rw [List.getElem?_eq_none (Nat.not_lt.mp hasOutput)]
    rfl

namespace CoinView

variable {view : CoinView}

/-! ## Events -/

def undergo (view : CoinView) : CoinEvent → CoinView
  | .added coin => view.insert coin
  | .spent outPoint => view.erase outPoint

theorem get?_undergo_eq_some_iff {event : CoinEvent} {outPoint : OutPoint} {coin : Coin} :
    (view.undergo event).get? outPoint = some coin ↔
      if event.outPoint = outPoint then event = .added coin
      else view.get? outPoint = some coin := by
  split_ifs with here
  · subst here
    cases event with
    | added other =>
        rw [undergo, CoinEvent.outPoint, get?_insert_self, Option.some.injEq, CoinEvent.added.injEq]
    | spent outPoint =>
        rw [undergo, CoinEvent.outPoint, get?_erase_self]
        exact iff_of_false nofun nofun
  · cases event with
    | added other => rw [undergo, get?_insert_of_ne (Ne.symm here)]
    | spent other =>
        rw [CoinEvent.outPoint] at here
        rw [undergo, get?_erase_of_ne (Ne.symm here)]

/-- From nothing, a view comes to hold what the last event at each outpoint put in. -/
theorem get?_foldl_undergo_eq_some_iff {events : List CoinEvent} {outPoint : OutPoint}
    {coin : Coin} :
    (events.foldl undergo empty).get? outPoint = some coin ↔
      LastAdded events outPoint coin := by
  induction events using List.reverseRecOn with
  | nil =>
      rw [List.foldl_nil, get?_empty]
      exact iff_of_false nofun LastAdded.not_nil
  | append_singleton events event ih =>
      rw [List.foldl_append, List.foldl_cons, List.foldl_nil, get?_undergo_eq_some_iff, ih,
        LastAdded.append_singleton_iff]

end CoinView

/-! ## Changes -/

/-- What can be done to a view.  A transaction comes with what is remembered about it. -/
inductive CoinChange where
  | addCoin (coin : Coin)
  | addOutput (outPoint : OutPoint) (output : Output)
  | addTransaction (memo : MemoTransaction) (height : Int)
  | spend (input : Input)

def CoinChange.events : CoinChange → List CoinEvent
  | addCoin coin => [.added coin]
  | addOutput outPoint output => [.added (.ofOutput outPoint output)]
  | addTransaction memo height =>
      memo.transaction.outputs.mapIdx fun index output =>
        .added (.ofTransactionOutput memo.hash.1 memo.transaction height (UInt32.ofNat index)
          output)
  | spend input => [.spent input.previous]

namespace CoinView

variable {view : CoinView}

/-- Change a view.  Only a spend has an answer, which is the coin that was taken out. -/
def change (view : CoinView) : CoinChange → Option Coin × CoinView
  | .addCoin coin => (none, view.insert coin)
  | .addOutput outPoint output => (none, view.insertOutput outPoint output)
  | .addTransaction memo height => (none, (memo.addTo view height).1)
  | .spend input => view.spend input.previous

def after (changes : List CoinChange) : CoinView :=
  changes.foldl (fun view change => (view.change change).2) empty

theorem insertOutputs_eq_foldl {hash : Hash256} {transaction : Transaction} {height : Int}
    {index : Nat} {outputs : List Output} :
    insertOutputs hash transaction height view index outputs =
      (outputs.mapIdx fun offset output =>
        CoinEvent.added (.ofTransactionOutput hash transaction height
          (UInt32.ofNat (index + offset)) output)).foldl undergo view := by
  induction outputs generalizing view index with
  | nil => rfl
  | cons output rest ih =>
      simp only [insertOutputs, List.mapIdx_cons, List.foldl_cons, Nat.add_zero]
      rw [ih]
      simp only [Nat.add_right_comm, Nat.add_assoc]
      rfl

theorem change_snd (change : CoinChange) :
    (view.change change).2 = change.events.foldl undergo view := by
  cases change with
  | addCoin coin => rfl
  | addOutput outPoint output => rfl
  | addTransaction memo height =>
      refine insertOutputs_eq_foldl.trans ?_
      simp only [Nat.zero_add]
      rfl
  | spend input => rfl

theorem after_eq_foldl (changes : List CoinChange) :
    after changes = (changes.flatMap CoinChange.events).foldl undergo empty := by
  simp only [after, change_snd, List.foldl_flatMap]

theorem get?_after_eq_some_iff {changes : List CoinChange} {outPoint : OutPoint} {coin : Coin} :
    (after changes).get? outPoint = some coin ↔
      LastAdded (changes.flatMap CoinChange.events) outPoint coin := by
  rw [after_eq_foldl, get?_foldl_undergo_eq_some_iff]

theorem mem_of_get?_after_spend {before later : List CoinChange} {input : Input} {coin : Coin}
    (found : (after (before ++ .spend input :: later)).get? input.previous = some coin) :
    .added coin ∈ later.flatMap CoinChange.events := by
  rw [get?_after_eq_some_iff, List.flatMap_append, List.flatMap_cons] at found
  exact (LastAdded.append_spent_iff.mp found).mem

theorem exists_outPoints (view : CoinView) :
    ∃ outPoints : List OutPoint, outPoints.Nodup ∧ view.size = outPoints.length ∧
      ∀ outPoint, outPoint ∈ outPoints ↔ ∃ coin, view.get? outPoint = some coin := by
  refine ⟨view.coins.keys, Std.HashMap.nodup_keys, Std.HashMap.length_keys.symm, ?_⟩
  intro outPoint
  rw [Std.HashMap.mem_keys, Std.HashMap.mem_iff_isSome_getElem?, Option.isSome_iff_exists]
  rfl

theorem size_erase_of_not_found {outPoint : OutPoint} (missing : view.get? outPoint = none) :
    (view.erase outPoint).size = view.size := by
  have absent : outPoint ∉ view.coins := by
    rw [Std.HashMap.mem_iff_isSome_getElem?]
    exact Option.not_isSome_iff_eq_none.mpr missing
  exact Std.HashMap.size_erase.trans (if_neg absent)

/-! ## The outputs of a transaction -/

theorem get?_insertOutputs {hash : Hash256} {transaction : Transaction} {height : Int}
    {start : Nat} {outputs : List Output} (fits : start + outputs.length ≤ UInt32.size)
    {offset : Nat} {output : Output} (isOutput : outputs[offset]? = some output) :
    (insertOutputs hash transaction height view start outputs).get?
        ⟨hash, UInt32.ofNat (start + offset)⟩ =
      some (.ofTransactionOutput hash transaction height (UInt32.ofNat (start + offset))
        output) := by
  induction outputs generalizing view start offset with
  | nil => cases isOutput
  | cons first rest ih =>
      rw [List.length_cons] at fits
      rw [insertOutputs]
      cases offset with
      | zero =>
          cases isOutput
          rw [get?_insertOutputs_of_ne, Nat.add_zero]
          · exact get?_insert_self _ _
          · intro later within same
            have equal := outPoint_ofNat_inj (by omega) (by omega) same
            omega
      | succ offset =>
          rw [← Nat.add_assoc, Nat.add_right_comm]
          exact ih (by omega) isOutput

theorem get?_insertTransaction {hash : Hash256} {transaction : Transaction} {height : Int}
    {index : Nat} {output : Output} (fits : transaction.outputs.length ≤ UInt32.size)
    (isOutput : transaction.outputs[index]? = some output) :
    (view.insertTransaction hash transaction height).get? ⟨hash, UInt32.ofNat index⟩ =
      some (.ofTransactionOutput hash transaction height (UInt32.ofNat index) output) := by
  rw [← Nat.zero_add index]
  exact get?_insertOutputs (by rwa [Nat.zero_add]) isOutput

theorem get?_addTo {memo : MemoTransaction} (view : CoinView) (height : Int)
    (fits : memo.transaction.outputs.length ≤ UInt32.size) (index : UInt32) :
    (memo.addTo view height).1.get? ⟨memo.hash.1, index⟩ =
      if index.toNat < memo.transaction.outputs.length then
        ((memo.addTo view height).2.coin? index height).1
      else view.get? ⟨memo.hash.1, index⟩ := by
  obtain ⟨number, within, rfl⟩ : ∃ number < UInt32.size, UInt32.ofNat number = index :=
    ⟨index.toNat, index.toNat_lt, UInt32.ofNat_toNat⟩
  have told : ((memo.addTo view height).2.coin? (UInt32.ofNat number) height).1 =
      Coin.ofTransaction? memo.hash.1 memo.transaction (UInt32.ofNat number) height :=
    memo.hash.2.coin?_fst _ height
  have added : (memo.addTo view height).1 =
      view.insertTransaction memo.hash.1 memo.transaction height := rfl
  rw [UInt32.toNat_ofNat_of_lt' within, told, added]
  split_ifs with hasOutput
  · have isOutput := List.getElem?_eq_getElem hasOutput
    generalize memo.transaction.outputs[number] = output at isOutput
    rw [get?_insertTransaction fits isOutput, Coin.ofTransaction?,
      UInt32.toNat_ofNat_of_lt' within, isOutput]
    rfl
  · refine get?_insertTransaction_of_ne fun other below same => ?_
    have equal := outPoint_ofNat_inj within (Nat.lt_of_lt_of_le below fits) same
    omega

/-- A view that starts empty is the map of the coins that were put in last at each outpoint and
not taken out since, and it loses a coin by giving it away once. -/
theorem view_maps_outpoints_to_coins_last_added :
    (∀ changes : List CoinChange,
      (∀ outPoint coin, (after changes).get? outPoint = some coin ↔
        LastAdded (changes.flatMap CoinChange.events) outPoint coin) ∧
      (∀ outPoint coin, (after changes).get? outPoint = some coin → coin.outPoint = outPoint) ∧
      (∀ outPoint, (after changes).contains outPoint = true ↔
        ∃ coin, LastAdded (changes.flatMap CoinChange.events) outPoint coin) ∧
      (∃ live : List OutPoint, live.Nodup ∧ (after changes).size = live.length ∧
        ∀ outPoint, outPoint ∈ live ↔
          ∃ coin, LastAdded (changes.flatMap CoinChange.events) outPoint coin) ∧
      ∀ input : Input,
        ((after changes).change (.spend input)).1 = (after changes).get? input.previous ∧
        (after (changes ++ [.spend input])).get? input.previous = none ∧
        (∀ outPoint, outPoint ≠ input.previous →
          (after (changes ++ [.spend input])).get? outPoint = (after changes).get? outPoint) ∧
        ((after changes).get? input.previous = none →
          (∀ outPoint, (after (changes ++ [.spend input])).get? outPoint =
            (after changes).get? outPoint) ∧
          (after (changes ++ [.spend input])).size = (after changes).size) ∧
        ∀ (later : List CoinChange) (again : Input) (coin : Coin),
          ((after changes).change (.spend input)).1 = some coin →
          ((after (changes ++ .spend input :: later)).change (.spend again)).1 = some coin →
          .added coin ∈ later.flatMap CoinChange.events) ∧
    ∀ (memo : MemoTransaction) (view : CoinView) (height : Int),
      memo.transaction.outputs.length ≤ UInt32.size → ∀ index : UInt32,
        (memo.addTo view height).1.get? ⟨memo.hash.1, index⟩ =
          if index.toNat < memo.transaction.outputs.length then
            ((memo.addTo view height).2.coin? index height).1
          else view.get? ⟨memo.hash.1, index⟩ := by
  refine ⟨fun changes => ⟨fun _ _ => get?_after_eq_some_iff, fun _ _ => outPoint_of_get?,
    fun outPoint => ?_, ?_, fun input => ?_⟩, fun memo view height => get?_addTo view height⟩
  · rw [contains_eq_isSome_get?, Option.isSome_iff_exists]
    simp only [get?_after_eq_some_iff]
  · simpa only [get?_after_eq_some_iff] using (after changes).exists_outPoints
  · have spent : after (changes ++ [.spend input]) = (after changes).erase input.previous :=
      List.foldl_append
    refine ⟨rfl, ?_, ?_, ?_, ?_⟩
    · rw [spent, get?_erase_self]
    · intro outPoint elsewhere
      rw [spent, get?_erase_of_ne elsewhere]
    · intro missing
      rw [spent, size_erase_of_not_found missing]
      refine ⟨fun outPoint => ?_, rfl⟩
      by_cases here : outPoint = input.previous
      · rw [here, get?_erase_self, missing]
      · rw [get?_erase_of_ne here]
    · intro later again coin first second
      have here : coin.outPoint = input.previous := outPoint_of_get? first
      have there : coin.outPoint = again.previous := outPoint_of_get? second
      rw [change, spend, ← there, here] at second
      exact mem_of_get?_after_spend second

def firstInput : Input :=
  ⟨⟨.zero 32, 0⟩, .empty, [], 0xffffffff⟩

/-- A transaction with two outputs, about which a hash is remembered that it does not have. -/
def twoOutputs : MemoTransaction :=
  ⟨⟨2, [], [⟨10, .empty⟩, ⟨20, .empty⟩], 0, false⟩, ⟨some (.zero 32), none, none⟩⟩

/-- A coin of value 1 is replaced by the first of two outputs, which can be spent again only
because it is added again.  The second output stays. -/
theorem outputs_added_twice_are_spent_twice :
    let start : List CoinChange :=
      [.addOutput ⟨.zero 32, 0⟩ ⟨1, .empty⟩, .addTransaction twoOutputs 150]
    let later : List CoinChange := [.addTransaction twoOutputs 150]
    let coin : Coin := ⟨⟨.zero 32, 0⟩, 2, 150, false, 10, .empty⟩
    ((after start).change (.spend firstInput)).1 = some coin ∧
      ((after (start ++ .spend firstInput :: later)).change (.spend firstInput)).1 = some coin ∧
      .added coin ∈ later.flatMap CoinChange.events ∧
      (after (start ++ [.spend firstInput])).get? ⟨.zero 32, 1⟩ =
        some ⟨⟨.zero 32, 1⟩, 2, 150, false, 20, .empty⟩ ∧
      (twoOutputs.addTo empty 150).1.get? ⟨.zero 32, 2⟩ = none := by
  intro start later coin
  obtain ⟨histories, transactions⟩ := view_maps_outpoints_to_coins_last_added
  obtain ⟨found, -, -, -, spends⟩ := histories start
  obtain ⟨-, -, elsewhere, -, onceEach⟩ := spends firstInput
  obtain ⟨foundLater, -⟩ := histories (start ++ .spend firstInput :: later)
  let other : Coin := ⟨⟨.zero 32, 1⟩, 2, 150, false, 20, .empty⟩
  have first : ((after start).change (.spend firstInput)).1 = some coin :=
    (found _ _).mpr ⟨_, [.added other], rfl, rfl, by decide⟩
  have second :
      ((after (start ++ .spend firstInput :: later)).change (.spend firstInput)).1 = some coin :=
    (foundLater _ _).mpr ⟨(start ++ [CoinChange.spend firstInput]).flatMap CoinChange.events,
      [.added other], rfl, rfl, by decide⟩
  refine ⟨first, second, onceEach later firstInput coin first second, ?_, ?_⟩
  · rw [elsewhere _ (by decide)]
    exact (found _ _).mpr ⟨[.added (.ofOutput ⟨.zero 32, 0⟩ ⟨1, .empty⟩), .added coin], [],
      rfl, rfl, nofun⟩
  · have added := transactions twoOutputs empty 150 (by decide) 2
    rwa [if_neg (by decide), get?_empty] at added

end CoinView

end CoinSpend
