/-!
# Sums over lists

Sizes and counts of a whole are sums over its parts.
-/

namespace CoinSpend

/-- The sum of a measure over a list. -/
def sumOf {α : Type} (measure : α → Nat) (items : List α) : Nat :=
  items.foldr (fun item total => measure item + total) 0

variable {α : Type} (measure : α → Nat)

@[simp] theorem sumOf_nil : sumOf measure [] = 0 :=
  rfl

@[simp] theorem sumOf_cons (item : α) (items : List α) :
    sumOf measure (item :: items) = measure item + sumOf measure items :=
  rfl

@[simp] theorem sumOf_append (left right : List α) :
    sumOf measure (left ++ right) = sumOf measure left + sumOf measure right := by
  induction left with
  | nil => simp
  | cons item rest ih => simp [ih, Nat.add_assoc]

/-- Items that all count make the sum at least their number. -/
theorem length_le_sumOf (counts : ∀ item, 1 ≤ measure item) (items : List α) :
    items.length ≤ sumOf measure items := by
  induction items with
  | nil => exact Nat.le_refl 0
  | cons item rest ih =>
      rw [List.length_cons, sumOf_cons, Nat.add_comm]
      exact Nat.add_le_add (counts item) ih

/-- The bytes of a sequence of encoded items. -/
theorem length_flatMap_eq_sumOf {β : Type} (encode : α → List β)
    (length_encode : ∀ item, (encode item).length = measure item) (items : List α) :
    (items.flatMap encode).length = sumOf measure items := by
  induction items with
  | nil => rfl
  | cons item rest ih => simp [ih, length_encode]

/-- The order of the items does not matter. -/
theorem sumOf_perm {items others : List α} (reordered : items.Perm others) :
    sumOf measure items = sumOf measure others := by
  induction reordered with
  | nil => rfl
  | cons item _ ih => rw [sumOf_cons, sumOf_cons, ih]
  | swap first second rest =>
      simp only [sumOf_cons]
      omega
  | trans _ _ ihBefore ihAfter => exact ihBefore.trans ihAfter

theorem sumOf_map {β : Type} (measure : β → Nat) (view : α → β) (items : List α) :
    sumOf measure (items.map view) = sumOf (fun item => measure (view item)) items := by
  induction items with
  | nil => rfl
  | cons item rest ih => rw [List.map_cons, sumOf_cons, sumOf_cons, ih]

/-! ## Sums that can be negative -/

/-- The exact sum of a measure over a list. -/
def totalOf (measure : α → Int) (items : List α) : Int :=
  items.foldr (fun item total => measure item + total) 0

@[simp] theorem totalOf_nil (measure : α → Int) : totalOf measure [] = 0 :=
  rfl

@[simp] theorem totalOf_cons (measure : α → Int) (item : α) (items : List α) :
    totalOf measure (item :: items) = measure item + totalOf measure items :=
  rfl

/-- The order of the items does not matter. -/
theorem totalOf_perm (measure : α → Int) {items others : List α}
    (reordered : items.Perm others) : totalOf measure items = totalOf measure others := by
  induction reordered with
  | nil => rfl
  | cons item _ ih => rw [totalOf_cons, totalOf_cons, ih]
  | swap first second rest =>
      simp only [totalOf_cons]
      omega
  | trans _ _ ihBefore ihAfter => exact ihBefore.trans ihAfter

theorem totalOf_nonneg {measure : α → Int} {items : List α}
    (nonneg : ∀ item ∈ items, 0 ≤ measure item) : 0 ≤ totalOf measure items := by
  induction items with
  | nil => exact Int.le_refl 0
  | cons item rest ih =>
      obtain ⟨first, nonneg⟩ := List.forall_mem_cons.mp nonneg
      exact Int.add_nonneg first (ih nonneg)

end CoinSpend
