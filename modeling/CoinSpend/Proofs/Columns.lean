import CoinSpend.Proofs.WordNumbers

/-!
# Stacks as columns

A machine keeps its stack in an array with the top at the end, and finds its elements by
positions that it computes from the length.  A column is such an array.  On the column of a
stack the operations never leave the array, and do what the operations on stacks do.
-/

namespace CoinSpend

/-- A stack from the bottom to the top. -/
abbrev Column := List Bytes

namespace Column

open Checked

/-! ## Single positions -/

/-- Fail unless the column has so many elements. -/
def require (column : Column) (count : Nat) : Checked Unit :=
  lift (Outcome.require (count ≤ column.length) .invalidStackOperation)

/-- The position of the element that is so many places from the end, the last one being 1. -/
def position (column : Column) (place : Nat) : Checked Nat :=
  sub column.length place

/-- The element at a place, the top being 1. -/
def top (column : Column) (place : Nat) : Checked Bytes := do
  column.require place
  let position ← column.position place
  getAt column position

def push (column : Column) (element : Bytes) : Column :=
  column ++ [element]

/-- Take the top away, if there is one. -/
def pop (column : Column) : Checked (Bytes × Column) :=
  match column.getLast? with
  | some top => pure (top, column.dropLast)
  | none => lift (Outcome.fail .invalidStackOperation)

/-- Take an element out, and move those above it down. -/
def remove (column : Column) (position : Nat) : Checked (Bytes × Column) := do
  let element ← getAt column position
  return (element, column.eraseIdx position)

def swap (column : Column) (first second : Nat) : Checked Column := do
  let left ← getAt column first
  let right ← getAt column second
  return (column.set first right).set second left

/-- Put an element at a position, and move those from there on up. -/
def insert (column : Column) (position : Nat) (element : Bytes) : Checked Column :=
  if position ≤ column.length then
    pure (column.take position ++ element :: column.drop position)
  else
    crashed .outOfRange

section Reverse

variable {stack : Stack}

theorem require_reverse {count : Nat} (within : count ≤ stack.length) :
    require stack.reverse count = pure () := by
  rw [require, List.length_reverse, decide_eq_true within]
  rfl

theorem require_reverse_of_lt {count : Nat} (short : stack.length < count) :
    require stack.reverse count = lift (Outcome.fail .invalidStackOperation) := by
  rw [require, List.length_reverse, decide_eq_false (Nat.not_le.mpr short)]
  rfl

theorem position_reverse {place position : Nat} (sum : position + place = stack.length) :
    Column.position stack.reverse place = pure position := by
  rw [Column.position, List.length_reverse, ← sum, sub_of_le (Nat.le_add_left _ _),
    Nat.add_sub_cancel]

theorem top_reverse {element : Bytes} (depth : Nat) (found : stack[depth]? = some element) :
    top stack.reverse (depth + 1) = pure element := by
  have deep : depth + 1 ≤ stack.length := (List.getElem?_eq_some_iff.mp found).1
  obtain ⟨position, sum⟩ := Nat.exists_eq_add_of_le' deep
  rw [top, require_reverse deep, Checked.pure_bind, position_reverse sum.symm, Checked.pure_bind,
    getAt_reverse sum.symm found]

theorem top_reverse_of_none {depth : Nat} (missing : stack[depth]? = none) :
    top stack.reverse (depth + 1) = lift (Outcome.fail .invalidStackOperation) := by
  have short : stack.length < depth + 1 := Nat.lt_succ_of_le (List.getElem?_eq_none_iff.mp missing)
  rw [top, require_reverse_of_lt short, fail_bind]

theorem push_reverse (stack : Stack) (element : Bytes) :
    push stack.reverse element = (element :: stack).reverse :=
  List.reverse_cons.symm

theorem pop_reverse (element : Bytes) (rest : Stack) :
    pop (element :: rest).reverse = pure (element, rest.reverse) := by
  rw [pop, List.getLast?_reverse, List.reverse_cons, List.dropLast_concat]
  rfl

theorem take_reverse {position : Nat} (place : Nat) (sum : position + place = stack.length) :
    stack.reverse.take position = (stack.drop place).reverse := by
  rw [List.take_reverse]
  congr 2
  omega

theorem drop_reverse {position : Nat} (place : Nat) (sum : position + place = stack.length) :
    stack.reverse.drop position = (stack.take place).reverse := by
  rw [List.drop_reverse]
  congr 2
  omega

theorem remove_reverse {position : Nat} {element : Bytes} (depth : Nat)
    (sum : position + (depth + 1) = stack.length) (found : stack[depth]? = some element) :
    remove stack.reverse position = pure (element, (stack.eraseIdx depth).reverse) := by
  have next : position + 1 + depth = stack.length := by omega
  rw [remove, getAt_reverse sum found, Checked.pure_bind, List.eraseIdx_eq_take_drop_succ,
    List.eraseIdx_eq_take_drop_succ, take_reverse _ sum, drop_reverse _ next, List.reverse_append]

theorem insert_reverse {position : Nat} (element : Bytes) (place : Nat)
    (sum : position + place = stack.length) :
    insert stack.reverse position element =
      pure (stack.take place ++ element :: stack.drop place).reverse := by
  have within : position ≤ stack.reverse.length := by
    rw [List.length_reverse, ← sum]
    exact Nat.le_add_right _ _
  rw [insert, if_pos within, take_reverse _ sum, drop_reverse _ sum, List.reverse_append,
    List.reverse_cons, List.append_assoc]
  rfl

theorem set_reverse {depth position : Nat} (element : Bytes)
    (sum : position + (depth + 1) = stack.length) :
    stack.reverse.set position element = (stack.set depth element).reverse := by
  have next : position + 1 + depth = stack.length := by omega
  have inside : position < stack.reverse.length := by
    rw [List.length_reverse]
    omega
  have deep : depth < stack.length := by omega
  rw [List.set_eq_take_append_cons_drop, if_pos inside, List.set_eq_take_append_cons_drop,
    if_pos deep, take_reverse _ sum, drop_reverse _ next, List.reverse_append, List.reverse_cons,
    List.append_assoc]
  rfl

theorem swap_reverse {first second : Nat} {left right : Bytes} (firstDepth secondDepth : Nat)
    (firstSum : first + (firstDepth + 1) = stack.length)
    (secondSum : second + (secondDepth + 1) = stack.length)
    (isLeft : stack[firstDepth]? = some left) (isRight : stack[secondDepth]? = some right) :
    swap stack.reverse first second =
      pure ((stack.set firstDepth right).set secondDepth left).reverse := by
  have sameLength : second + (secondDepth + 1) = (stack.set firstDepth right).length := by
    rw [List.length_set, secondSum]
  rw [swap, getAt_reverse firstSum isLeft, Checked.pure_bind, getAt_reverse secondSum isRight,
    Checked.pure_bind, set_reverse right firstSum, set_reverse left sameLength]

end Reverse

/-! ## Moving and copying -/

/-- Take a number from the top. -/
def popNumber (requireMinimal : Bool) (column : Column) : Checked (Int64 × Column) := do
  let (top, column) ← column.pop
  let number ← ScriptNumber.readWord requireMinimal ScriptNumber.operandLength top
  return (number, column)

/-- Copy or move the element at a depth to the top. -/
def fetch (moved : Bool) (column : Column) (depth : Nat) : Checked Column := do
  let last ← column.position 1
  let position ← sub last depth
  if moved then
    let (element, column) ← column.remove position
    return column.push element
  else
    let element ← getAt column position
    return column.push element

/-- Take a depth from the column, and fetch the element there. -/
def fetchAt (requireMinimal moved : Bool) (column : Column) : Checked Column := do
  column.require 2
  let (number, column) ← column.popNumber requireMinimal
  if number < 0 ∨ column.length ≤ number.toInt.toNat then
    lift (Outcome.fail .invalidStackOperation)
  else
    column.fetch moved number.toInt.toNat

/-- Copy the elements at some places of a column, each on top of those before it. -/
def copy : List Nat → Column → Column → Checked Column
  | [], _, copied => pure copied
  | place :: places, column, copied => do
      let element ← column.top place
      copy places column (copied.push element)

/-- Carry out an operation that moves or copies elements. -/
def apply (requireMinimal : Bool) (operation : StackOperation) (column : Column) :
    Checked Column :=
  match operation with
  | .drop2 => do
      column.require 2
      let position ← column.position 2
      return column.take position
  | .dup2 => copy [2, 1] column column
  | .dup3 => copy [3, 2, 1] column column
  | .over2 => copy [4, 3] column column
  | .rotate2 => do
      column.require 6
      let position ← column.position 6
      let (a, column) ← column.remove position
      let (b, column) ← column.remove position
      return (column.push a).push b
  | .swap2 => do
      column.require 4
      let fourth ← column.position 4
      let third ← column.position 3
      let second ← column.position 2
      let first ← column.position 1
      let column ← column.swap fourth second
      column.swap third first
  | .dupIfTrue => do
      let top ← column.top 1
      return if ScriptNumber.isTrue top then column.push top else column
  | .depth => return column.push (ScriptNumber.encode column.length)
  | .drop => do
      let (_, column) ← column.pop
      return column
  | .dup => copy [1] column column
  | .nip => do
      column.require 2
      let position ← column.position 2
      let (_, column) ← column.remove position
      return column
  | .over => copy [2] column column
  | .pick => column.fetchAt requireMinimal false
  | .roll => column.fetchAt requireMinimal true
  | .rotate => do
      column.require 3
      let third ← column.position 3
      let second ← column.position 2
      let first ← column.position 1
      let column ← column.swap third second
      column.swap second first
  | .swap => do
      column.require 2
      let second ← column.position 2
      let first ← column.position 1
      column.swap second first
  | .tuck => do
      let top ← column.top 1
      column.require 2
      let position ← column.position 2
      column.insert position top
  | .size => do
      let top ← column.top 1
      return column.push (ScriptNumber.encode top.length)

variable {requireMinimal : Bool}

/-- Reading the top as a number takes it away. -/
theorem popNumber_agrees (top : Bytes) (rest : Stack) :
    Agrees (fun number => (Int64.ofInt number, rest.reverse))
      (popNumber requireMinimal (top :: rest).reverse)
      (Outcome.ofExcept (Stack.operand requireMinimal top)) := by
  rw [popNumber, pop_reverse, Checked.pure_bind, ← bind_pure (Stack.operand requireMinimal top)]
  refine (ScriptNumber.readWord_agrees requireMinimal (by decide) top).bindExcept ?_
  exact fun number _ => .pure _ number

theorem fetch_reverse {stack : Stack} {depth : Nat} (moved : Bool) (deep : depth < stack.length) :
    Agrees List.reverse (fetch moved stack.reverse depth)
      (Outcome.ofExcept (Stack.fetch moved stack depth)) := by
  have found := List.getElem?_eq_getElem deep
  obtain ⟨position, sum⟩ := Nat.exists_eq_add_of_le' (Nat.succ_le_of_lt deep)
  have last : Column.position stack.reverse 1 = pure (position + depth) := position_reverse sum.symm
  have isPosition : sub (position + depth) depth = pure position := by
    rw [sub_of_le (Nat.le_add_left _ _), Nat.add_sub_cancel]
  rw [fetch, last, Checked.pure_bind, isPosition, Checked.pure_bind, Stack.fetch, found]
  cases moved with
  | true =>
      rw [if_pos rfl, remove_reverse depth sum.symm found, Checked.pure_bind]
      dsimp only
      rw [push_reverse]
      rfl
  | false =>
      rw [if_neg Bool.false_ne_true, getAt_reverse sum.symm found, Checked.pure_bind, push_reverse]
      rfl

theorem fetchAt_agrees (moved : Bool) (stack : Stack) :
    Agrees List.reverse (fetchAt requireMinimal moved stack.reverse)
      (Outcome.ofExcept (Stack.fetchAt requireMinimal moved stack)) := by
  match stack with
  | [] => rfl
  | [_] => rfl
  | top :: next :: rest =>
      rw [fetchAt, require_reverse (Nat.le_add_left 2 _), Checked.pure_bind, Stack.fetchAt]
      refine (popNumber_agrees top (next :: rest)).bindExcept fun number isNumber => ?_
      have small := Word.natAbs_lt_of_operand isNumber
      have value := Word.toInt_ofInt small
      have outside : (Int64.ofInt number < 0 ∨
          (next :: rest).reverse.length ≤ (Int64.ofInt number).toInt.toNat) ↔
            ¬ (0 ≤ number ∧ number < (next :: rest).length) := by
        rw [Word.lt_zero_iff small, value, List.length_reverse]
        omega
      dsimp only
      rw [Stack.depthOf]
      by_cases within : 0 ≤ number ∧ number < (next :: rest).length
      · have deep : number.toNat < (next :: rest).length := by omega
        rw [if_neg (not_not_intro within ∘ outside.mp), if_pos within, value]
        exact fetch_reverse moved deep
      · rw [if_pos (outside.mpr within), if_neg within]
        rfl

/-- Copies of elements at known depths are put on top, the last one uppermost. -/
theorem copy_reverse {stack : Stack} (depths : List Nat) (elements : List Bytes) (copied : Stack)
    (found : depths.map (fun depth => stack[depth]?) = elements.map some) :
    copy (depths.map (· + 1)) stack.reverse copied.reverse =
      pure (elements.reverse ++ copied).reverse := by
  induction depths generalizing elements copied with
  | nil =>
      obtain rfl := List.map_eq_nil_iff.mp found.symm
      rfl
  | cons depth depths ih =>
      cases elements with
      | nil => cases found
      | cons element elements =>
          rw [List.map_cons, List.map_cons, List.cons.injEq] at found
          rw [List.map_cons, copy, top_reverse depth found.1, Checked.pure_bind, push_reverse,
            ih elements _ found.2, List.reverse_cons, List.append_assoc]
          rfl

section Shapes

variable (a b c d e f : Bytes) (rest : Stack)

theorem apply_drop2 :
    apply requireMinimal .drop2 (a :: b :: rest).reverse = pure rest.reverse := by
  have position : Column.position (a :: b :: rest).reverse 2 = pure rest.length :=
    position_reverse rfl
  have kept : (a :: b :: rest).reverse.take rest.length = rest.reverse := take_reverse 2 rfl
  rw [apply, require_reverse (Nat.le_add_left 2 _), Checked.pure_bind, position,
    Checked.pure_bind, kept]

theorem apply_rotate2 :
    apply requireMinimal .rotate2 (a :: b :: c :: d :: e :: f :: rest).reverse =
      pure (e :: f :: a :: b :: c :: d :: rest).reverse := by
  have position : Column.position (a :: b :: c :: d :: e :: f :: rest).reverse 6 =
      pure rest.length := position_reverse rfl
  have first : remove (a :: b :: c :: d :: e :: f :: rest).reverse rest.length =
      pure (f, (a :: b :: c :: d :: e :: rest).reverse) := remove_reverse 5 rfl rfl
  have second : remove (a :: b :: c :: d :: e :: rest).reverse rest.length =
      pure (e, (a :: b :: c :: d :: rest).reverse) := remove_reverse 4 rfl rfl
  rw [apply, require_reverse (Nat.le_add_left 6 _), Checked.pure_bind, position,
    Checked.pure_bind, first, Checked.pure_bind]
  dsimp only
  rw [second, Checked.pure_bind]
  dsimp only
  rw [push_reverse, push_reverse]

theorem apply_swap2 :
    apply requireMinimal .swap2 (a :: b :: c :: d :: rest).reverse =
      pure (c :: d :: a :: b :: rest).reverse := by
  have fourth : Column.position (a :: b :: c :: d :: rest).reverse 4 = pure rest.length :=
    position_reverse rfl
  have third : Column.position (a :: b :: c :: d :: rest).reverse 3 = pure (rest.length + 1) :=
    position_reverse rfl
  have second : Column.position (a :: b :: c :: d :: rest).reverse 2 = pure (rest.length + 2) :=
    position_reverse rfl
  have first : Column.position (a :: b :: c :: d :: rest).reverse 1 = pure (rest.length + 3) :=
    position_reverse rfl
  have outer : swap (a :: b :: c :: d :: rest).reverse rest.length (rest.length + 2) =
      pure (a :: d :: c :: b :: rest).reverse := swap_reverse 3 1 rfl rfl rfl rfl
  have inner : swap (a :: d :: c :: b :: rest).reverse (rest.length + 1) (rest.length + 3) =
      pure (c :: d :: a :: b :: rest).reverse := swap_reverse 2 0 rfl rfl rfl rfl
  rw [apply, require_reverse (Nat.le_add_left 4 _), Checked.pure_bind, fourth,
    Checked.pure_bind, third, Checked.pure_bind, second, Checked.pure_bind, first,
    Checked.pure_bind, outer, Checked.pure_bind, inner]

theorem apply_dupIfTrue :
    apply requireMinimal .dupIfTrue (a :: rest).reverse =
      pure (if ScriptNumber.isTrue a then a :: a :: rest else a :: rest).reverse := by
  have found : top (a :: rest).reverse 1 = pure a := top_reverse 0 rfl
  rw [apply, found, Checked.pure_bind, push_reverse]
  split <;> rfl

theorem apply_nip :
    apply requireMinimal .nip (a :: b :: rest).reverse = pure (a :: rest).reverse := by
  have position : Column.position (a :: b :: rest).reverse 2 = pure rest.length :=
    position_reverse rfl
  have removed : remove (a :: b :: rest).reverse rest.length = pure (b, (a :: rest).reverse) :=
    remove_reverse 1 rfl rfl
  rw [apply, require_reverse (Nat.le_add_left 2 _), Checked.pure_bind, position,
    Checked.pure_bind, removed, Checked.pure_bind]

theorem apply_rotate :
    apply requireMinimal .rotate (a :: b :: c :: rest).reverse =
      pure (c :: a :: b :: rest).reverse := by
  have third : Column.position (a :: b :: c :: rest).reverse 3 = pure rest.length :=
    position_reverse rfl
  have second : Column.position (a :: b :: c :: rest).reverse 2 = pure (rest.length + 1) :=
    position_reverse rfl
  have first : Column.position (a :: b :: c :: rest).reverse 1 = pure (rest.length + 2) :=
    position_reverse rfl
  have lower : swap (a :: b :: c :: rest).reverse rest.length (rest.length + 1) =
      pure (a :: c :: b :: rest).reverse := swap_reverse 2 1 rfl rfl rfl rfl
  have upper : swap (a :: c :: b :: rest).reverse (rest.length + 1) (rest.length + 2) =
      pure (c :: a :: b :: rest).reverse := swap_reverse 1 0 rfl rfl rfl rfl
  rw [apply, require_reverse (Nat.le_add_left 3 _), Checked.pure_bind, third,
    Checked.pure_bind, second, Checked.pure_bind, first, Checked.pure_bind, lower,
    Checked.pure_bind, upper]

theorem apply_swap :
    apply requireMinimal .swap (a :: b :: rest).reverse = pure (b :: a :: rest).reverse := by
  have second : Column.position (a :: b :: rest).reverse 2 = pure rest.length :=
    position_reverse rfl
  have first : Column.position (a :: b :: rest).reverse 1 = pure (rest.length + 1) :=
    position_reverse rfl
  have swapped : Column.swap (a :: b :: rest).reverse rest.length (rest.length + 1) =
      pure (b :: a :: rest).reverse := swap_reverse 1 0 rfl rfl rfl rfl
  rw [apply, require_reverse (Nat.le_add_left 2 _), Checked.pure_bind, second,
    Checked.pure_bind, first, Checked.pure_bind, swapped]

theorem apply_tuck :
    apply requireMinimal .tuck (a :: b :: rest).reverse = pure (a :: b :: a :: rest).reverse := by
  have found : top (a :: b :: rest).reverse 1 = pure a := top_reverse 0 rfl
  have second : Column.position (a :: b :: rest).reverse 2 = pure rest.length :=
    position_reverse rfl
  have inserted : insert (a :: b :: rest).reverse rest.length a =
      pure (a :: b :: a :: rest).reverse := insert_reverse a 2 rfl
  rw [apply, found, Checked.pure_bind, require_reverse (Nat.le_add_left 2 _), Checked.pure_bind,
    second, Checked.pure_bind, inserted]

theorem apply_size :
    apply requireMinimal .size (a :: rest).reverse =
      pure (ScriptNumber.encode a.length :: a :: rest).reverse := by
  have found : top (a :: rest).reverse 1 = pure a := top_reverse 0 rfl
  rw [apply, found, Checked.pure_bind, push_reverse]

end Shapes

/-- On the column of a stack every operation stays inside the array, and does what it does
on the stack. -/
theorem apply_agrees (operation : StackOperation) (stack : Stack) :
    Agrees List.reverse (apply requireMinimal operation stack.reverse)
      (Outcome.ofExcept (Stack.apply requireMinimal operation stack)) := by
  match operation with
  | .drop2 =>
      match stack with
      | [] | [_] => rfl
      | a :: b :: rest => exact apply_drop2 a b rest
  | .dup2 =>
      match stack with
      | [] | [_] => rfl
      | a :: b :: rest => exact copy_reverse [1, 0] [b, a] (a :: b :: rest) rfl
  | .dup3 =>
      match stack with
      | [] | [_] | [_, _] => rfl
      | a :: b :: c :: rest => exact copy_reverse [2, 1, 0] [c, b, a] (a :: b :: c :: rest) rfl
  | .over2 =>
      match stack with
      | [] | [_] | [_, _] | [_, _, _] => rfl
      | a :: b :: c :: d :: rest =>
          exact copy_reverse [3, 2] [d, c] (a :: b :: c :: d :: rest) rfl
  | .rotate2 =>
      match stack with
      | [] | [_] | [_, _] | [_, _, _] | [_, _, _, _] | [_, _, _, _, _] => rfl
      | a :: b :: c :: d :: e :: f :: rest => exact apply_rotate2 a b c d e f rest
  | .swap2 =>
      match stack with
      | [] | [_] | [_, _] | [_, _, _] => rfl
      | a :: b :: c :: d :: rest => exact apply_swap2 a b c d rest
  | .dupIfTrue =>
      match stack with
      | [] => rfl
      | a :: rest => exact apply_dupIfTrue a rest
  | .depth =>
      have counted : apply requireMinimal .depth stack.reverse =
          pure (ScriptNumber.encode stack.length :: stack).reverse := by
        rw [apply, push_reverse, List.length_reverse]
      exact counted
  | .drop =>
      match stack with
      | [] => rfl
      | a :: rest =>
          have dropped : apply requireMinimal .drop (a :: rest).reverse = pure rest.reverse := by
            rw [apply, pop_reverse, Checked.pure_bind]
          exact dropped
  | .dup =>
      match stack with
      | [] => rfl
      | a :: rest => exact copy_reverse [0] [a] (a :: rest) rfl
  | .nip =>
      match stack with
      | [] | [_] => rfl
      | a :: b :: rest => exact apply_nip a b rest
  | .over =>
      match stack with
      | [] | [_] => rfl
      | a :: b :: rest => exact copy_reverse [1] [b] (a :: b :: rest) rfl
  | .pick =>
      have fetched : Agrees List.reverse (fetchAt requireMinimal false stack.reverse)
          (Outcome.ofExcept (Stack.fetchAt requireMinimal false stack)) :=
        fetchAt_agrees false stack
      match stack with
      | [] | [_] | _ :: _ :: _ => exact fetched
  | .roll =>
      have fetched : Agrees List.reverse (fetchAt requireMinimal true stack.reverse)
          (Outcome.ofExcept (Stack.fetchAt requireMinimal true stack)) :=
        fetchAt_agrees true stack
      match stack with
      | [] | [_] | _ :: _ :: _ => exact fetched
  | .rotate =>
      match stack with
      | [] | [_] | [_, _] => rfl
      | a :: b :: c :: rest => exact apply_rotate a b c rest
  | .swap =>
      match stack with
      | [] | [_] => rfl
      | a :: b :: rest => exact apply_swap a b rest
  | .tuck =>
      match stack with
      | [] | [_] => rfl
      | a :: b :: rest => exact apply_tuck a b rest
  | .size =>
      match stack with
      | [] => rfl
      | a :: rest => exact apply_size a rest

end Column

end CoinSpend
