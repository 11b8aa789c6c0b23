/-
**A forward-only cursor over a list.**

The items before the cursor are kept last first, the items from it on in their order, so no
operation can lose one: `items_advance` and `items_skipWhile`. Behind the last item stands a mark,
which is what the cursor shows when nothing is left. Places are 64-bit words: `peek?` adds its
offset to the place of the cursor and has no result where the sum is no word. Items are passed by a
test in two ways: `skipWhile` looks at the items that are left, `skip` at the cursor alone, round by
round.
-/

namespace RSource

/-- A list with a place in it. -/
structure Cursor (α : Type) where
  /-- The items before the cursor, the last one first. -/
  passed : List α
  /-- The items from the cursor on. -/
  rest : List α
  /-- What stands behind the last item. -/
  mark : α
  deriving Repr, DecidableEq, Inhabited

namespace Cursor

variable {α : Type}

/-- A cursor at the first of `items`. -/
def ofList (items : List α) (mark : α) : Cursor α := ⟨[], items, mark⟩

/-- All items, from the first. -/
def items (cursor : Cursor α) : List α := cursor.passed.reverse ++ cursor.rest

/-- The number of items before the cursor. -/
def position (cursor : Cursor α) : Nat := cursor.passed.length

def isAtEnd (cursor : Cursor α) : Bool := cursor.rest.isEmpty

/-- The item at the cursor, or the mark at the end. -/
def current (cursor : Cursor α) : α := cursor.rest.headD cursor.mark

/-- The number of places that a 64-bit word can name. -/
def placeCount : Nat := Nat.pow 2 64

/-- The item `offset` places ahead, or the mark where there is none. It is a fault, with no result,
to look at a place that no word names. -/
def peek? (cursor : Cursor α) (offset : Nat) : Option α :=
  if cursor.position + offset < placeCount then some (cursor.rest.getD offset cursor.mark)
  else none

/-- The item right before the cursor. -/
def previous? (cursor : Cursor α) : Option α := cursor.passed.head?

/-- Passes the item at the cursor and gives it back. At the end the cursor stays on the mark. -/
def advance (cursor : Cursor α) : α × Cursor α :=
  match cursor.rest with
  | [] => (cursor.mark, cursor)
  | item :: rest => (item, ⟨item :: cursor.passed, rest, cursor.mark⟩)

/-- Passes items as long as `test` holds of them. -/
def skipWhile (test : α → Bool) (cursor : Cursor α) : Cursor α :=
  ⟨(cursor.rest.takeWhile test).reverse ++ cursor.passed, cursor.rest.dropWhile test, cursor.mark⟩

/-- Passes the item at the cursor, again and again, as long as `test` holds of it. The cursor never
leaves the mark: where the mark passes the test and no item is left that fails it, this goes on for
ever and has no result. -/
def skip (test : α → Bool) (cursor : Cursor α) : Option (Cursor α) :=
  if test cursor.current then cursor.advance.2 |>.skip test else some cursor
partial_fixpoint

/-- Passes the first `count` items that are left. -/
def drop (count : Nat) (cursor : Cursor α) : Cursor α :=
  ⟨(cursor.rest.take count).reverse ++ cursor.passed, cursor.rest.drop count, cursor.mark⟩

theorem skip_of_pos {test : α → Bool} {cursor : Cursor α} (passes : test cursor.current = true) :
    cursor.skip test = cursor.advance.2.skip test := by
  rw [skip.eq_def, if_pos passes]

theorem skip_of_neg {test : α → Bool} {cursor : Cursor α} (fails : test cursor.current = false) :
    cursor.skip test = some cursor := by
  rw [skip.eq_def, if_neg (Bool.eq_false_iff.mp fails)]

@[simp] theorem items_ofList (list : List α) (mark : α) : (ofList list mark).items = list := rfl

@[simp] theorem items_advance (cursor : Cursor α) : cursor.advance.2.items = cursor.items := by
  unfold advance
  split
  · rfl
  · rename_i item rest shape
    simp [items, shape]

@[simp] theorem items_skipWhile (test : α → Bool) (cursor : Cursor α) :
    (cursor.skipWhile test).items = cursor.items := by
  simp only [items, skipWhile, List.reverse_append, List.reverse_reverse, List.append_assoc,
    List.takeWhile_append_dropWhile]

@[simp] theorem items_drop (count : Nat) (cursor : Cursor α) :
    (cursor.drop count).items = cursor.items := by
  simp only [items, drop, List.reverse_append, List.reverse_reverse, List.append_assoc,
    List.take_append_drop]

end Cursor

/-- A test divides a list where it first fails. -/
theorem takeWhile_dropWhile_append {α : Type} {test : α → Bool} {front rest : List α}
    (passes : ∀ item ∈ front, test item = true) (stops : ∀ item ∈ rest.head?, test item = false) :
    (front ++ rest).takeWhile test = front ∧ (front ++ rest).dropWhile test = rest := by
  have ends : rest.takeWhile test = [] ∧ rest.dropWhile test = rest := by
    cases rest with
    | nil => exact ⟨rfl, rfl⟩
    | cons item rest =>
      have fails : ¬ test item = true := Bool.not_eq_true _ ▸ stops item rfl
      exact ⟨List.takeWhile_cons_of_neg fails, List.dropWhile_cons_of_neg fails⟩
  rw [List.takeWhile_append_of_pos passes, List.dropWhile_append_of_pos passes, ends.1, ends.2,
    List.append_nil]
  exact ⟨rfl, rfl⟩

end RSource
