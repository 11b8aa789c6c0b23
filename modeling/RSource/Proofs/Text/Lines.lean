/-
**Searching by halving finds the right place.**

The starts of the lines of a text are in order, and so are its comments. `Narrows row bound low
high` says what a search for `bound` has found out about a row so far; a search ends where it leaves
no choice, and there is only one such place (`Narrows.unique`). Main statements: `narrows_lineOf`,
the line of an offset is the last one that starts at or before it; `narrows_commentsUpTo`, the same
of comments.
-/

import RSource.Document
import RSource.Text.Lines
import Mathlib.Data.List.TakeWhile

namespace RSource

/-- The entries of a row in front of `low` are there and at most `bound`, and those from `high` on
are larger. -/
structure Narrows (row : Array Nat) (bound low high : Nat) : Prop where
  front : ∀ place < low, ∃ entry ≤ bound, row[place]? = some entry
  behind : ∀ place ≥ high, ∀ entry, row[place]? = some entry → bound < entry

namespace Narrows

variable {row : Array Nat} {bound low high : Nat}

/-- At the start of a search nothing is known. -/
theorem start (row : Array Nat) (bound : Nat) : Narrows row bound 0 row.size where
  front _ none := absurd none (Nat.not_lt_zero _)
  behind place beyond entry found := by
    rw [Array.getElem?_eq_none beyond] at found
    cases found

theorem of_le (known : Narrows row bound low high) {place : Nat} (further : high ≤ place) :
    Narrows row bound low place where
  front := known.front
  behind _ beyond := known.behind _ (Nat.le_trans further beyond)

/-- **Where nothing is left open there is no choice.** -/
theorem unique {left right : Nat} (first : Narrows row bound left left)
    (second : Narrows row bound right right) : left = right := by
  have le {left right : Nat} (first : Narrows row bound left left)
      (second : Narrows row bound right right) : left ≤ right := by
    refine Nat.not_lt.mp fun less => ?_
    obtain ⟨entry, small, found⟩ := first.front right less
    exact absurd small (Nat.not_le.mpr (second.behind right (Nat.le_refl _) entry found))
  exact Nat.le_antisymm (le first second) (le second first)

variable (ordered : row.toList.Pairwise (· < ·))
include ordered

/-- Of two entries the first is not larger. -/
theorem le_of_ordered {first second left right : Nat} (before : first ≤ second)
    (found : row[first]? = some left) (other : row[second]? = some right) : left ≤ right := by
  rw [← Array.getElem?_toList] at found other
  obtain ⟨inside, rfl⟩ := List.getElem?_eq_some_iff.mp found
  obtain ⟨further, rfl⟩ := List.getElem?_eq_some_iff.mp other
  obtain same | less := Nat.eq_or_lt_of_le before
  · subst same
    exact Nat.le_refl _
  · exact Nat.le_of_lt (List.pairwise_iff_getElem.mp ordered _ _ inside further less)

/-- An entry that is small enough puts all in front of it in front. -/
theorem raise (known : Narrows row bound low high) {middle : Nat}
    (small : (row[middle]?).any (· ≤ bound) = true) : Narrows row bound (middle + 1) high where
  front place before := by
    obtain ⟨entry, found, within⟩ := Option.any_eq_true _ _ |>.mp small
    have inside : place < row.size :=
      Nat.lt_of_le_of_lt (Nat.le_of_lt_succ before) (Array.getElem?_eq_some_iff.mp found).1
    refine ⟨row[place], ?_, Array.getElem?_eq_getElem inside⟩
    exact Nat.le_trans (le_of_ordered ordered (Nat.le_of_lt_succ before)
      (Array.getElem?_eq_getElem inside) found) (of_decide_eq_true within)
  behind := known.behind

/-- An entry that is too large, or none, puts all from it on behind. -/
theorem reduce (known : Narrows row bound low high) {middle : Nat}
    (large : ¬(row[middle]?).any (· ≤ bound) = true) : Narrows row bound low middle where
  front := known.front
  behind place beyond entry found := by
    have inside : middle < row.size :=
      Nat.lt_of_le_of_lt beyond (Array.getElem?_eq_some_iff.mp found).1
    rw [Array.getElem?_eq_getElem inside, Option.any_some, decide_eq_true_iff] at large
    exact Nat.lt_of_lt_of_le (Nat.not_le.mp large)
      (le_of_ordered ordered beyond (Array.getElem?_eq_getElem inside) found)

end Narrows

/-- Passing over the entries that are small enough leads to the place where the others begin. -/
theorem narrows_takeWhile {row : List Nat} (ordered : row.Pairwise (· < ·)) {bound : Nat}
    {test : Nat → Bool} (meaning : ∀ entry ∈ row, test entry = true ↔ entry ≤ bound) :
    Narrows row.toArray bound (row.takeWhile test).length (row.takeWhile test).length := by
  have whole : row.takeWhile test ++ row.dropWhile test = row := List.takeWhile_append_dropWhile
  have large : ¬(row.toArray[(row.takeWhile test).length]?).any (· ≤ bound) = true := by
    have next : (row.takeWhile test ++ row.dropWhile test)[(row.takeWhile test).length]?
        = (row.dropWhile test).head? := by
      rw [List.getElem?_append_right (Nat.le_refl _), Nat.sub_self, List.head?_eq_getElem?]
    rw [whole] at next
    rw [List.getElem?_toArray, next]
    cases rest : row.dropWhile test with
    | nil => nofun
    | cons entry others =>
      have fails := List.head?_dropWhile_not test row
      rw [rest] at fails
      have member : entry ∈ row := (List.dropWhile_sublist test).subset (by simp [rest])
      rw [List.head?_cons, Option.any_some, decide_eq_true_iff, ← meaning entry member]
      exact Bool.not_eq_true _ ▸ fails
  refine ⟨fun place before => ?_, ((Narrows.start _ _).reduce ordered large).behind⟩
  have taken := List.getElem_mem before
  have found : (row.takeWhile test ++ row.dropWhile test)[place]?
      = some (row.takeWhile test)[place] := by
    rw [List.getElem?_append_left before, List.getElem?_eq_getElem before]
  rw [whole] at found
  exact ⟨_, (meaning _ ((List.takeWhile_sublist test).subset taken)).mp
    (List.mem_takeWhile_imp taken), by rw [List.getElem?_toArray, found]⟩

/-! ### Lines -/

namespace LineTable

/-- Lines that start behind an offset are in order. -/
theorem startsFrom_ordered (text : Text) (offset : Nat) :
    (startsFrom offset text).Pairwise (· < ·)
      ∧ ∀ start ∈ startsFrom offset text, offset < start := by
  induction text generalizing offset with
  | nil => exact ⟨.nil, nofun⟩
  | cons c rest previous =>
    obtain ⟨ordered, behind⟩ := previous (offset + c.utf8Size)
    have further : offset < offset + c.utf8Size := Nat.lt_add_of_pos_right c.utf8Size_pos
    have beyond : ∀ start ∈ startsFrom (offset + c.utf8Size) rest, offset < start :=
      fun start member => Nat.lt_trans further (behind start member)
    rw [startsFrom]
    split
    · exact ⟨.cons behind ordered, List.forall_mem_cons.mpr ⟨further, beyond⟩⟩
    · exact ⟨ordered, beyond⟩

/-- **The lines of a text start one behind the other.** -/
theorem starts_ordered (text : Text) : (ofText text).starts.toList.Pairwise (· < ·) :=
  have behind := startsFrom_ordered text 0
  .cons behind.2 behind.1

/-- A search among lines ends at the right one. -/
theorem narrows_search {table : LineTable} (ordered : table.starts.toList.Pairwise (· < ·))
    {offset : Nat} (bound : Nat) {low high : Nat}
    (known : Narrows table.starts offset (low + 1) high) (enough : high ≤ low + 1 + bound) :
    Narrows table.starts offset (table.search offset bound low high + 1)
      (table.search offset bound low high + 1) := by
  induction bound generalizing low high with
  | zero => exact known.of_le enough
  | succ bound previous =>
    rw [search]
    split
    · simp only
      split
      · rename_i small
        exact previous (known.raise ordered small) (by omega)
      · rename_i large
        exact previous (known.reduce ordered large) (by omega)
    · rename_i close
      exact known.of_le (Nat.not_lt.mp close)

/-- **The line of an offset is the last one that starts at or before it.** -/
theorem narrows_lineOf (text : Text) (offset : Nat) :
    Narrows (ofText text).starts offset ((ofText text).lineOf offset + 1)
      ((ofText text).lineOf offset + 1) := by
  have first : ((ofText text).starts[0]?).any (· ≤ offset) = true :=
    decide_eq_true (Nat.zero_le offset)
  exact narrows_search (starts_ordered text) _
    ((Narrows.start _ offset).raise (starts_ordered text) first) (Nat.le_add_left _ _)

end LineTable

/-! ### Comments -/

namespace Document

/-- A search among comments ends behind the last one that begins at or before an offset. -/
theorem narrows_commentsUpTo {comments : Array Token} {offset : Nat} (bound : Nat)
    (ordered : (comments.map (·.start)).toList.Pairwise (· < ·)) {low high : Nat}
    (known : Narrows (comments.map (·.start)) offset low high) (enough : high ≤ low + bound) :
    Narrows (comments.map (·.start)) offset (commentsUpTo comments offset bound low high)
      (commentsUpTo comments offset bound low high) := by
  induction bound generalizing low high with
  | zero => exact known.of_le enough
  | succ bound previous =>
    have same (middle : Nat) : (comments[middle]?).any (·.start ≤ offset)
        = ((comments.map (·.start))[middle]?).any (· ≤ offset) := by
      rw [Array.getElem?_map, Option.any_map]
    rw [commentsUpTo]
    split
    · simp only
      rw [same]
      split
      · rename_i small
        exact previous (known.raise ordered small) (by omega)
      · rename_i large
        exact previous (known.reduce ordered large) (by omega)
    · rename_i close
      exact known.of_le (Nat.not_lt.mp close)

end Document

end RSource
