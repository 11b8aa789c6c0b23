/-
**Parts of a text by their places.**

A slice is the part of a text between two offsets (`exists_of_slice?`), and there is one wherever
both offsets lie between characters (`exists_slice`). It does not depend on what stands behind it
(`slice?_append_left`), and text in front of it only moves it on (`slice?_append_right`).
-/

import RSource.Text.Bytes

namespace RSource.Text

theorem exists_of_dropBytes? {count : Nat} {text rest : Text}
    (found : text.dropBytes? count = some rest) :
    ∃ front, text = front ++ rest ∧ count = front.bytes := by
  induction text generalizing count with
  | nil =>
    cases count with
    | zero =>
      cases found
      exact ⟨[], rfl, rfl⟩
    | succ count => cases found
  | cons c others previous =>
    cases count with
    | zero =>
      cases found
      exact ⟨[], rfl, rfl⟩
    | succ count =>
      rw [dropBytes?] at found
      split at found
      · obtain ⟨front, rfl, size⟩ := previous found
        refine ⟨c :: front, rfl, ?_⟩
        rw [bytes_cons]
        omega
      · cases found

theorem exists_of_takeBytes? {count : Nat} {text front : Text}
    (found : text.takeBytes? count = some front) :
    ∃ rest, text = front ++ rest ∧ count = front.bytes := by
  induction text generalizing count front with
  | nil =>
    cases count with
    | zero =>
      cases found
      exact ⟨[], rfl, rfl⟩
    | succ count => cases found
  | cons c others previous =>
    cases count with
    | zero =>
      cases found
      exact ⟨c :: others, rfl, rfl⟩
    | succ count =>
      rw [takeBytes?] at found
      split at found
      · obtain ⟨word, taken, rfl⟩ := Option.map_eq_some_iff.mp found
        obtain ⟨rest, rfl, size⟩ := previous taken
        refine ⟨rest, rfl, ?_⟩
        rw [bytes_cons]
        omega
      · cases found

/-- A slice is a part of the text, at its place. -/
theorem exists_of_slice? {text window : Text} {start stop : Nat}
    (found : text.slice? start stop = some window) :
    ∃ before after, text = before ++ window ++ after ∧ start = before.bytes
      ∧ stop = start + window.bytes := by
  unfold slice? at found
  split at found
  · obtain ⟨rest, dropped, taken⟩ := Option.bind_eq_some_iff.mp found
    obtain ⟨before, rfl, place⟩ := exists_of_dropBytes? dropped
    obtain ⟨after, rfl, size⟩ := exists_of_takeBytes? taken
    exact ⟨before, after, (List.append_assoc _ _ _).symm, place, by omega⟩
  · cases found

/-! ### Places between characters -/

/-- An offset between two characters of a text, or at one of its ends. -/
def IsBoundary (text : Text) (offset : Nat) : Prop :=
  ∃ before behind, text = before ++ behind ∧ offset = before.bytes

theorem isBoundary_zero (text : Text) : text.IsBoundary 0 := ⟨[], text, rfl, rfl⟩

theorem isBoundary_bytes (text : Text) : text.IsBoundary text.bytes :=
  ⟨text, [], (List.append_nil text).symm, rfl⟩

/-- **Between two such offsets there is a slice.** -/
theorem exists_slice {text : Text} {start stop : Nat} (first : text.IsBoundary start)
    (last : text.IsBoundary stop) (ordered : start ≤ stop) :
    ∃ window, text.slice? start stop = some window := by
  obtain ⟨before, rest, rfl, rfl⟩ := first
  obtain ⟨front, behind, same, rfl⟩ := last
  rcases List.append_eq_append_iff.mp same with ⟨middle, rfl, rfl⟩ | ⟨middle, rfl, rfl⟩
  · refine ⟨middle, ?_⟩
    rw [← List.append_assoc, bytes_append]
    exact slice?_middle before middle behind
  · cases middle with
    | nil => exact ⟨[], by simpa using slice?_middle front [] rest⟩
    | cons c middle =>
      have wide := c.utf8Size_pos
      rw [bytes_append, bytes_cons] at ordered
      omega

/-! ### Text in front and behind -/

theorem dropBytes?_append_left {count : Nat} {text : Text} (others : Text)
    (inside : count ≤ text.bytes) :
    (text ++ others).dropBytes? count = (text.dropBytes? count).map (· ++ others) := by
  induction text generalizing count with
  | nil =>
    obtain rfl : count = 0 := Nat.le_zero.mp inside
    cases others <;> rfl
  | cons c rest previous =>
    cases count with
    | zero => rfl
    | succ count =>
      rw [List.cons_append, dropBytes?, dropBytes?]
      split
      · refine previous ?_
        rw [bytes_cons] at inside
        omega
      · rfl

theorem takeBytes?_append_left {count : Nat} {text : Text} (others : Text)
    (inside : count ≤ text.bytes) :
    (text ++ others).takeBytes? count = text.takeBytes? count := by
  induction text generalizing count with
  | nil =>
    obtain rfl : count = 0 := Nat.le_zero.mp inside
    cases others <;> rfl
  | cons c rest previous =>
    cases count with
    | zero => rfl
    | succ count =>
      rw [List.cons_append, takeBytes?, takeBytes?]
      split
      · rw [previous]
        rw [bytes_cons] at inside
        omega
      · rfl

/-- **What stands behind a slice does not matter.** -/
theorem slice?_append_left {start stop : Nat} {text : Text} (others : Text)
    (inside : stop ≤ text.bytes) :
    (text ++ others).slice? start stop = text.slice? start stop := by
  unfold slice?
  split
  · rename_i ordered
    rw [dropBytes?_append_left others (Nat.le_trans ordered inside)]
    cases dropped : text.dropBytes? start with
    | none => rfl
    | some rest =>
      obtain ⟨front, rfl, rfl⟩ := exists_of_dropBytes? dropped
      rw [bytes_append] at inside
      exact takeBytes?_append_left others (by omega)
  · rfl

theorem dropBytes?_append_right (before text : Text) (count : Nat) :
    (before ++ text).dropBytes? (count + before.bytes) = text.dropBytes? count := by
  induction before with
  | nil => rfl
  | cons c rest previous =>
    have wide := c.utf8Size_pos
    have further : count + bytes (c :: rest) = count + bytes rest + c.utf8Size - 1 + 1 := by
      rw [bytes_cons]
      omega
    rw [List.cons_append, further, dropBytes?, if_pos (by omega), ← previous]
    congr 1
    omega

/-- **Text in front of a slice moves it on.** -/
theorem slice?_append_right (before text : Text) (start stop : Nat) :
    (before ++ text).slice? (start + before.bytes) (stop + before.bytes)
      = text.slice? start stop := by
  unfold slice?
  rw [dropBytes?_append_right, Nat.add_sub_add_right]
  simp only [Nat.add_le_add_iff_right]

end RSource.Text
