/-
**Text, measured in bytes.**

A text is a list of characters. Offsets into it count the bytes of its UTF-8 form, so an offset may
fall inside a character; `slice?` answers only where both ends fall between two characters. Main
statements: `dropBytes?_bytes` and `takeBytes?_bytes`, cutting a text at the size of its first part
gives the two parts back, so `slice?_middle` finds every part of a text by its place.
-/

namespace RSource

/-- A source text, character by character. -/
abbrev Text := List Char

namespace Text

/-- The number of bytes in the UTF-8 form of a text. -/
def bytes : Text → Nat
  | [] => 0
  | first :: rest => first.utf8Size + bytes rest

@[simp] theorem bytes_nil : bytes [] = 0 := rfl

@[simp] theorem bytes_cons (first : Char) (rest : Text) :
    bytes (first :: rest) = first.utf8Size + bytes rest := rfl

@[simp] theorem bytes_append (left right : Text) :
    bytes (left ++ right) = bytes left + bytes right := by
  induction left with
  | nil => simp
  | cons first rest previous => simp [previous, Nat.add_assoc]

/-- Only the empty text has no bytes. -/
theorem bytes_pos {text : Text} (nonempty : text ≠ []) : 0 < bytes text := by
  cases text with
  | nil => exact absurd rfl nonempty
  | cons first rest =>
    have width := first.utf8Size_pos
    simp only [bytes_cons]
    omega

/-- What follows the first `count` bytes, when a character ends there. -/
def dropBytes? : Nat → Text → Option Text
  | 0, text => some text
  | _ + 1, [] => none
  | count + 1, first :: rest =>
    if first.utf8Size ≤ count + 1 then dropBytes? (count + 1 - first.utf8Size) rest else none

/-- The first `count` bytes, when a character ends there. -/
def takeBytes? : Nat → Text → Option Text
  | 0, _ => some []
  | _ + 1, [] => none
  | count + 1, first :: rest =>
    if first.utf8Size ≤ count + 1 then
      (takeBytes? (count + 1 - first.utf8Size) rest).map (first :: ·)
    else none

/-- The bytes from `start` up to `stop`, when both offsets lie between two characters. -/
def slice? (text : Text) (start stop : Nat) : Option Text :=
  if start ≤ stop then (dropBytes? start text).bind (takeBytes? (stop - start)) else none

theorem dropBytes?_bytes (left right : Text) :
    dropBytes? (bytes left) (left ++ right) = some right := by
  induction left with
  | nil => cases right <;> rfl
  | cons first rest previous =>
    have width := first.utf8Size_pos
    obtain ⟨count, size⟩ : ∃ count, bytes (first :: rest) = count + 1 :=
      ⟨bytes (first :: rest) - 1, by simp only [bytes_cons]; omega⟩
    have left_over : count + 1 - first.utf8Size = bytes rest := by
      simp only [bytes_cons] at size; omega
    rw [size, List.cons_append, dropBytes?, if_pos (by simp only [bytes_cons] at size; omega),
      left_over, previous]

theorem takeBytes?_bytes (left right : Text) :
    takeBytes? (bytes left) (left ++ right) = some left := by
  induction left with
  | nil => cases right <;> rfl
  | cons first rest previous =>
    have width := first.utf8Size_pos
    obtain ⟨count, size⟩ : ∃ count, bytes (first :: rest) = count + 1 :=
      ⟨bytes (first :: rest) - 1, by simp only [bytes_cons]; omega⟩
    have left_over : count + 1 - first.utf8Size = bytes rest := by
      simp only [bytes_cons] at size; omega
    rw [size, List.cons_append, takeBytes?, if_pos (by simp only [bytes_cons] at size; omega),
      left_over, previous]
    rfl

/-- **Every part of a text is found by its place.** -/
theorem slice?_middle (before middle after : Text) :
    slice? (before ++ middle ++ after) (bytes before) (bytes before + bytes middle)
      = some middle := by
  rw [slice?, if_pos (Nat.le_add_right _ _), List.append_assoc, dropBytes?_bytes,
    Nat.add_sub_cancel_left]
  exact takeBytes?_bytes middle after

end Text

end RSource
