/-
**Bytes as text.**

In UTF-8 the first byte of a character fixes how many more it has and in which range each of them
lies. A piece is a character, or as many bytes as could begin one without completing it. A text is
well encoded when all its pieces are characters; in a mended text every other piece is replaced by
one replacement character.
-/

import RSource.Text.Bytes

namespace RSource.Text

/-- A range of bytes, both ends included. -/
abbrev ByteRange := UInt8 × UInt8

/-- Any byte that continues a character. -/
def continuation : ByteRange := (0x80, 0xBF)

/-- The ranges of the bytes that follow a first byte; no character begins with the other bytes. -/
def followers? (first : UInt8) : Option (List ByteRange) :=
  if first < 0x80 then some []
  else if first < 0xC2 then none
  else if first < 0xE0 then some [continuation]
  else if first = 0xE0 then some [(0xA0, 0xBF), continuation]
  else if first = 0xED then some [(0x80, 0x9F), continuation]
  else if first < 0xF0 then some [continuation, continuation]
  else if first = 0xF0 then some [(0x90, 0xBF), continuation, continuation]
  else if first < 0xF4 then some [continuation, continuation, continuation]
  else if first = 0xF4 then some [(0x80, 0x8F), continuation, continuation]
  else none

/-- The bits of a first byte that belong to its character, when `count` bytes follow. -/
def leadingBits (first : UInt8) (count : Nat) : Nat :=
  match count with
  | 0 => first.toNat
  | 1 => first.toNat % 0x20
  | 2 => first.toNat % 0x10
  | _ => first.toNat % 0x08

/-- Goes on with a character of which `bits` are known: the character, if all its bytes are there,
and what follows the bytes that fit. -/
def continueChar (bits : Nat) : List ByteRange → List UInt8 → Option Char × List UInt8
  | [], rest => (some (Char.ofNat bits), rest)
  | _ :: _, [] => (none, [])
  | (low, high) :: ranges, byte :: rest =>
    if low ≤ byte && byte ≤ high then continueChar (bits * 0x40 + byte.toNat % 0x40) ranges rest
    else (none, byte :: rest)

theorem continueChar_length_le (bits : Nat) (ranges : List ByteRange) (bytes : List UInt8) :
    (continueChar bits ranges bytes).2.length ≤ bytes.length := by
  induction ranges generalizing bits bytes with
  | nil => simp [continueChar]
  | cons range ranges previous =>
    cases bytes with
    | nil => simp [continueChar]
    | cons byte rest =>
      unfold continueChar
      split
      · exact Nat.le_succ_of_le (previous _ rest)
      · exact Nat.le_refl _

/-- The piece that begins with a byte, and what follows it. -/
def firstPiece (first : UInt8) (rest : List UInt8) : Option Char × List UInt8 :=
  match followers? first with
  | some ranges => continueChar (leadingBits first ranges.length) ranges rest
  | none => (none, rest)

theorem firstPiece_length_le (first : UInt8) (rest : List UInt8) :
    (firstPiece first rest).2.length ≤ rest.length := by
  unfold firstPiece
  split
  · exact continueChar_length_le _ _ _
  · exact Nat.le_refl _

/-- The pieces of some bytes: characters, and `none` for each piece that is not one. -/
def piecesOfBytes : List UInt8 → List (Option Char)
  | [] => []
  | first :: rest => (firstPiece first rest).1 :: piecesOfBytes (firstPiece first rest).2
termination_by bytes => bytes.length
decreasing_by exact Nat.lt_succ_of_le (firstPiece_length_le first rest)

/-- The text of some bytes, if they are well encoded. -/
def ofBytes? (bytes : List UInt8) : Option Text := (piecesOfBytes bytes).mapM id

/-- The text of some bytes, mended where they are not well encoded. -/
def mended (bytes : List UInt8) : Text := (piecesOfBytes bytes).map (·.getD '\uFFFD')

/-- The bytes of a text. -/
def toBytes (text : Text) : List UInt8 := (String.ofList text).toUTF8.toList

end RSource.Text
