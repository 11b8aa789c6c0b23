/-
**Positions are in the order of offsets.**

The line of an offset is the number of line feeds among the bytes in front of it
(`LineTable.lineOf_eq_count`), and the column is what is left from the start of that line. Lines and
columns together tell offsets apart and keep their order, also behind the end of a text
(`LineTable.positionOf_strictMono`). Main statements: `LineTable.positions_in_order`, and
`LineTable.lineBreak_begins_line_iff`, behind a line break a new line begins unless it is a carriage
return alone.
-/

import RSource.Proofs.Checked.Views
import RSource.Proofs.Token.Restart
import RSource.Proofs.Token.Signs
import RSource.Text.Utf8
import Mathlib.Data.Prod.Lex
import Mathlib.Order.Monotone.Basic

namespace RSource

/-! ### Bytes -/

namespace Text

/-- Bytes are listed behind those that were listed before. -/
theorem toList_loop (bytes : ByteArray) (place : Nat) (listed : List UInt8) :
    ByteArray.toList.loop bytes place listed
      = listed.reverse ++ bytes.data.toList.drop place := by
  induction place, listed using ByteArray.toList.loop.induct bytes with
  | case1 place listed inside previous =>
    have further : place < bytes.data.toList.length := inside
    have here : bytes.get! place = bytes.data.toList[place] := by
      show bytes.data[place]! = _
      rw [getElem!_pos bytes.data place inside, Array.getElem_toList]
    rw [ByteArray.toList.loop, if_pos inside, previous, here, List.reverse_cons,
      List.append_assoc, List.singleton_append, List.getElem_cons_drop]
  | case2 place listed ended =>
    have beyond : bytes.data.toList.length ≤ place := Nat.not_lt.mp ended
    rw [ByteArray.toList.loop, if_neg ended, List.drop_of_length_le beyond, List.append_nil]

/-- The bytes of a text are those of its characters. -/
theorem toBytes_eq_flatMap (text : Text) : toBytes text = text.flatMap String.utf8EncodeChar := by
  unfold toBytes
  rw [String.toUTF8_eq_toByteArray, String.toByteArray_ofList, List.utf8Encode, ByteArray.toList,
    toList_loop, List.data_toByteArray]
  simp

theorem toBytes_append (left right : Text) :
    toBytes (left ++ right) = toBytes left ++ toBytes right := by
  simp only [toBytes_eq_flatMap, List.flatMap_append]

theorem length_toBytes (text : Text) : (toBytes text).length = text.bytes := by
  rw [toBytes_eq_flatMap]
  induction text with
  | nil => rfl
  | cons c rest previous =>
    rw [List.flatMap_cons, List.length_append, String.length_utf8EncodeChar, previous, bytes_cons]

/-- The byte of a line feed. -/
def lineFeed : UInt8 := 10

/-- Other characters have no byte in common with a line feed. -/
theorem lineFeed_not_mem_encode {c : Char} (other : c ≠ '\n') :
    lineFeed ∉ String.utf8EncodeChar c := by
  have number : c.val.toNat ≠ 10 := fun same => other (Char.ext (UInt32.toNat_inj.mp same))
  have byte {value : Nat} (same : lineFeed = UInt8.ofNat value) : value % 256 = 10 := by
    have sizes := congrArg UInt8.toNat same
    rw [UInt8.toNat_ofNat'] at sizes
    exact sizes.symm
  -- in all but the first case the character has several bytes, each with its highest bit set
  fun_cases String.utf8EncodeChar with
  | case1 =>
    intro member
    have := byte (List.mem_singleton.mp member)
    omega
  | case2 =>
    simp only [List.mem_cons, List.not_mem_nil, or_false]
    rintro (same | same) <;>
    · have := byte same
      omega
  | case3 =>
    simp only [List.mem_cons, List.not_mem_nil, or_false]
    rintro (same | same | same) <;>
    · have := byte same
      omega
  | case4 =>
    simp only [List.mem_cons, List.not_mem_nil, or_false]
    rintro (same | same | same | same) <;>
    · have := byte same
      omega

/-- The number of line feeds among the first `count` bytes of a text. -/
def lineFeedsBefore (text : Text) (count : Nat) : Nat := ((toBytes text).take count).count lineFeed

/-- Between characters it is the number of line feeds among those in front. -/
theorem lineFeedsBefore_bytes (before behind : Text) :
    lineFeedsBefore (before ++ behind) before.bytes = before.count '\n' := by
  unfold lineFeedsBefore
  rw [toBytes_append, ← length_toBytes before, List.take_left, toBytes_eq_flatMap]
  induction before with
  | nil => rfl
  | cons c rest previous =>
    rw [List.flatMap_cons, List.count_append, previous, List.count_cons]
    by_cases feed : c = '\n'
    · subst feed
      exact Nat.add_comm _ _
    · rw [List.count_eq_zero.mpr (lineFeed_not_mem_encode feed), if_neg (by simpa using feed),
        Nat.zero_add, Nat.add_zero]

end Text

/-! ### The line of an offset -/

namespace LineTable

/-- The lines that start at or before an offset are as many as the line feeds in front of it. -/
theorem length_takeWhile_startsFrom (text : Text) (base count : Nat) :
    ((startsFrom base text).takeWhile (· ≤ base + count)).length = text.lineFeedsBefore count := by
  unfold Text.lineFeedsBefore
  rw [Text.toBytes_eq_flatMap]
  induction text generalizing base count with
  | nil => simp [startsFrom]
  | cons c rest previous =>
    have behind := (startsFrom_ordered rest (base + c.utf8Size)).2
    rw [startsFrom, List.flatMap_cons, List.take_append, List.count_append,
      String.length_utf8EncodeChar]
    by_cases feed : c = '\n'
    · subst feed
      have width : ('\n' : Char).utf8Size = 1 := rfl
      have own : String.utf8EncodeChar '\n' = [Text.lineFeed] := rfl
      rw [if_pos (beq_self_eq_true _), width, own]
      cases count with
      | zero => simp
      | succ count =>
        have same : base + (count + 1) = base + 1 + count := by omega
        rw [same, List.takeWhile_cons_of_pos (by simp), List.length_cons, previous (base + 1) count,
          List.take_succ_cons, List.take_nil, List.count_singleton_self, Nat.add_sub_cancel,
          Nat.add_comm]
    · have own : ((String.utf8EncodeChar c).take count).count Text.lineFeed = 0 :=
        List.count_eq_zero.mpr fun member =>
          Text.lineFeed_not_mem_encode feed (List.mem_of_mem_take member)
      rw [own, Nat.zero_add, if_neg (by simpa using feed), ← previous (base + c.utf8Size)]
      by_cases inside : c.utf8Size ≤ count
      · rw [Nat.add_assoc, Nat.add_sub_cancel' inside]
      -- no line starts within the bytes of the character
      · have none (bound : Nat) (early : bound ≤ base + c.utf8Size) :
            (startsFrom (base + c.utf8Size) rest).takeWhile (· ≤ bound) = [] := by
          cases starts : startsFrom (base + c.utf8Size) rest with
          | nil => rfl
          | cons start others =>
            rw [starts] at behind
            have late := behind start List.mem_cons_self
            exact List.takeWhile_cons_of_neg (by simpa using by omega)
        rw [none _ (by omega), none _ (by omega)]

/-- **The line of an offset is the number of line feeds in front of it.** -/
theorem lineOf_eq_count (text : Text) (offset : Nat) :
    (ofText text).lineOf offset = text.lineFeedsBefore offset := by
  have ordered : (0 :: startsFrom 0 text).Pairwise (· < ·) := starts_ordered text
  have test : ∀ start ∈ 0 :: startsFrom 0 text, decide (start ≤ offset) = true ↔ start ≤ offset :=
    fun _ _ => decide_eq_true_iff
  have passed := narrows_takeWhile ordered test
  rw [List.takeWhile_cons_of_pos (by simp), List.length_cons] at passed
  have counted := length_takeWhile_startsFrom text 0 offset
  rw [Nat.zero_add] at counted
  rw [← counted]
  exact Nat.succ.inj ((narrows_lineOf text offset).unique passed)

/-- Further on in a text the lines do not go back. -/
theorem lineOf_mono (text : Text) : Monotone (ofText text).lineOf := by
  intro first second before
  rw [lineOf_eq_count, lineOf_eq_count]
  exact (List.take_prefix_take_left before).sublist.count_le _

/-- The line of an offset starts there or before, and the column is what is left. -/
theorem exists_start (text : Text) (offset : Nat) :
    ∃ start ≤ offset, (ofText text).lineStart? ((ofText text).lineOf offset) = some start
      ∧ (ofText text).positionOf offset = ⟨(ofText text).lineOf offset, offset - start⟩ := by
  obtain ⟨start, early, found⟩ := (narrows_lineOf text offset).front _ (Nat.lt_succ_self _)
  refine ⟨start, early, found, ?_⟩
  rw [positionOf, lineStart?, found, Option.getD_some]

/-- The next line starts behind the offset. -/
theorem lt_of_next (text : Text) {offset next : Nat}
    (found : (ofText text).lineStart? ((ofText text).lineOf offset + 1) = some next) :
    offset < next :=
  (narrows_lineOf text offset).behind _ (Nat.le_refl _) next found

end LineTable

/-! ### The order of positions -/

namespace Position

/-- A position as a pair in lexicographic order. -/
def key (position : Position) : ℕ ×ₗ ℕ := toLex (position.line, position.column)

theorem key_injective : Function.Injective key := by
  rintro ⟨line, column⟩ ⟨other, place⟩ same
  obtain ⟨rfl, rfl⟩ := Prod.mk.inj (toLex_inj.mp same)
  rfl

/-- Positions are ordered by their lines, and on one line by their columns. -/
instance : LinearOrder Position := LinearOrder.lift' key key_injective

theorem lt_iff {first second : Position} : first < second
    ↔ first.line < second.line ∨ first.line = second.line ∧ first.column < second.column :=
  Prod.Lex.toLex_lt_toLex

theorem le_iff {first second : Position} : first ≤ second
    ↔ first.line < second.line ∨ first.line = second.line ∧ first.column ≤ second.column :=
  Prod.Lex.toLex_le_toLex

/-- The test compares positions in their order. -/
theorem le_eq_true_iff {first second : Position} : first.le second = true ↔ first ≤ second := by
  rw [le_iff]
  simp [le]

end Position

namespace LineTable

/-- **From offsets to positions the order is kept.** -/
theorem positionOf_strictMono (text : Text) : StrictMono (ofText text).positionOf := by
  intro first second before
  obtain ⟨start, early, found, position⟩ := exists_start text first
  obtain ⟨other, _, there, further⟩ := exists_start text second
  rw [position, further, Position.lt_iff]
  obtain same | less := Nat.eq_or_lt_of_le (lineOf_mono text (Nat.le_of_lt before))
  · rw [← same, found] at there
    obtain rfl := Option.some.inj there
    refine .inr ⟨same, ?_⟩
    show first - start < second - start
    omega
  · exact .inl less

/-- A position lies between the ends of a span exactly when the offset does. -/
theorem contains_locate_iff (text : Text) (span : Span) (offset : Nat) :
    ((ofText text).locate span).contains ((ofText text).positionOf offset) = true
      ↔ span.start ≤ offset ∧ offset ≤ span.stop := by
  have ordered {first second : Nat} : (ofText text).positionOf first
      ≤ (ofText text).positionOf second ↔ first ≤ second :=
    (positionOf_strictMono text).le_iff_le
  rw [Location.contains, Bool.and_eq_true, Position.le_eq_true_iff, Position.le_eq_true_iff]
  exact and_congr ordered ordered

/-- **Offsets and positions are in the same order.** Every offset has a position: the line on which
it lies, which is the number of line feeds in front of it, and the bytes from the start of that
line. The location of a span holds the positions of the offsets that the span holds. -/
theorem positions_in_order (text : Text) :
    (∀ offset,
      Checked.positionAt (ofText text) offset = pure ((ofText text).positionOf offset)
        ∧ (∃ start, (ofText text).lineStart? ((ofText text).positionOf offset).line = some start
          ∧ start + ((ofText text).positionOf offset).column = offset ∧ start ≤ offset)
        ∧ (∀ next, (ofText text).lineStart? (((ofText text).positionOf offset).line + 1)
            = some next → offset < next)
        ∧ ((ofText text).positionOf offset).line = text.lineFeedsBefore offset)
      ∧ (∀ first second, first < second
        ↔ (ofText text).positionOf first < (ofText text).positionOf second)
      ∧ ∀ span offset,
        ((ofText text).locate span).contains ((ofText text).positionOf offset) = true
          ↔ span.start ≤ offset ∧ offset ≤ span.stop := by
  refine ⟨fun offset => ?_, fun _ _ => (positionOf_strictMono text).lt_iff_lt.symm,
    contains_locate_iff text⟩
  obtain ⟨start, early, found, position⟩ := exists_start text offset
  refine ⟨Checked.positionAt_eq text offset, ?_⟩
  rw [position]
  exact ⟨⟨start, found, Nat.add_sub_cancel' early, early⟩, fun _ => lt_of_next text,
    lineOf_eq_count text offset⟩

/-! ### Line breaks -/

/-- Where a character begins or ends, the line is the number of line feeds in front. -/
theorem lineOf_bytes (before behind : Text) :
    (ofText (before ++ behind)).lineOf before.bytes = before.count '\n' := by
  rw [lineOf_eq_count, Text.lineFeedsBefore_bytes]

/-- Behind a line feed a line begins. -/
theorem positionOf_behind_lineFeed (before behind : Text) :
    (ofText (before ++ '\n' :: behind)).positionOf (before.bytes + 1)
      = ⟨before.count '\n' + 1, 0⟩ := by
  have here := lineOf_bytes before ('\n' :: behind)
  have next : (ofText (before ++ '\n' :: behind)).lineOf (before.bytes + 1)
      = before.count '\n' + 1 := by
    have line := lineOf_bytes (before ++ ['\n']) behind
    rw [List.append_assoc, List.singleton_append, Text.bytes_append, List.count_append] at line
    exact line
  obtain ⟨start, early, found, position⟩ :=
    exists_start (before ++ '\n' :: behind) (before.bytes + 1)
  have late : before.bytes < start := by
    apply lt_of_next
    rw [here, ← next]
    exact found
  rw [position, next]
  congr
  omega

/-- Behind any other character of one byte the line goes on. -/
theorem positionOf_behind_other {c : Char} (before behind : Text) (other : c ≠ '\n')
    (width : c.utf8Size = 1) :
    (ofText (before ++ c :: behind)).positionOf (before.bytes + 1)
      = ⟨before.count '\n', ((ofText (before ++ c :: behind)).positionOf before.bytes).column + 1⟩
      := by
  have here := lineOf_bytes before (c :: behind)
  have next : (ofText (before ++ c :: behind)).lineOf (before.bytes + 1) = before.count '\n' := by
    have line := lineOf_bytes (before ++ [c]) behind
    rw [List.append_assoc, List.singleton_append, Text.bytes_append, Text.bytes_cons, width,
      Text.bytes_nil, List.count_append, List.count_singleton,
      if_neg (by simpa using other)] at line
    exact line
  obtain ⟨start, early, found, position⟩ := exists_start (before ++ c :: behind) before.bytes
  obtain ⟨same, _, there, further⟩ := exists_start (before ++ c :: behind) (before.bytes + 1)
  rw [here] at found
  rw [next, found] at there
  obtain rfl := Option.some.inj there
  rw [further, position, next]
  congr 1
  show before.bytes + 1 - start = before.bytes - start + 1
  omega

/-- **Behind a line break a new line begins exactly when the break is no carriage return alone.**
Behind that the line goes on. -/
theorem lineBreak_begins_line_iff {text : Text} {lexeme : Lexeme} (member : lexeme ∈ lexemes text)
    (breaks : lexeme.kind = .lineBreak) :
    (((ofText text).positionOf lexeme.stop).column = 0
        ∧ ((ofText text).positionOf lexeme.stop).line
          = ((ofText text).positionOf lexeme.start).line + 1 ↔ lexeme.text ≠ ['\r'])
      ∧ (lexeme.text = ['\r'] → (ofText text).positionOf lexeme.stop
        = ⟨((ofText text).positionOf lexeme.start).line,
          ((ofText text).positionOf lexeme.start).column + 1⟩) := by
  obtain ⟨before, behind, rfl, start⟩ := exists_of_mem_lexemes member
  have ruled := kindOf?_of_isRuled member (by rw [breaks]; rfl)
  rw [breaks] at ruled
  have line : ((ofText (before ++ lexeme.text ++ behind)).positionOf before.bytes).line
      = before.count '\n' := by
    obtain ⟨_, _, _, position⟩ := exists_start (before ++ lexeme.text ++ behind) before.bytes
    rw [position, List.append_assoc, lineOf_bytes]
  rw [Lexeme.stop, start, line]
  rcases Lexer.word_of_lineBreak ruled with word | word | word
  · have position := positionOf_behind_lineFeed (before ++ ['\r']) behind
    rw [List.append_assoc, Text.bytes_append, List.count_append] at position
    have stop : (ofText (before ++ lexeme.text ++ behind)).positionOf
        (before.bytes + lexeme.text.bytes) = ⟨before.count '\n' + 1, 0⟩ := by
      rw [word, List.append_assoc]
      exact position
    rw [stop]
    simp [word]
  · have stop : (ofText (before ++ lexeme.text ++ behind)).positionOf
        (before.bytes + lexeme.text.bytes) = ⟨before.count '\n' + 1, 0⟩ := by
      rw [word, List.append_assoc]
      exact positionOf_behind_lineFeed before behind
    rw [stop]
    simp [word]
  · have stop : (ofText (before ++ lexeme.text ++ behind)).positionOf
          (before.bytes + lexeme.text.bytes)
        = ⟨before.count '\n', ((ofText (before ++ lexeme.text ++ behind)).positionOf
          before.bytes).column + 1⟩ := by
      rw [word, List.append_assoc]
      exact positionOf_behind_other before behind (by decide) rfl
    rw [stop]
    simp [word]

/-- The two characters at the end of a line are one line break, and a line begins behind it. -/
theorem lineBreak_begins_line_behind_pair :
    ⟨.lineBreak, 1, ['\r', '\n']⟩ ∈ lexemes "a\r\nb".toList
      ∧ ((((ofText "a\r\nb".toList).positionOf 3).column = 0
          ∧ ((ofText "a\r\nb".toList).positionOf 3).line
            = ((ofText "a\r\nb".toList).positionOf 1).line + 1 ↔ ['\r', '\n'] ≠ ['\r'])
        ∧ (['\r', '\n'] = ['\r'] → (ofText "a\r\nb".toList).positionOf 3
          = ⟨((ofText "a\r\nb".toList).positionOf 1).line,
            ((ofText "a\r\nb".toList).positionOf 1).column + 1⟩)) :=
  have member : ⟨.lineBreak, 1, ['\r', '\n']⟩ ∈ lexemes "a\r\nb".toList := by decide
  ⟨member, lineBreak_begins_line_iff member rfl⟩

/-- **A carriage return alone is a line break behind which no line begins**: the one in `a\rb`. -/
theorem lineBreak_without_line :
    ¬∀ (text : Text) (lexeme : Lexeme), lexeme ∈ lexemes text → lexeme.kind = .lineBreak →
      ((ofText text).positionOf lexeme.stop).column = 0
        ∧ ((ofText text).positionOf lexeme.stop).line
          = ((ofText text).positionOf lexeme.start).line + 1 := by
  intro begins
  have begun := begins "a\rb".toList ⟨.lineBreak, 1, ['\r']⟩ (by decide) rfl
  exact absurd begun (by decide)

end LineTable

end RSource
