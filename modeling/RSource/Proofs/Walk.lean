/-
**Walks over tokens.**

A cursor over tokens is moved past one token (`Cursor.advance`) or past the tokens of a kind, round
by round as long as one of them stands at the cursor (`Cursor.skip`). A walk is a list of such
moves; as a round may repeat without end, a walk may have no result. Where it has one, the cursor
has only gone past tokens (`exists_moves_of_walk`).

* `peek?_of_walk_iff`: wherever a walk leads, the cursor goes forwards and stays within the tokens,
  advancing gives the token in front of which it stood, and looking ahead shows the token so many
  places on exactly as long as that place is a word of 64 bits. Beyond the last word it has no
  result.
* `skip_of_walk_iff`: a skip ends exactly when it is not for the mark's own kind or another token
  is left; it ends at the first place with another token, or behind the last one.
-/

import RSource.Proofs.Grammar.Consumption
import Mathlib.Data.List.GetD
import Mathlib.Order.Bounds.Basic

namespace RSource

namespace Cursor

section Places

variable {α : Type} {first last cursor : Cursor α} {taken : List α} {test : α → Bool}

/-! ### Places -/

/-- The items from the cursor on are those from its place on. -/
theorem getElem?_items_add (cursor : Cursor α) (offset : Nat) :
    cursor.items[cursor.position + offset]? = cursor.rest[offset]? := by
  rw [items, position, ← List.length_reverse, List.getElem?_append_right (Nat.le_add_right _ _),
    Nat.add_sub_cancel_left]

theorem items_drop_position (cursor : Cursor α) :
    cursor.items.drop cursor.position = cursor.rest := by
  rw [items, position, ← List.length_reverse, List.drop_left]

theorem length_items (cursor : Cursor α) :
    cursor.items.length = cursor.position + cursor.rest.length := by
  rw [items, List.length_append, List.length_reverse, position]

theorem current_eq_getD (cursor : Cursor α) :
    cursor.current = cursor.items.getD cursor.position cursor.mark := by
  have here := getElem?_items_add cursor 0
  rw [Nat.add_zero] at here
  rw [List.getD_eq_getElem?_getD, here, current, List.headD_eq_head?_getD, List.head?_eq_getElem?]

theorem current_of_mem_head? {item : α} (next : item ∈ cursor.rest.head?) :
    cursor.current = item := by
  rw [current, List.headD_eq_head?_getD, Option.mem_def.mp next, Option.getD_some]

theorem advance_snd (cursor : Cursor α) : cursor.advance.2 = cursor.drop 1 := by
  obtain ⟨passed, rest, mark⟩ := cursor
  cases rest <;> rfl

/-! ### Looking ahead -/

/-- As long as the place is a word, what stands there is shown. -/
theorem peek?_of_lt {offset : Nat} (fits : cursor.position + offset < placeCount) :
    cursor.peek? offset = some (cursor.items.getD (cursor.position + offset) cursor.mark) := by
  rw [peek?, if_pos fits, List.getD_eq_getElem?_getD, List.getD_eq_getElem?_getD,
    getElem?_items_add]

/-- Beyond the last word nothing is shown. -/
theorem peek?_eq_none_iff {offset : Nat} :
    cursor.peek? offset = none ↔ placeCount ≤ cursor.position + offset := by
  refine ⟨fun fault => ?_, fun beyond => if_neg (Nat.not_lt.mpr beyond)⟩
  by_contra inside
  rw [peek?_of_lt (Nat.not_le.mp inside)] at fault
  cases fault

/-! ### Skipping -/

/-- The first place from `start` on whose item fails the test, or the end where all items from
there on pass it. -/
def IsStop (test : α → Bool) (items : List α) (start stop : Nat) : Prop :=
  IsLeast {place | start ≤ place ∧ ∃ item, items[place]? = some item ∧ test item = false} stop
    ∨ stop = items.length ∧ ∀ item ∈ items.drop start, test item = true

/-- Moving over items that pass leads to a stop where an item fails or none is left. -/
theorem Moves.isStop (moved : Moves first last taken) (passes : ∀ item ∈ taken, test item = true)
    (stops : ∀ item ∈ last.rest.head?, test item = false) :
    IsStop test first.items first.position last.position := by
  cases left : last.rest with
  | nil =>
    refine .inr ⟨?_, ?_⟩
    · rw [← moved.items, Cursor.items, left, List.append_nil, List.length_reverse, Cursor.position]
    · rwa [items_drop_position, moved.rest, left, List.append_nil]
  | cons item behind =>
    rw [left] at stops
    have here := getElem?_items_add last 0
    rw [Nat.add_zero, left, moved.items] at here
    refine .inl ⟨⟨moved.position ▸ Nat.le_add_right _ _, item, here, stops item rfl⟩, ?_⟩
    rintro place ⟨later, other, found, fails⟩
    by_contra before
    -- A place before the last one belongs to an item that was moved over.
    obtain ⟨offset, rfl⟩ := Nat.exists_eq_add_of_le later
    have inside : offset < taken.length := by
      have := moved.position
      omega
    rw [getElem?_items_add, moved.rest, List.getElem?_append_left inside] at found
    exact absurd (passes other (List.mem_of_getElem? found)) (by simp [fails])

/-- What skipping ends with does not pass the test, and only items that do were passed. -/
theorem skip_ended (ended : cursor.skip test = some last) :
    test last.current = false
      ∧ ∃ taken, Moves cursor last taken ∧ ∀ item ∈ taken, test item = true := by
  refine skip.partial_correctness test
    (fun cursor last => test last.current = false
      ∧ ∃ taken, Moves cursor last taken ∧ ∀ item ∈ taken, test item = true)
    (fun skip previous cursor last ended => ?_) cursor last ended
  split at ended
  · rename_i passes
    obtain ⟨fails, taken, moved, all⟩ := previous _ _ ended
    refine ⟨fails, ?_⟩
    rw [advance_snd] at moved
    refine ⟨_, (moves_drop 1 cursor).trans moved, fun item member => ?_⟩
    rcases List.mem_append.mp member with here | further
    · rw [List.take_one, Option.mem_toList] at here
      rwa [← current_of_mem_head? here]
    · exact all item further
  · rename_i fails
    cases ended
    exact ⟨Bool.eq_false_iff.mpr fails, [], .refl _, nofun⟩

/-- Skipping ends where passing stops, if that is an item or a mark that fails the test. -/
theorem skip_eq_some_iff :
    cursor.skip test = some last
      ↔ cursor.skipWhile test = last ∧ test last.current = false := by
  constructor
  · intro ended
    obtain ⟨fails, taken, moved, passes⟩ := skip_ended ended
    refine ⟨(moved.skipWhile passes fun item next => ?_).2, fails⟩
    rwa [← current_of_mem_head? next]
  · rintro ⟨rfl, fails⟩
    -- The items that are left are passed one by one, so the induction is on them.
    obtain ⟨passed, rest, mark⟩ := cursor
    induction rest generalizing passed with
    | nil => exact skip_of_neg fails
    | cons item rest previous =>
      by_cases passes : test item = true
      · have behind : skipWhile test ⟨item :: passed, rest, mark⟩
            = skipWhile test ⟨passed, item :: rest, mark⟩ :=
          @skipWhile_advance _ _ ⟨passed, item :: rest, mark⟩ (List.cons_ne_nil _ _) passes
        rw [← behind] at fails ⊢
        exact (skip_of_pos passes).trans (previous _ fails)
      · have stops := Bool.eq_false_iff.mpr passes
        rw [skipWhile_of_current stops]
        exact skip_of_neg stops

/-- Skipping goes on for ever where the mark passes the test and no item that is left fails it. -/
theorem skip_eq_none_iff :
    cursor.skip test = none ↔ test cursor.mark = true ∧ ∀ item ∈ cursor.rest, test item = true := by
  rw [← test_current_skipWhile_iff, Option.eq_none_iff_forall_ne_some]
  constructor
  · intro endless
    by_contra fails
    exact endless _ (skip_eq_some_iff.mpr ⟨rfl, Bool.eq_false_iff.mpr fails⟩)
  · rintro passes last ended
    obtain ⟨rfl, fails⟩ := skip_eq_some_iff.mp ended
    exact absurd passes (by simp [fails])

end Places

end Cursor

/-! ### Walks -/

/-- What stands behind the last of some tokens, at the offset `stop`. -/
def Token.endMark (stop : Nat) : Token := ⟨.endOfStream, stop, 0⟩

/-- A way to move a cursor over tokens. -/
inductive Move where
  /-- Past one token. -/
  | advance
  /-- Past tokens of this kind, as long as one stands at the cursor. -/
  | skip (kind : TokenKind)
  deriving Repr, DecidableEq

namespace Cursor

/-- Makes a move. -/
def move (cursor : Cursor Token) : Move → Option (Cursor Token)
  | .advance => some cursor.advance.2
  | .skip kind => cursor.skip (·.kind == kind)

/-- Makes moves one after the other. -/
def walk (cursor : Cursor Token) (moves : List Move) : Option (Cursor Token) :=
  moves.foldlM move cursor

/-- A move only goes past tokens. -/
theorem exists_moves_of_move {first last : Cursor Token} {step : Move}
    (made : first.move step = some last) : ∃ taken, Moves first last taken := by
  cases step with
  | advance =>
    cases made
    exact ⟨_, advance_snd first ▸ moves_drop 1 first⟩
  | skip kind =>
    obtain ⟨_, taken, moved, _⟩ := skip_ended made
    exact ⟨taken, moved⟩

/-- **A walk only goes past tokens.** -/
theorem exists_moves_of_walk {first last : Cursor Token} {moves : List Move}
    (walked : first.walk moves = some last) : ∃ taken, Moves first last taken := by
  induction moves generalizing first with
  | nil =>
    cases walked
    exact ⟨[], .refl last⟩
  | cons step moves previous =>
    obtain ⟨middle, made, further⟩ := Option.bind_eq_some_iff.mp walked
    obtain ⟨taken, moved⟩ := exists_moves_of_move made
    obtain ⟨others, movedOn⟩ := previous further
    exact ⟨taken ++ others, moved.trans movedOn⟩

/-- A cursor stands within some tokens or behind the last of them. Advancing gives the token in
front of which it stands, or the mark, and goes past it. No walk leads back or away from the
tokens. -/
structure IsWithin (tokens : List Token) (stop : Nat) (cursor : Cursor Token) : Prop where
  items : cursor.items = tokens
  position_le : cursor.position ≤ tokens.length
  advance : cursor.advance.1 = tokens.getD cursor.position (.endMark stop)
  position_advance : cursor.advance.2.position = min (cursor.position + 1) tokens.length
  forwards : ∀ moves last, cursor.walk moves = some last →
    cursor.position ≤ last.position ∧ last.position ≤ tokens.length

section Walks

variable {tokens : List Token} {stop : Nat} {moves : List Move} {first : Cursor Token}

/-- Wherever a walk leads, the tokens and their mark are the same. -/
theorem items_mark_of_walk (walked : (ofList tokens (.endMark stop)).walk moves = some first) :
    first.items = tokens ∧ first.mark = .endMark stop := by
  obtain ⟨taken, moved⟩ := exists_moves_of_walk walked
  exact ⟨moved.items, moved.mark⟩

theorem isWithin_of_walk (walked : (ofList tokens (.endMark stop)).walk moves = some first) :
    IsWithin tokens stop first := by
  obtain ⟨rfl, marked⟩ := items_mark_of_walk walked
  have stays (cursor : Cursor Token) : cursor.position ≤ cursor.items.length :=
    cursor.length_items ▸ Nat.le_add_right _ _
  refine ⟨rfl, stays first, ?_, ?_, fun moves last led => ?_⟩
  · rw [advance_fst, current_eq_getD, marked]
  · rw [advance_snd, (moves_drop 1 first).position, length_items, List.length_take]
    omega
  · obtain ⟨taken, moved⟩ := exists_moves_of_walk led
    exact ⟨moved.position ▸ Nat.le_add_right _ _, moved.items ▸ stays last⟩

/-- **A walk goes forwards and stays within the tokens, and looking ahead is right exactly as long
as the place is a word.** Beyond the last word it has no result. -/
theorem peek?_of_walk_iff (walked : (ofList tokens (.endMark stop)).walk moves = some first) :
    IsWithin tokens stop first
      ∧ ∀ offset,
        (first.peek? offset = some (tokens.getD (first.position + offset) (.endMark stop))
          ↔ first.position + offset < placeCount)
        ∧ (first.peek? offset = none ↔ placeCount ≤ first.position + offset) := by
  have within := isWithin_of_walk walked
  obtain ⟨rfl, marked⟩ := items_mark_of_walk walked
  rw [← marked]
  refine ⟨within, fun offset => ⟨⟨fun shown => ?_, peek?_of_lt⟩, peek?_eq_none_iff⟩⟩
  by_contra beyond
  exact Option.some_ne_none _ (shown.symm.trans (peek?_eq_none_iff.mpr (Nat.not_lt.mp beyond)))

/-- Behind line breaks a number stands at the cursor. The greatest offset that leads to a word shows
the mark, the next one nothing. -/
theorem peek?_of_walk_behind_lineBreaks :
    let tokens : List Token :=
      [⟨.identifier, 0, 1⟩, ⟨.lineBreak, 1, 1⟩, ⟨.lineBreak, 2, 2⟩, ⟨.number, 4, 1⟩]
    let first : Cursor Token :=
      ⟨[⟨.lineBreak, 2, 2⟩, ⟨.lineBreak, 1, 1⟩, ⟨.identifier, 0, 1⟩], [⟨.number, 4, 1⟩], .endMark 5⟩
    (ofList tokens (.endMark 5)).walk [.advance, .skip .lineBreak] = some first
      ∧ IsWithin tokens 5 first
      ∧ first.peek? 0 = some ⟨.number, 4, 1⟩
      ∧ first.peek? (placeCount - 4) = some (.endMark 5)
      ∧ first.peek? (placeCount - 3) = none := by
  intro tokens first
  have walked : (ofList tokens (.endMark 5)).walk [.advance, .skip .lineBreak] = some first :=
    (congrArg (Option.bind · some) (skip_eq_some_iff.mpr ⟨rfl, rfl⟩)).trans rfl
  obtain ⟨within, ahead⟩ := peek?_of_walk_iff walked
  refine ⟨walked, within, (ahead 0).1.mpr (by decide), ?_, (ahead _).2.mpr (by decide)⟩
  rw [(ahead (placeCount - 4)).1.mpr (by decide)]
  exact congrArg some (List.getD_eq_default _ _ (by decide))

/-- Behind the only token the greatest offset shows nothing, where the mark stands so many places
on. -/
theorem no_peek?_beyond_words :
    let tokens : List Token := [⟨.identifier, 0, 1⟩]
    let first : Cursor Token := ⟨[⟨.identifier, 0, 1⟩], [], .endMark 1⟩
    (ofList tokens (.endMark 1)).walk [.advance] = some first
      ∧ placeCount - 1 < placeCount
      ∧ tokens.getD (first.position + (placeCount - 1)) (.endMark 1) = .endMark 1
      ∧ first.peek? (placeCount - 1) = none := by
  decide

/-! ### The end of a skip -/

/-- **A skip ends exactly when it is for another kind than the mark's or a token of another kind is
left.** It then ends at the first place with a token of another kind, or behind the last token. -/
theorem skip_of_walk_iff (walked : (ofList tokens (.endMark stop)).walk moves = some first)
    (kind : TokenKind) :
    ((∃ last, first.skip (·.kind == kind) = some last)
        ↔ (kind = .endOfStream → ∃ token ∈ tokens.drop first.position, token.kind ≠ kind))
      ∧ ∀ last, first.skip (·.kind == kind) = some last →
        last.items = tokens ∧ last.mark = .endMark stop
          ∧ IsStop (·.kind == kind) tokens first.position last.position := by
  obtain ⟨rfl, marked⟩ := items_mark_of_walk walked
  refine ⟨?_, fun last ended => ?_⟩
  · rw [← Option.ne_none_iff_exists', ne_eq, skip_eq_none_iff, marked, items_drop_position]
    simp only [beq_iff_eq, not_and, not_forall, exists_prop, ne_eq, Token.endMark]
    exact imp_congr_left eq_comm
  · obtain ⟨fails, taken, moved, passes⟩ := skip_ended ended
    refine ⟨moved.items, moved.mark.trans marked, moved.isStop passes fun token next => ?_⟩
    rwa [← current_of_mem_head? next]

/-- Tokens of the mark's kind may be skipped where another token is behind them. -/
theorem skip_of_walk_to_number :
    let tokens : List Token :=
      [⟨.identifier, 0, 1⟩, ⟨.endOfStream, 1, 0⟩, ⟨.endOfStream, 1, 0⟩, ⟨.number, 1, 1⟩]
    let first : Cursor Token :=
      ⟨[⟨.identifier, 0, 1⟩], [⟨.endOfStream, 1, 0⟩, ⟨.endOfStream, 1, 0⟩, ⟨.number, 1, 1⟩],
        .endMark 2⟩
    (ofList tokens (.endMark 2)).walk [.advance] = some first
      ∧ ∃ last, first.skip (·.kind == .endOfStream) = some last
        ∧ IsStop (·.kind == .endOfStream) tokens 1 last.position := by
  intro tokens first
  have walked : (ofList tokens (.endMark 2)).walk [.advance] = some first := rfl
  obtain ⟨ends, right⟩ := skip_of_walk_iff walked .endOfStream
  obtain ⟨last, ended⟩ := ends.mpr (by decide)
  exact ⟨walked, last, ended, (right last ended).2.2⟩

/-- With no token left a skip for the mark's kind goes on for ever. -/
theorem skip_without_end :
    (ofList [] (.endMark 0)).walk [] = some (ofList [] (.endMark 0))
      ∧ (ofList [] (Token.endMark 0)).skip (·.kind == .endOfStream) = none :=
  ⟨rfl, skip_eq_none_iff.mpr ⟨rfl, nofun⟩⟩

end Walks

end Cursor

end RSource
