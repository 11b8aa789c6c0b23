/-
**Looking ahead shows what is looked at next.**

A session looks ahead in two ways: at the token behind the current one (`peekNext`) and at the first
one that is no line break (`nextBeyondLineBreaks`). Both count places from the cursor on and pass
line breaks by counting, where taking a token and passing line breaks move the cursor. `Foretells`
says that such a look changes nothing and shows the token that is the current one behind the move.
Main statement: `lookahead_agrees`, for every session over tokens of the lexer, wherever its cursor
is and whatever its mode. As long as the tokens are fewer than there are words, every place up to
the mark is a word, so what is read there is what the cursor shows (`exists_peek?_ahead`); and as
the mark is no line break, skipping line breaks ends (`skip_isLineBreak`).
-/

import RSource.Proofs.Frame
import RSource.Proofs.Walk

namespace RSource

open Grammar Reader Cursor

namespace Checked

/-- A look changes nothing, and the token it shows is the current one behind a move. -/
structure Foretells {α : Type} (looking : Steps Lexeme) (moving : Steps α) (session : Session)
    (shown : Lexeme) : Prop where
  looks : Gives looking session shown session
  moves : ∃ value behind final, Gives moving session value behind ∧ Gives current behind shown final

section Looking

variable {text : Text} {session : Session}

/-- Up to the mark the cursor shows a token, and that is the one read so many places on. -/
theorem exists_peek?_ahead {offset : Nat} (few : session.cursor.items.length < placeCount)
    (inside : offset ≤ session.cursor.rest.length) :
    ∃ shown, session.cursor.peek? offset = some shown
      ∧ Gives (ahead offset) session shown session := by
  rw [length_items] at few
  have word : session.cursor.position + offset < placeCount := by omega
  exact ⟨_, if_pos word, (gives_get session).bind (gives_pure _ _)⟩

/-- The token behind the current one is the current one when that is taken. -/
theorem foretells_peekNext (faithful : Faithful text session.cursor) :
    Foretells (peekNext 0 false) advance session
      (look session.mode (past session.mode session.cursor)) := by
  have taken : Gives advance (after session session.cursor []) _ _ := gives_advance faithful.marked
  rw [after_nil] at taken
  exact ⟨gives_peekNext faithful, _, _, _, taken, gives_current (faithful.past _).marked⟩

/-- The first token that is no line break is the current one when line breaks are passed. -/
theorem foretells_nextBeyondLineBreaks (faithful : Faithful text session.cursor) :
    Foretells (nextBeyondLineBreaks 0) skipLineBreaks session (beyond session.cursor).current := by
  have passed : Gives skipLineBreaks (after session session.cursor []) _ _ :=
    gives_skipLineBreaks faithful.marked
  rw [after_nil] at passed
  have seen : Gives current (after session (beyond session.cursor) []) _ _ :=
    gives_current faithful.beyond.marked
  rw [look, settle_beyond] at seen
  exact ⟨gives_nextBeyondLineBreaks faithful.marked, _, _, _, passed, seen⟩

end Looking

end Checked

open Checked

/-- Skipping line breaks, token by token, ends where a session has passed them. -/
theorem skip_isLineBreak {text : Text} {session : Session} (reached : Reached text session) :
    session.cursor.skip isLineBreak = some session.skipLineBreaks.cursor := by
  have marked := reached.readsFrom.faithful.marked
  exact skip_eq_some_iff.mpr
    ⟨rfl, test_current_skipWhile (isLineBreak_of_kind marked (by decide))⟩

/-- **Looking ahead agrees with reading on**, in every session over tokens of the lexer: step by
step, with every check made, and in the session itself. The places looked at are words, and passing
line breaks token by token ends. -/
theorem lookahead_agrees {text : Text} {session : Session} (reached : Reached text session) :
    Foretells (Checked.peekNext 0 false) Checked.advance session session.peekNext
      ∧ Foretells (Checked.nextBeyondLineBreaks 0) Checked.skipLineBreaks session
        session.nextBeyondLineBreaks
      ∧ session.peekNext = session.advance.2.current.1
      ∧ session.nextBeyondLineBreaks = session.skipLineBreaks.current.1
      ∧ session.cursor.skip isLineBreak = some session.skipLineBreaks.cursor
      ∧ (session.cursor.items.length < placeCount → ∀ offset ≤ session.cursor.rest.length,
        ∃ shown, session.cursor.peek? offset = some shown
          ∧ Gives (ahead offset) session shown session) := by
  have faithful := reached.readsFrom.faithful
  have next : session.peekNext = look session.mode (past session.mode session.cursor) :=
    congrArg Prod.fst (run_peekNext session.mode session.cursor)
  have first : session.nextBeyondLineBreaks = look session.mode (beyond session.cursor) := by
    rw [look, settle_beyond]
    rfl
  refine ⟨?_, ?_, next, first, skip_isLineBreak reached,
    fun few offset inside => exists_peek?_ahead few inside⟩
  · rw [next]
    exact foretells_peekNext faithful
  · exact foretells_nextBeyondLineBreaks faithful

/-- Between the brackets of a call line breaks are ignored. At two of them the sign is the current
token and the first one that is no line break; behind it stands the number. -/
theorem lookahead_agrees_at_lineBreak :
    let text : Text := "f(a\r\n\n= 1)".toList
    let start := Session.start text (lexemes text)
    let session := { start with cursor := start.cursor.drop 3, mode := ⟨true, 0⟩ }
    Reached text session
      ∧ session.cursor.current.kind = .lineBreak
      ∧ Foretells (Checked.peekNext 0 false) Checked.advance session ⟨.number, 8, ['1']⟩
      ∧ Foretells (Checked.nextBeyondLineBreaks 0) Checked.skipLineBreaks session
        ⟨.operator, 6, ['=']⟩ := by
  intro text start session
  have begun : Reached text start := @Reached.start _ 0 10 _ rfl
  have reached : Reached text session := (begun.moved (moves_drop 3 _)).beside rfl
  obtain ⟨next, first, _⟩ := lookahead_agrees reached
  have number : session.peekNext = ⟨.number, 8, ['1']⟩ := by decide
  have sign : session.nextBeyondLineBreaks = ⟨.operator, 6, ['=']⟩ := by decide
  rw [number] at next
  rw [sign] at first
  exact ⟨reached, by decide, next, first⟩

end RSource
