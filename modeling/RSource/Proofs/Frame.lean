/-
**What a call leaves as it was.**

A routine of the grammar sets and resets how line breaks count, how many braces and how many
expressions are around the cursor, again and again on its way. `Frames before after` says that
nothing of this is left at its end: only the cursor has moved on, and problems and nodes have been
added behind those that were there. Main statement: `frames_perform`, for every call that returns,
in every session whose tokens are pieces of its text (`ReadsFrom`), and so in every session that
starts on tokens of the lexer and goes on in whatever way (`Reached`).
-/

import RSource.Proofs.Checked.Calls

namespace RSource

open Grammar Reader Checked

/-- From `before` to `after` a session went on reading, and all else is as it was. -/
structure Frames (before after : Session) : Prop where
  text : after.document.text = before.document.text
  items : after.cursor.items = before.cursor.items
  mark : after.cursor.mark = before.cursor.mark
  position : before.cursor.position ≤ after.cursor.position
  lineBreaks : after.mode.lineBreaksIgnored = before.mode.lineBreaksIgnored
  braces : after.mode.braceDepth = before.mode.braceDepth
  nesting : after.nesting = before.nesting
  comments : after.comments = before.comments
  handedOver : after.document.comments = before.document.comments
  problems : before.problems <+: after.problems
  nodes : Arena.Extends before.document.nodes after.document.nodes

/-- Storing parts behind the tokens that were passed changes nothing else. -/
theorem frames_after {session : Session} {last : Cursor Lexeme} {taken : List Lexeme}
    (moved : session.cursor.Moves last taken) (parts : List Part) :
    Frames session (after session last parts) where
  text := rfl
  items := moved.items
  mark := moved.mark
  position := by
    show session.cursor.position ≤ last.position
    rw [moved.position]
    exact Nat.le_add_right _ _
  lineBreaks := rfl
  braces := rfl
  nesting := rfl
  comments := rfl
  handedOver := rfl
  problems := List.prefix_append _ _
  nodes := Arena.extends_storeParts parts _

/-! ### Sessions that read from a text -/

section Sessions

variable {text : Text} {session : Session}

/-- Only the tokens count, wherever the cursor is among them. -/
theorem Checked.ReadsFrom.congr (reads : ReadsFrom text session) {other : Session}
    (items : other.cursor.items = session.cursor.items)
    (mark : other.cursor.mark = session.cursor.mark) : ReadsFrom text other :=
  ⟨reads.faithful.congr items mark, mark.trans reads.mark⟩

theorem Checked.ReadsFrom.removeComments (reads : ReadsFrom text session) :
    ReadsFrom text session.removeComments where
  faithful := {
    slices := fun lexeme member => reads.faithful.slices lexeme (List.mem_of_mem_filter member)
    proper := fun lexeme member => reads.faithful.proper lexeme (List.mem_of_mem_filter member)
    marked := reads.faithful.marked }
  mark := reads.mark

/-- A session may start on the tokens of any window of its text. -/
theorem readsFrom_start {start length : Nat} {lexemes : List Lexeme}
    (found : windowLexemes text start length = .ok lexemes) :
    ReadsFrom text (Session.start text lexemes) := by
  unfold windowLexemes at found
  split at found
  · cases found
  split at found
  · rename_i window inside
    cases found
    obtain ⟨before, behind, rfl, begins, _⟩ := Text.exists_of_slice? inside
    refine ⟨⟨fun lexeme member => ?_, fun lexeme member => ?_, rfl⟩, rfl⟩
    · obtain ⟨front, back, rfl, place⟩ :=
        exists_of_mem_lexemesFrom (List.mem_of_mem_filter member)
      have piece := Text.slice?_middle (before ++ front) lexeme.text (back ++ behind)
      rw [Text.bytes_append, ← begins, ← place] at piece
      simpa [Lexeme.stop] using piece
    · exact kind_of_mem_lexemesFrom (List.mem_of_mem_filter member)
  · cases found

end Sessions

/-! ### Calls -/

/-- A call that returns has stored parts, and so has the step of the session. -/
theorem frames_of_gives {text : Text} {session final : Session} (reads : ReadsFrom text session)
    {call : Call} {value : Option NodeId}
    (returned : Gives (Checked.perform ⟨text⟩ call) session value final) :
    session.perform call = (.ok value, final) ∧ Frames session final := by
  rcases answers_or_refuses reads call with ⟨other, last, parts, answers⟩ | ⟨violation, refused⟩
  · have both := answers.gives.symm.trans returned
    cases both
    obtain ⟨taken, moved, _⟩ := answers.accounts reads.faithful.marked
    exact ⟨answers.same, frames_after moved parts⟩
  · exact absurd returned refused.not_gives

/-- The sessions that are come to from the tokens of a text. -/
inductive Reached (text : Text) : Session → Prop where
  /-- The tokens of a window, or of the whole text. -/
  | start {start length : Nat} {lexemes : List Lexeme} :
      windowLexemes text start length = .ok lexemes → Reached text (.start text lexemes)
  | removeComments {session : Session} :
      Reached text session → Reached text session.removeComments
  /-- Any tokens may be passed. -/
  | moved {session : Session} {last : Cursor Lexeme} {taken : List Lexeme} :
      Reached text session → session.cursor.Moves last taken →
      Reached text { session with cursor := last }
  /-- All but the cursor may be set to anything. -/
  | beside {session other : Session} :
      Reached text session → other.cursor = session.cursor → Reached text other
  | called {session final : Session} {call : Call} {value : Option NodeId} :
      Reached text session → Gives (Checked.perform ⟨text⟩ call) session value final →
      Reached text final

/-- Whatever is done with a session, it reads from its text. -/
theorem Reached.readsFrom {text : Text} {session : Session} (reached : Reached text session) :
    ReadsFrom text session := by
  induction reached with
  | start found => exact readsFrom_start found
  | removeComments _ previous => exact previous.removeComments
  | moved _ moved previous => exact previous.congr moved.items moved.mark
  | beside _ same previous =>
    exact previous.congr (congrArg Cursor.items same) (congrArg Cursor.mark same)
  | called _ returned previous =>
    have frames := (frames_of_gives previous returned).2
    exact previous.congr frames.items frames.mark

/-- **A call that returns leaves the frame as it was**, and it does return where it is not misused:
in every session that reads from a text, whatever its mode, its nesting and what it has read. -/
theorem frames_perform (text : Text) :
    (∀ session, Reached text session → ReadsFrom text session)
    ∧ ∀ session, ReadsFrom text session → ∀ call,
      (∀ value final, Checked.perform ⟨text⟩ call session = pure (value, final) →
        session.perform call = (.ok value, final) ∧ Frames session final)
      ∧ ((∃ result, Checked.perform ⟨text⟩ call session = pure result)
        ∨ ∃ violation, Checked.perform ⟨text⟩ call session = throw (.misuse violation)) := by
  refine ⟨fun session reached => reached.readsFrom, fun session reads call => ⟨?_, ?_⟩⟩
  · exact fun value final returned => frames_of_gives reads returned
  · rcases answers_or_refuses reads call with ⟨value, last, parts, answers⟩ | refused
    · exact .inl ⟨_, answers.gives⟩
    · exact .inr refused

/-- One level above the last, inside braces, brackets and an expression that goes on. -/
theorem frames_perform_cut :
    let session := { Session.start "a + (b".toList (lexemes "a + (b".toList) with
      mode := ⟨true, 2⟩, nesting := 127 }
    Reached "a + (b".toList session
    ∧ ∃ value final, Checked.perform ⟨"a + (b".toList⟩ .expression session = pure (value, final)
      ∧ Frames session final ∧ final.cursor.position = 4
      ∧ final.problems = [⟨.nestingTooDeep, ⟨.openBrace, 4, 1⟩⟩] := by
  intro session
  have begun : Reached "a + (b".toList (.start _ (lexemes "a + (b".toList)) :=
    @Reached.start _ 0 6 _ rfl
  have reached : Reached "a + (b".toList session := begun.beside rfl
  obtain ⟨readsFrom, perform⟩ := frames_perform "a + (b".toList
  have reads := readsFrom session reached
  obtain ⟨value, last, parts, answers⟩ := answers_expression reads
  obtain ⟨same, frames⟩ := (perform session reads .expression).1 _ _ answers.gives
  refine ⟨reached, _, _, answers.gives, frames, ?_⟩
  have shown : after session last parts = (session.perform .expression).2 := by rw [same]
  rw [shown]
  decide

end RSource
