/-
**Nothing is read, or a token is taken.**

Where no expression and no statement begins, a call leaves its session as it was: no node and no
problem has been added, and only line breaks that the mode ignores have been passed (`Stalls`).
Where it gives a node, the cursor has gone past a token that is no line break (`Passes`). The loops
of the grammar live on that: each of their rounds is the last one or goes past such a token
(`Advances`), whatever the mode, the level and the place in the text. Main statement:
`progress_of_calls_and_rounds`.
-/

import RSource.Proofs.Frame
import RSource.Proofs.Grammar.Extent

namespace RSource

namespace Grammar

open Reader Cursor

/-! ### Going past a token -/

/-- From `first` to `last` the cursor has gone past a token that is no line break. -/
def Passes (first last : Cursor Lexeme) : Prop :=
  ∃ taken, Moves first last taken ∧ ∃ lexeme ∈ taken, isLineBreak lexeme = false

section Passing

variable {first second third : Cursor Lexeme} {mode : Mode} {parts : List Part}

theorem Passes.marked (passes : Passes first second) (marked : first.mark.kind = .endOfStream) :
    second.mark.kind = .endOfStream := by
  obtain ⟨taken, moved, _⟩ := passes
  rw [moved.mark]
  exact marked

/-- What is read behind the token does not matter. -/
theorem Passes.append (passes : Passes first second) (marked : first.mark.kind = .endOfStream)
    (behind : Accounts second parts third) : Passes first third := by
  obtain ⟨further, movedOn, _⟩ := behind (passes.marked marked)
  obtain ⟨taken, moved, lexeme, member, solid⟩ := passes
  exact ⟨taken ++ further, moved.trans movedOn, lexeme, List.mem_append_left _ member, solid⟩

/-- Nor does what is read in front of it. -/
theorem Passes.prepend (before : Accounts first parts second)
    (marked : first.mark.kind = .endOfStream) (passes : Passes second third) :
    Passes first third := by
  obtain ⟨earlier, movedOn, _⟩ := before marked
  obtain ⟨taken, moved, lexeme, member, solid⟩ := passes
  exact ⟨earlier ++ taken, movedOn.trans moved, lexeme, List.mem_append_right _ member, solid⟩

/-- A token that is kept has been gone past. -/
theorem Accounts.passes (account : Accounts first parts second)
    (marked : first.mark.kind = .endOfStream) {lexeme : Lexeme}
    (kept : lexeme ∈ Tree.partsTokens parts) (solid : isLineBreak lexeme = false) :
    Passes first second := by
  obtain ⟨taken, moved, keeps⟩ := account marked
  exact ⟨taken, moved, lexeme, keeps.sublist.subset kept, solid⟩

/-- Taking the current token goes past it, unless it is a line break or the mark. -/
theorem passes_past (marked : first.mark.kind = .endOfStream)
    (readable : (look mode first).isReadable = true) : Passes first (past mode first) :=
  (Accounts.leaf .operator readable).passes marked List.mem_cons_self
    (isLineBreak_of_isReadable readable)

/-- A tree that is read as one phrase has a leaf, so the cursor has gone past it. -/
theorem Derives.passes {phrase : Phrase} {role : Role} {tree : Tree}
    (run : Derives phrase mode first [.child role tree] second)
    (single : phrase.isExpression = true) (marked : first.mark.kind = .endOfStream) :
    Passes first second := by
  have nowhere : phrase.places [.child role tree] = [] := by
    cases phrase <;> first | rfl | cases single
  have drawn := run.drawn
  rw [nowhere] at drawn
  obtain ⟨leaf, member⟩ :=
    List.exists_mem_of_ne_nil _ (Tree.partsLeaves_ne_nil drawn List.mem_cons_self)
  have readable := Tree.isReadable_of_mem_partsLeaves _ run.faithful leaf member
  exact run.accounts.passes marked ((Tree.partsLeaves_sublist _).subset member)
    (isLineBreak_of_isReadable readable)

end Passing

/-! ### Rounds -/

/-- Wherever a round is read, it is the last one or goes past a token. -/
def Advances {α : Type} (round : Reader (α × Bool)) : Prop :=
  ∀ mode cursor, cursor.mark.kind = .endOfStream →
    (round.run mode cursor).1.2 = true ∨ Passes cursor (round.run mode cursor).2

section Rounds

variable {levels : Nat} {deeper : Expression} (obeys : Obeys levels deeper)

include obeys

/-- **Statements**: a stray brace, the first of the tokens that are passed over, or a statement. -/
theorem advances_statementRound (terminator : Option TokenKind) :
    Advances (statementRound (deeper 0) terminator) := by
  intro mode here marked
  have statement := derives_statement obeys .statements mode (settle mode (pastSeparators here))
    (by simpa using marked)
  have front : Accounts here [] (settle mode (pastSeparators here)) :=
    (Accounts.pastSeparators here).trans (.settle mode _)
  unfold statementRound
  simp only [run_bind, run_takeSeparators, run_current, run_ite]
  split
  · exact .inl rfl
  rename_i goesOn
  have readable := isReadable_of_endsBlock marked (Bool.eq_false_iff.mpr goesOn)
  have token : Passes here (past mode (pastSeparators here)) :=
    (passes_past (by simpa using marked) readable).prepend (.pastSeparators here) marked
  refine .inr ?_
  split
  · simpa only [run_bind, run_advance, run_pure, past_settle] using token
  cases found : ((Grammar.statement (deeper 0)).run mode (settle mode (pastSeparators here))).1 with
  | none =>
    rw [found] at statement
    rw [statement.stays rfl rfl]
    simp only [run_bind, run_advance, run_skipToBoundary, run_pure, settle_settle, past_settle]
    exact token.append marked (.boundary mode _ default)
  | some tree =>
    rw [found] at statement
    have passes := (statement.passes rfl (by simpa using marked)).prepend front marked
    simp only [run_bind, run_separation, run_pure]
    split
    · exact passes.append marked (.settle mode _)
    · exact passes.append marked ((Accounts.settle mode _).trans (.boundary mode _ default))

/-- **Arguments**: a round without a comma is the last one. -/
theorem advances_argumentRound (style : ArgumentStyle) (delimiter : Delimiter) :
    Advances (argumentRound (deeper 0) style delimiter) := by
  intro mode here marked
  have item := derives_item obeys style mode (settle mode here) (by simpa using marked)
  have front : Accounts here _ _ := (Accounts.settle mode here).trans item.accounts
  unfold argumentRound
  simp only [run_bind, run_current, run_ite, run_leafOf]
  split
  · exact .inl rfl
  split
  · rename_i comma
    have readable := isReadable_of_kind (eq_of_beq comma) rfl
    have passes := (passes_past (item.mark (by simpa using marked)) readable).prepend front marked
    split
    · exact .inr passes
    · exact .inl rfl
  · split <;> exact .inl rfl

/-- Between brackets: the opening one, whatever stands behind it. -/
theorem passes_bracketed {mode : Mode} {here : Cursor Lexeme} {delimiter : Delimiter}
    (marked : here.mark.kind = .endOfStream) (opened : (look mode here).kind = delimiter.opener)
    (anchor : Nat) :
    Passes here ((closing delimiter).run mode.bracketed
      ((argumentList (deeper 0) .call delimiter anchor).run mode.bracketed
        (past mode here)).2).2 := by
  have list := derives_argumentList obeys .call delimiter anchor .arguments mode.bracketed
    (past mode here) (by simpa using marked)
  have close := derives_closing delimiter .closeBracket mode.bracketed
    ((argumentList (deeper 0) .call delimiter anchor).run mode.bracketed (past mode here)).2
  have readable : (look mode here).isReadable = true :=
    isReadable_of_kind opened (by cases delimiter <;> rfl)
  exact (passes_past marked readable).append marked (list.accounts.trans close.accounts)

/-- **Calls, indexes and accesses**: the bracket or the accessor. -/
theorem advances_postfixRound (tree : Tree) : Advances (postfixRound (deeper 0) tree) := by
  intro mode here marked
  unfold postfixRound
  simp only [run_bind, run_current]
  split
  · rename_i opened
    simp only [run_bind, run_pure, call, run_leaf, run_ignoringLineBreaks, past_settle]
    exact .inr (passes_bracketed obeys marked opened _)
  · rename_i opened
    simp only [run_bind, run_pure, index, run_leaf, run_ignoringLineBreaks, past_settle]
    exact .inr (passes_bracketed obeys marked opened _)
  · rename_i opened
    simp only [run_bind, run_pure, index, run_leaf, run_ignoringLineBreaks, past_settle]
    exact .inr (passes_bracketed obeys marked opened _)
  cases found : (infixOf? (look mode here)).filter Operator.isAccessor with
  | none => exact .inl rfl
  | some operator =>
    have right := derives_member mode (past mode here)
    have sign := passes_past marked (isReadable_of_accessorOf? found)
    simp only [run_bind, run_pure, access, run_leaf, past_settle]
    exact .inr (sign.append marked right.accounts)

/-- **Infix operators**: the operator. -/
theorem advances_infixRound (minimum : Nat) (left : Tree) :
    Advances (infixRound deeper minimum left) := by
  intro mode here marked
  unfold infixRound
  simp only [run_bind, run_current]
  cases found : (infixOf? (look mode here)).filter fun operator =>
      !operator.isAccessor && minimum ≤ operator.precedence with
  | none => exact .inl rfl
  | some operator =>
    have right := derives_operand obeys operator.rightMinimum .right mode (beyond (past mode here))
      (by simpa using marked)
    have sign := passes_past marked (isReadable_of_infixAt? found)
    simp only [run_bind, run_leaf, run_skipLineBreaks, run_pure, past_settle]
    exact .inr (sign.append marked ((Accounts.beyond _).trans right.accounts))

end Rounds

end Grammar

/-! ### Calls -/

open Reader Checked Grammar

/-- Nothing was read: the session is as it was, and its cursor has passed line breaks at most, and
those only where they mean nothing. -/
structure Stalls (before after : Session) : Prop where
  same : after = { before with cursor := after.cursor }
  moved : ∃ taken, before.cursor.Moves after.cursor taken
    ∧ ∀ lexeme ∈ taken, isLineBreak lexeme = true
  stays : before.mode.lineBreaksIgnored = false → after.cursor = before.cursor

/-- Looking at the current token reads nothing. -/
theorem stalls_settle (session : Session) :
    Stalls session (after session (settle session.mode session.cursor) []) where
  same := by simp [after]
  moved := by
    show ∃ taken, session.cursor.Moves (settle session.mode session.cursor) taken ∧ _
    unfold settle
    split
    · exact ⟨_, Cursor.moves_skipWhile _ _, fun lexeme => List.mem_takeWhile_imp⟩
    · exact ⟨[], .refl _, List.forall_mem_nil _⟩
  stays lined := settle_of_lined lined _

/-- A session in which a phrase was read has stalled where the phrase gives no tree, and has gone
past a token where it gives one. -/
theorem stalls_or_passes {phrase : Phrase} {session : Session} {role : Role} {tree : Option Tree}
    {last : Cursor Lexeme}
    (run : Derives phrase session.mode session.cursor (Part.ofOption role tree) last)
    (single : phrase.isExpression = true) (marked : session.cursor.mark.kind = .endOfStream) :
    (kept session.document.nodes (Part.ofOption role tree) = none →
      Stalls session (after session last (Part.ofOption role tree)))
    ∧ (kept session.document.nodes (Part.ofOption role tree) ≠ none →
      Passes session.cursor last) := by
  cases tree with
  | none =>
    obtain rfl := run.stays single rfl
    exact ⟨fun _ => stalls_settle session, fun some => absurd rfl some⟩
  | some tree => exact ⟨nofun, fun _ => run.passes single marked⟩

section Sessions

variable {text : Text} {session : Session}

/-- A call gives nothing and its session has stalled, or it gives a node and goes past a token. -/
def Proceeds (text : Text) (session : Session) (call : Call) : Prop :=
  ∃ value final, Checked.perform ⟨text⟩ call session = pure (value, final)
    ∧ session.perform call = (.ok value, final)
    ∧ (value = none → Stalls session final)
    ∧ (value ≠ none → Passes session.cursor final.cursor)

theorem proceeds_expression (reads : ReadsFrom text session) :
    Proceeds text session .expression := by
  have marked := reads.faithful.marked
  have run := obeys_expressionWithin (maxNesting - session.nesting) 0 .expression session.mode
    session.cursor marked
  have answers := answers_deeper reads
  exact ⟨_, _, answers.gives, answers.same, stalls_or_passes run rfl marked⟩

theorem proceeds_statement (reads : ReadsFrom text session) :
    Proceeds text session .statement := by
  have marked := reads.faithful.marked
  have run := derives_statement (obeys_expressionWithin (maxNesting - session.nesting)) .statements
    session.mode session.cursor marked
  have answers := answers_statementWithin reads
  exact ⟨_, _, answers.gives, answers.same, stalls_or_passes run rfl marked⟩

end Sessions

/-- **A call for an expression or a statement reads nothing or goes past a token**, in every session
that is come to from the tokens of a text, **and so does a round of every loop**, at every level. -/
theorem progress_of_calls_and_rounds (text : Text) :
    (∀ session, Reached text session →
      Proceeds text session .expression ∧ Proceeds text session .statement)
    ∧ ∀ levels,
      (∀ terminator, Advances (statementRound (expressionWithin levels 0) terminator))
      ∧ (∀ style delimiter, Advances (argumentRound (expressionWithin levels 0) style delimiter))
      ∧ (∀ tree, Advances (postfixRound (expressionWithin levels 0) tree))
      ∧ ∀ minimum left, Advances (infixRound (expressionWithin levels) minimum left) := by
  refine ⟨fun session reached => ?_, fun levels => ?_⟩
  · exact ⟨proceeds_expression reached.readsFrom, proceeds_statement reached.readsFrom⟩
  · have obeys := obeys_expressionWithin levels
    exact ⟨advances_statementRound obeys, advances_argumentRound obeys,
      advances_postfixRound obeys, advances_infixRound obeys⟩

/-- Between brackets in front of a closing one nothing is read; behind it a name and a semicolon. -/
theorem progress_around_stray_closer :
    let text := "\n) x;".toList
    let between := { Session.start text (lexemes text) with mode := ⟨true, 1⟩, nesting := 3 }
    let behind := { between with cursor := between.cursor.drop 2 }
    Reached text between ∧ Reached text behind
    ∧ (∃ final, between.perform .expression = (.ok none, final) ∧ Stalls between final
      ∧ final.cursor.position = 1)
    ∧ (∃ node final, behind.perform .statement = (.ok (some node), final)
      ∧ Passes behind.cursor final.cursor ∧ final.cursor.position = 4)
    ∧ behind.cursor.mark.kind = .endOfStream
    ∧ Passes between.cursor
      ((statementRound (expressionWithin 2 0) none).run .outermost between.cursor).2 := by
  intro text between behind
  have begun : Reached text (.start _ (lexemes text)) := @Reached.start _ 0 5 _ rfl
  have reached : Reached text between := begun.beside rfl
  have moved : Reached text behind := reached.moved (Cursor.moves_drop 2 between.cursor)
  obtain ⟨calls, rounds⟩ := progress_of_calls_and_rounds text
  obtain ⟨value, final, _, same, stalls, _⟩ := (calls between reached).1
  obtain ⟨other, last, _, alike, _, passes⟩ := (calls behind moved).2
  have nothing : value = none := by
    have given : (between.perform .expression).1 = .ok none := by decide
    rw [same] at given
    exact Except.ok.inj given
  have node : other = some 3 := by
    have given : (behind.perform .statement).1 = .ok (some 3) := by decide
    rw [alike] at given
    exact Except.ok.inj given
  subst nothing node
  have between : final = (between.perform .expression).2 := by rw [same]
  have behind : last = (behind.perform .statement).2 := by rw [alike]
  refine ⟨reached, moved, ⟨final, same, stalls rfl, ?_⟩, ⟨3, last, alike, passes nofun, ?_⟩, rfl,
    ?_⟩
  · rw [between]
    decide
  · rw [behind]
    decide
  · refine ((rounds 2).1 none .outermost _ rfl).resolve_left ?_
    decide

end RSource
