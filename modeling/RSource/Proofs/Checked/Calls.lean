/-
**Routines that are called by hand.**

A `Call` is a routine of the grammar with what it is told. It runs with every check made
(`Checked.perform`), and it is a step of a session (`Session.perform`). Main statement:
`answers_or_refuses`. In a session that reads from a text, wherever its cursor is, whatever its
mode, its nesting and what it has read so far, a call ends with parts stored behind the tokens that
they were read from, and the step of the session gives the same; or else it is refused for a token
kind that does not allow it.
-/

import RSource.Proofs.Checked.Program

namespace RSource

open Grammar Reader

/-- A routine of the grammar, with what it is told. -/
inductive Call where
  | expression
  | statement
  | scope (allowsSimple : Bool)
  | construct
  | arguments (style : ArgumentStyle) (opener : TokenKind) (anchor : Nat)
  | close (opener : TokenKind)
  | globalScope
  deriving Repr, DecidableEq

/-- A call as a step of a session: the number of the node that it gives, if it gives one. -/
def Session.perform (session : Session) : Call → Except Violation (Option NodeId) × Session
  | .expression => (.ok session.expression.1, session.expression.2)
  | .statement => (.ok session.statement.1, session.statement.2)
  | .scope allowsSimple => (.ok (session.scope allowsSimple).1, (session.scope allowsSimple).2)
  | .construct => (.ok session.construct.1, session.construct.2)
  | .arguments style opener anchor =>
    ((session.arguments style opener anchor).1.map some, (session.arguments style opener anchor).2)
  | .close opener => session.close opener
  | .globalScope => (.ok (some session.globalScope.1), session.globalScope.2)

namespace Checked

/-- A call with every check made. -/
def perform (source : Checked) : Call → Steps (Option NodeId)
  | .expression => source.expression 0
  | .statement => source.statement
  | .scope allowsSimple => source.scope allowsSimple
  | .construct => source.construct
  | .arguments style opener anchor => do return some (← source.argumentList style opener anchor)
  | .close opener => close opener
  | .globalScope => do return some (← source.globalScope)

/-- The tokens of a session are pieces of a text, in front of its cursor and behind it, and its mark
stands behind the text. -/
structure ReadsFrom (text : Text) (session : Session) : Prop where
  faithful : Faithful text session.cursor
  mark : session.cursor.mark = .endMark text.bytes

/-- The call gives a value and stores parts up to a cursor, and so does the step of the session. -/
structure Answers (text : Text) (session : Session) (call : Call) (value : Option NodeId)
    (last : Cursor Lexeme) (parts : List Part) : Prop where
  gives : Gives (perform ⟨text⟩ call) session value (after session last parts)
  same : session.perform call = (.ok value, after session last parts)
  accounts : Accounts session.cursor parts last

/-! ### Refusals -/

/-- From a session on the steps end with a fault. -/
def Refuses {α : Type} (steps : Steps α) (session : Session) (fault : Fault) : Prop :=
  steps session = throw fault

section Refusals

variable {α β : Type} {steps : Steps α} {next : α → Steps β} {session middle : Session}
  {fault : Fault}

/-- What follows steps that are refused is not reached. -/
theorem Refuses.bind (refused : Refuses steps session fault) :
    Refuses (steps >>= next) session fault := by
  show steps session >>= (fun given => next given.1 given.2) = _
  rw [refused]
  rfl

theorem Gives.refuses {value : α} (first : Gives steps session value middle)
    (refused : Refuses (next value) middle fault) : Refuses (steps >>= next) session fault := by
  show steps session >>= (fun given => next given.1 given.2) = _
  rw [first]
  exact refused

/-- Steps that are refused give nothing. -/
theorem Refuses.not_gives {value : α} (refused : Refuses steps session fault) :
    ¬ Gives steps session value middle := by
  intro given
  have both := given.symm.trans refused
  cases both

end Refusals

theorem refuses_delimiterOf {opener : TokenKind} (other : Delimiter.ofOpener? opener = none)
    (session : Session) :
    Refuses (liftM (delimiterOf opener) : Steps Delimiter) session
      (.misuse (.notOpening opener)) := by
  unfold Refuses delimiterOf Delimiter.ofOpener
  rw [other]
  rfl

/-- The fault of a token in a keyword's place. -/
def noKeyword (lexeme : Lexeme) : Fault := .misuse (.keywordExpected lexeme.span lexeme.kind)

section Keyword

variable {session : Session} {first : Cursor Lexeme} {before : List Part}
  (marked : first.mark.kind = .endOfStream) (other : (look session.mode first).kind ≠ .keyword)

include marked other

/-- A keyword is not taken where none is. -/
theorem refuses_keyword :
    Refuses keyword (after session (settle session.mode first) before)
      (noKeyword (look session.mode first)) := by
  refine (gives_current_settled marked).refuses ?_
  have none : ¬((look session.mode first).kind == .keyword) = true := by simpa using other
  show (if _ then _ else _ : Steps NodeId) _ = _
  rw [if_neg none]
  rfl

/-- No construct begins with another token. -/
theorem refuses_begun (construct : Construct) (source : Checked) :
    Refuses (begun construct (look session.mode first) source)
      (after session (settle session.mode first) before) (noKeyword (look session.mode first)) := by
  cases construct with
  | ifElse =>
    rw [begun, ifElse]
    exact (refuses_keyword marked other).bind
  | repeatLoop =>
    rw [begun, repeated]
    exact (refuses_keyword marked other).bind
  | forLoop | whileLoop | functionDefinition =>
    rw [begun, headed]
    exact (refuses_keyword marked other).bind
  | breakLoop | nextRound =>
    rw [begun, wordAlone]
    exact (refuses_keyword marked other).bind

end Keyword

/-! ### What the steps of a session store -/

section Stored

variable (session : Session) (role : Role)

theorem keep_eq (last : Cursor Lexeme) (tree : Tree) :
    Session.keep { session with cursor := last } tree
      = (nodeOf session.document.nodes [.child role tree],
        after session last [.child role tree]) := by
  simp [Session.keep, Session.report, after, nodeOf, Tree.partsProblems, Tree.partProblems]

theorem build_eq (reader : Reader Tree) :
    session.build reader
      = (nodeOf session.document.nodes [.child role (reader.run session.mode session.cursor).1],
        after session (reader.run session.mode session.cursor).2
          [.child role (reader.run session.mode session.cursor).1]) :=
  keep_eq session role _ _

theorem build?_eq (reader : Reader (Option Tree)) :
    session.build? reader
      = (kept session.document.nodes
          (Part.ofOption role (reader.run session.mode session.cursor).1),
        after session (reader.run session.mode session.cursor).2
          (Part.ofOption role (reader.run session.mode session.cursor).1)) := by
  have ran : session.run reader = ((reader.run session.mode session.cursor).1,
    { session with cursor := (reader.run session.mode session.cursor).2 }) := rfl
  rw [Session.build?, ran]
  cases (reader.run session.mode session.cursor).1 with
  | none => simp [after]
  | some tree =>
    simp only [keep_eq session role]
    rfl

theorem buildOrReport_eq (reader : Reader (Except Problem Tree)) :
    session.buildOrReport reader
      = (kept session.document.nodes
          [.ofResult role (reader.run session.mode session.cursor).1],
        after session (reader.run session.mode session.cursor).2
          [.ofResult role (reader.run session.mode session.cursor).1]) := by
  have ran : session.run reader = ((reader.run session.mode session.cursor).1,
    { session with cursor := (reader.run session.mode session.cursor).2 }) := rfl
  rw [Session.buildOrReport, ran]
  cases (reader.run session.mode session.cursor).1 with
  | error found => simp [after, Session.report, Part.ofResult]
  | ok tree =>
    simp only [keep_eq session role]
    rfl

end Stored

/-! ### What calls give -/

/-- Where only a block is allowed its brace is expected. -/
theorem yields_noBlock {levels : Nat} {mode : Mode} {first : Cursor Lexeme}
    (other : (look mode (beyond first)).kind ≠ .openCurlyBrace) :
    Yields (scope false) kept levels mode first
      [.problem ⟨.openCurlyBraceExpected, (look mode (beyond first)).token⟩ []]
      (settle mode (beyond first)) := by
  rintro source session before ⟨faithful, rfl, deep⟩
  rw [scope]
  refine (gives_skipLineBreaks faithful.marked).bind ((gives_current faithful.beyond.marked).bind
    (.of_neg (by simpa using other) (.of_pos rfl ?_)))
  exact (gives_report session _ before .openCurlyBraceExpected _ []).bind (gives_pure _ _)

section Calls

variable {text : Text} {session : Session} (reads : ReadsFrom text session)

include reads

/-- What is derived from the cursor on is what the routine gives there. -/
theorem gives_of_yields {α : Type} {steps : Checked → Steps α} {value : Arena → List Part → α}
    {last : Cursor Lexeme} {parts : List Part}
    (yields : Yields steps value (maxNesting - session.nesting) session.mode session.cursor parts
      last) :
    Gives (steps ⟨text⟩) session (value session.document.nodes parts)
      (after session last parts) := by
  have given := yields ⟨text⟩ session [] ⟨reads.faithful, rfl, rfl⟩
  rwa [after_nil, grown_nil, List.nil_append] at given

/-- An expression, with what reading it gives. -/
theorem answers_deeper :
    Answers text session .expression
      (kept session.document.nodes
        (Part.ofOption .expression (session.deeper.run session.mode session.cursor).1))
      (session.deeper.run session.mode session.cursor).2
      (Part.ofOption .expression (session.deeper.run session.mode session.cursor).1) := by
  have run := obeys_expressionWithin (maxNesting - session.nesting) 0 .expression session.mode
    session.cursor reads.faithful.marked
  refine ⟨gives_of_yields reads (performs_of_derives run), ?_, run.accounts⟩
  rw [Session.perform, Session.expression, build?_eq session .expression]

theorem answers_expression : ∃ value last parts,
    Answers text session .expression value last parts := ⟨_, _, _, answers_deeper reads⟩

/-- A statement, with what reading it gives. -/
theorem answers_statementWithin :
    Answers text session .statement
      (kept session.document.nodes (Part.ofOption .statements
        ((Grammar.statement session.deeper).run session.mode session.cursor).1))
      ((Grammar.statement session.deeper).run session.mode session.cursor).2
      (Part.ofOption .statements
        ((Grammar.statement session.deeper).run session.mode session.cursor).1) := by
  have run := derives_statement (obeys_expressionWithin (maxNesting - session.nesting)) .statements
    session.mode session.cursor reads.faithful.marked
  refine ⟨gives_of_yields reads (performs_of_derives run), ?_, run.accounts⟩
  rw [Session.perform, Session.statement, build?_eq session .statements]

theorem answers_statement : ∃ value last parts,
    Answers text session .statement value last parts := ⟨_, _, _, answers_statementWithin reads⟩

theorem answers_close (delimiter : Delimiter) : ∃ value last parts,
    Answers text session (.close delimiter.opener) value last parts := by
  have run := derives_closing delimiter .closeBrace session.mode session.cursor
  refine ⟨_, _, _, gives_of_yields reads (@yields_close (maxNesting - session.nesting) _ _ _ _ _ _
    run), ?_, run.accounts⟩
  have known : Delimiter.ofOpener delimiter.opener = .ok delimiter := by cases delimiter <;> rfl
  simp only [Session.perform, Session.close, known, buildOrReport_eq session .closeBrace]

theorem answers_arguments (style : ArgumentStyle) (delimiter : Delimiter) (anchor : Nat) :
    ∃ value last parts,
      Answers text session (.arguments style delimiter.opener anchor) value last parts := by
  have run := derives_argumentList (obeys_expressionWithin (maxNesting - session.nesting)) style
    delimiter anchor .arguments session.mode session.cursor reads.faithful.marked
  refine ⟨_, _, _, (gives_of_yields reads (performs_of_derives run)).bind (gives_pure _ _), ?_,
    run.accounts⟩
  have known : Delimiter.ofOpener delimiter.opener = .ok delimiter := by cases delimiter <;> rfl
  simp only [Session.perform, Session.arguments, known, build_eq session .arguments]
  rfl

theorem answers_body : ∃ value last parts,
    Answers text session (.scope true) value last parts := by
  have run := derives_body (obeys_expressionWithin (maxNesting - session.nesting)) .body
    session.mode session.cursor reads.faithful.marked
  refine ⟨_, _, _, gives_of_yields reads (performs_of_derives run), ?_, run.accounts⟩
  rw [Session.perform, Session.scope, buildOrReport_eq session .body]
  rfl

/-- Where no simple body is allowed there has to be a block. -/
theorem answers_blockBody : ∃ value last parts,
    Answers text session (.scope false) value last parts := by
  have here := reads.faithful.beyond
  have stored := buildOrReport_eq session .body (Grammar.scope session.deeper false)
  have passed : Accounts session.cursor [] (settle session.mode (beyond session.cursor)) :=
    (Accounts.beyond _).trans (.settle _ _)
  by_cases opens : (look session.mode (beyond session.cursor)).kind = .openCurlyBrace
  · have run := derives_bracedScope (obeys_expressionWithin (maxNesting - session.nesting)) .body
      session.mode (settle session.mode (beyond session.cursor)) (here.settle _).marked
      (by rwa [look_settle])
    have ran : (Grammar.scope session.deeper false).run session.mode session.cursor
        = (.ok ((bracedScope session.deeper).run session.mode
            (settle session.mode (beyond session.cursor))).1,
          ((bracedScope session.deeper).run session.mode
            (settle session.mode (beyond session.cursor))).2) := by
      unfold Grammar.scope
      simp only [run_bind, run_skipLineBreaks, run_current, run_ite, opens]
      rfl
    refine ⟨_, _, _, gives_of_yields reads (.blockBody false opens (performs_of_derives run)), ?_,
      passed.trans run.accounts⟩
    rw [Session.perform, Session.scope, stored, ran]
    rfl
  · have ran : (Grammar.scope session.deeper false).run session.mode session.cursor
        = (.error ⟨.openCurlyBraceExpected, (look session.mode (beyond session.cursor)).token⟩,
          settle session.mode (beyond session.cursor)) := by
      unfold Grammar.scope
      simp only [run_bind, run_skipLineBreaks, run_current, run_ite, beq_iff_eq, opens]
      rfl
    refine ⟨_, _, _, gives_of_yields reads (yields_noBlock opens), ?_, passed.congr rfl⟩
    rw [Session.perform, Session.scope, stored, ran]
    rfl

/-- The token at the cursor has its text, even where it is the mark. -/
theorem gives_textOf_look :
    Gives (textOf (look session.mode session.cursor) ⟨text⟩)
      (after session (settle session.mode session.cursor) [])
      (look session.mode session.cursor).text
      (after session (settle session.mode session.cursor) []) := by
  by_cases ended : (look session.mode session.cursor).kind = .endOfStream
  · have nothing := (reads.faithful.settle session.mode).rest_eq_nil ended
    have behind : look session.mode session.cursor = .endMark text.bytes := by
      rw [look, Cursor.current, nothing, List.headD_nil, settle_mark, reads.mark]
    have empty : text.slice? text.bytes text.bytes = some [] := by
      simpa using Text.slice?_middle text [] []
    rw [behind]
    exact gives_lift (slice_of_slice? empty)
  · exact gives_textOf (reads.faithful.look session.mode) ended

/-- A construct begins with its keyword: it is refused where another token has that text. -/
theorem answers_construct : (∃ value last parts,
    Answers text session .construct value last parts)
      ∨ ∃ violation, Refuses (perform ⟨text⟩ .construct) session (.misuse violation) := by
  have marked := reads.faithful.marked
  have stored := build?_eq session .expression (Grammar.construct session.deeper)
  have looked : Gives current session (look session.mode session.cursor)
      (after session (settle session.mode session.cursor) []) := by
    have found := @gives_current session session.cursor [] marked
    rwa [after_nil] at found
  cases known : Construct.ofWord? (look session.mode session.cursor).text with
  | none =>
    have ran : (Grammar.construct session.deeper).run session.mode session.cursor
        = (none, settle session.mode session.cursor) := by
      unfold Grammar.construct
      simp only [run_bind, run_current, known, run_pure]
    refine .inl ⟨none, settle session.mode session.cursor, [], ?_, ?_, .settle _ _⟩
    · rw [perform, construct]
      refine looked.bind ((gives_textOf_look reads).bind ?_)
      rw [known]
      exact gives_pure _ _
    · rw [Session.perform, Session.construct, stored, ran]
      rfl
  | some construct =>
    by_cases word : (look session.mode session.cursor).kind = .keyword
    · have run := derives_construct (obeys_expressionWithin (maxNesting - session.nesting))
        construct .expression session.mode session.cursor marked (isReadable_of_kind word rfl)
      have ran : (Grammar.construct session.deeper).run session.mode session.cursor
          = (some ((construct.read session.deeper).run session.mode session.cursor).1,
            ((construct.read session.deeper).run session.mode session.cursor).2) := by
        unfold Grammar.construct Construct.read
        simp only [run_bind, run_current, known, run_leaf, run_pure, leafAt_settle, past_settle]
      refine .inl ⟨_, _, _, gives_of_yields reads (performs_of_derives run word known), ?_,
        run.accounts⟩
      rw [Session.perform, Session.construct, stored, ran]
      rfl
    · refine .inr ⟨_, (?_ : Refuses _ _ (noKeyword (look session.mode session.cursor)))⟩
      rw [perform, Checked.construct]
      refine looked.refuses ((gives_textOf_look reads).refuses ?_)
      rw [known]
      exact (refuses_begun marked word construct ⟨text⟩).bind

theorem answers_globalScope : ∃ value last parts,
    Answers text session .globalScope value last parts := by
  have run := derives_statements (obeys_expressionWithin (maxNesting - session.nesting)) none
    session.mode session.cursor reads.faithful.marked
  obtain ⟨consumed, moved, _⟩ := run.accounts reads.faithful.marked
  have whole := run_globalScope session.deeper session.mode session.cursor
  have size : text.bytes
      = ((statements session.deeper none).run session.mode session.cursor).2.mark.start := by
    rw [Session.deeper, moved.mark, reads.mark]
    rfl
  have given := gives_globalScope (⟨reads.faithful, rfl, rfl⟩ : Ready ⟨text⟩ session _ _ _) run []
  rw [after_nil, grown_nil, List.nil_append] at given
  refine ⟨_, _, _, given.bind (gives_pure _ _), ?_, run.accounts.congr (by simp)⟩
  rw [Session.perform, Session.globalScope, build_eq session .globalScope, whole, ← size]
  rfl

end Calls

/-- **A call ends, and the step of the session does the same, or it is refused.** -/
theorem answers_or_refuses {text : Text} {session : Session} (reads : ReadsFrom text session)
    (call : Call) :
    (∃ value last parts, Answers text session call value last parts)
      ∨ ∃ violation, Refuses (perform ⟨text⟩ call) session (.misuse violation) := by
  cases call with
  | expression => exact .inl (answers_expression reads)
  | statement => exact .inl (answers_statement reads)
  | scope allowsSimple =>
    cases allowsSimple with
    | true => exact .inl (answers_body reads)
    | false => exact .inl (answers_blockBody reads)
  | construct => exact answers_construct reads
  | arguments style opener anchor =>
    cases found : Delimiter.ofOpener? opener with
    | none =>
      refine .inr ⟨.notOpening opener, ?_⟩
      rw [perform, argumentList]
      exact (refuses_delimiterOf found session).bind.bind
    | some delimiter =>
      obtain rfl := Delimiter.ofOpener?_eq_some_iff.mp found
      exact .inl (answers_arguments reads style delimiter anchor)
  | close opener =>
    cases found : Delimiter.ofOpener? opener with
    | none => exact .inr ⟨.notOpening opener, (refuses_delimiterOf found session).bind⟩
    | some delimiter =>
      obtain rfl := Delimiter.ofOpener?_eq_some_iff.mp found
      exact .inl (answers_close reads delimiter)
  | globalScope => exact .inl (answers_globalScope reads)

end Checked

end RSource
