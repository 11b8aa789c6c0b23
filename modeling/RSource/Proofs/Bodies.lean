/-
**A body without braces is read alike in braces.**

A session in front of some tokens and one in front of the same tokens in curly braces
(`Session.IsBraced`) may read a body from them. Where the first reads one statement without braces,
takes all of its tokens and meets no problem, the second reads a block with this statement alone: the
statement is read from between the braces as without them (`Grammar.Derives.enclosed`), and it is
stored with the same nodes, their numbers moved on (`Arena.sameBelow_store`). Main statement:
`Session.IsBraced.scope_enclosed`.
-/

import RSource.Proofs.Arena.Blocks
import RSource.Proofs.Checked.Calls
import RSource.Proofs.Grammar.Determinism
import RSource.Proofs.Grammar.Edited
import RSource.Proofs.Grammar.Enclosed

namespace RSource

open Grammar Reader

namespace Session

/-- Two sessions in the same setting: the first begins at some tokens, the second at the same tokens
between an opening and a closing curly brace. -/
structure IsBraced (bare braced : Session) (tokens : List Lexeme) (opening closing : Lexeme) :
    Prop where
  mode : braced.mode = bare.mode
  nesting : braced.nesting = bare.nesting
  bare : ∃ size, bare.cursor = .ofList tokens (.endMark size)
  braced : ∃ size, braced.cursor = .ofList (opening :: (tokens ++ [closing])) (.endMark size)
  opens : opening.kind = .openCurlyBrace
  closes : closing.kind = .closeCurlyBrace

/-- Reading a body gives this node, meets no problem and takes all tokens. -/
structure ReadsBody (session : Session) (allowsSimple : Bool) (scope : NodeId) : Prop where
  returned : (session.scope allowsSimple).1 = some scope
  clean : (session.scope allowsSimple).2.problems = session.problems
  consumed : (session.scope allowsSimple).2.cursor.rest = []

end Session

/-- A node is a block with this statement alone, between these two braces. -/
def Document.IsBlock (document : Document) (scope statement : NodeId) (opening closing : Lexeme) :
    Prop :=
  ∃ first last,
    document.content scope
        = .branch .scope [(.openCurly, first), (.statements, statement), (.closeCurly, last)]
      ∧ document.content first = .leaf opening.token ∧ document.content last = .leaf closing.token

namespace Grammar

/-! ### The block around a statement -/

/-- The parts of a block with one statement. -/
def bracedParts (tree : Tree) (opening closing : Lexeme) : List Part :=
  [.child .openCurly (.leaf opening), .child .statements tree, .child .closeCurly (.leaf closing)]

section Block

variable {levels : Nat} {mode : Mode} {tree : Tree}

/-- A statement in another role. -/
theorem Derives.statement_role {role : Role} (other : Role) {first last : Cursor Lexeme}
    (run : Derives (.statement levels role) mode first [.child role tree] last) :
    Derives (.statement levels other) mode first [.child other tree] last := by
  cases run with
  | statement inExpression inSemicolon => exact .statement inExpression inSemicolon

variable (lined : mode.lineBreaksIgnored = false)
include lined

/-- One statement up to a closing brace makes the statements of a block. -/
theorem Derives.statements_of_statement {first last : Cursor Lexeme}
    (run : Derives (.statement levels .statements) mode (pastSeparators first)
      [.child .statements tree] last) (closes : last.current.kind = .closeCurlyBrace) :
    Derives (.statements (some .closeCurlyBrace) levels) mode first [.child .statements tree]
      last := by
  have begins := run.endsNesting_look rfl nofun (List.cons_ne_nil _ _)
  have other (kind : TokenKind) (ends : endsNesting kind = true) :
      (look mode (pastSeparators first)).kind ≠ kind := fun found => by
    rw [found, ends] at begins
    cases begins
  have goesOn : endsBlock (some .closeCurlyBrace) (look mode (pastSeparators first)) = false := by
    simp [endsBlock, other .endOfStream rfl, other .closeCurlyBrace rfl]
  have brace : (look mode last).kind = .closeCurlyBrace := by rwa [look, settle_of_lined lined]
  have separated : isSeparated mode tree last = true := by
    simp [isSeparated, endsStatement, brace]
  have behind : pastSeparators last = last :=
    Cursor.skipWhile_of_current (by simp [isSeparator, closes])
  rw [← settle_of_lined lined (pastSeparators first)] at run
  have items := Derives.statements (.listed .listingStart goesOn (other _ rfl) run separated)
    (by rw [settle_of_lined lined, behind, endsBlock, brace]; rfl)
  rwa [settle_of_lined lined, settle_of_lined lined, behind] at items

/-- Statements between two braces make a block. -/
theorem Derives.block_of_statements {role : Role} {items : List Part} {first second : Cursor Lexeme}
    (opens : first.current.kind = .openCurlyBrace)
    (run : Derives (.statements (some .closeCurlyBrace) levels) mode.braced first.advance.2 items
      second) (closes : second.current.kind = .closeCurlyBrace) :
    Derives (.block levels role) mode first [.child role (.ofParts .scope
      (.child .openCurly (.leaf first.current) ::
        (items ++ [.child .closeCurly (.leaf second.current)])))] second.advance.2 := by
  have still := settle_of_lined lined first
  have close : Derives (.expected (isOfKind .closeCurlyBrace) .closeCurly .closeBraceExpected)
      mode.braced second [.child .closeCurly (.leaf second.current)] second.advance.2 :=
    .found (beq_iff_eq.mpr closes) (isReadable_of_kind closes rfl)
  have block := @Derives.block levels role mode first _ _ _ _ (by rwa [look, still])
    (by rwa [past, still]) close
  rwa [leafAt, look, still] at block

/-- In front of a statement separators are line breaks. -/
theorem Derives.pastSeparators_eq {role : Role} {first last : Cursor Lexeme}
    (run : Derives (.statement levels role) mode (beyond first) [.child role tree] last) :
    pastSeparators first = beyond first := by
  have begins := isSeparator_of_endsNesting
    (run.endsNesting_look rfl nofun (List.cons_ne_nil _ _))
  rw [look, settle_of_lined lined] at begins
  rw [← Cursor.skipWhile_of_current begins]
  exact (Cursor.skipWhile_skipWhile_of_imp first fun _ => isSeparator_of_isLineBreak).symm

variable {tokens : List Lexeme} {mark : Lexeme} (marked : mark.kind = .endOfStream)
include marked

/-- **A statement that is all there is, is all there is in a block.** -/
theorem Derives.block_of_statement {role own : Role} {last : Cursor Lexeme}
    (run : Derives (.statement levels own) mode (beyond (.ofList tokens mark)) [.child own tree] last)
    (clean : tree.problems = []) (all : last.rest = []) {opening closing other : Lexeme}
    (opens : opening.kind = .openCurlyBrace) (closes : closing.kind = .closeCurlyBrace) :
    ∃ final : Cursor Lexeme, final.rest = []
      ∧ Derives (.block levels role) mode (.ofList (opening :: (tokens ++ [closing])) other)
        [.child role (.ofParts .scope (bracedParts tree opening closing))] final := by
  let around : Enclosure := ⟨[opening], closing, other, by simp [opens], closes⟩
  have inside : mode.enclosed = mode.braced := by rw [Mode.braced, Mode.enclosed, lined]
  have ended : (look mode last).kind = .endOfStream := by
    rw [look, settle_of_lined lined, Cursor.current, all]
    exact run.mark marked
  -- The statement is read from between the braces, and the closing brace ends it.
  have statement := (run.statement_role .statements).enclosed around marked
    (List.forall_mem_singleton.mpr clean) (unbroken_of_kind ended (by decide))
  rw [inside, ← run.pastSeparators_eq lined, ← around.pastSeparators_cursor] at statement
  have brace : (around.cursor last).rest = [closing] := by
    rw [Enclosure.cursor, all]
    rfl
  have current : (around.cursor last).current = closing := by rw [Cursor.current, brace]; rfl
  have block : Derives (.block levels role) mode (.ofList (opening :: (tokens ++ [closing])) other)
      _ _ := .block_of_statements lined opens
    (statement.statements_of_statement rfl (by rwa [current])) (by rwa [current])
  rw [current] at block
  refine ⟨_, ?_, block⟩
  rw [Cursor.advance, brace]

end Block

/-! ### What a session reads -/

/-- In front of an opening brace a block is read, whether a statement would be allowed or not. -/
theorem run_scope_of_opened (expression : Reader (Option Tree)) (allowsSimple : Bool) {mode : Mode}
    {cursor : Cursor Lexeme} (opened : (look mode (beyond cursor)).kind = .openCurlyBrace) :
    (scope expression allowsSimple).run mode cursor
      = (.ok ((bracedScope expression).run mode (settle mode (beyond cursor))).1,
        ((bracedScope expression).run mode (settle mode (beyond cursor))).2) := by
  unfold scope
  simp only [run_bind, run_skipLineBreaks, run_current, run_ite, run_pure]
  rw [if_pos (beq_iff_eq.mpr opened)]

end Grammar

namespace Session

open Checked

/-! ### What is stored -/

section Stored

variable (session : Session) (last : Cursor Lexeme)

/-- The nodes of the parts come before the node over them. -/
theorem extends_after (role : Role) (form : Form) (parts : List Part) :
    Arena.Extends (grown session.document.nodes parts)
      (after session last [.child role (.ofParts form parts)]).document.nodes := by
  show Arena.Extends _ (grown session.document.nodes [.child role (.node form _ parts)])
  rw [grown_node]
  exact Arena.extends_add _ _ _

/-- That node holds the slots of the parts. -/
theorem content_after (role : Role) (form : Form) (parts : List Part) :
    (after session last [.child role (.ofParts form parts)]).document.content
        (nodeOf session.document.nodes [.child role (.ofParts form parts)])
      = .branch form (slotsOf session.document.nodes parts) := by
  rw [nodeOf_ofParts]
  show (grown session.document.nodes [.child role (.node form _ parts)]).contentAt _ = _
  rw [grown_node]
  exact Arena.contentAt_add_size _ _ _

/-- A block is stored with its braces in front of its statement and behind it. -/
theorem isBlock_after (tree : Tree) (opening closing : Lexeme) :
    (after session last [.child .body (.ofParts .scope (bracedParts tree opening closing))]).document
      |>.IsBlock
        (nodeOf session.document.nodes
          [.child .body (.ofParts .scope (bracedParts tree opening closing))])
        ((Arena.store tree (Arena.store (.leaf opening) session.document.nodes)).size - 1)
        opening closing := by
  let before := session.document.nodes.add (.leaf opening.token) opening.span
  let inner := Arena.store tree before
  have front : Arena.Extends before inner := (Arena.extends_store tree before).1
  have behind : Arena.Extends inner (inner.add (.leaf closing.token) closing.span) :=
    Arena.extends_add _ _ _
  have kept : Arena.Extends (inner.add (.leaf closing.token) closing.span) _ :=
    extends_after session last .body .scope (bracedParts tree opening closing)
  refine ⟨session.document.nodes.size, inner.size, ?_, ?_, ?_⟩
  · rw [content_after]
    simp only [bracedParts, slotsOf_child, slotsOf_nil, nodeOf_leaf]
    rfl
  · exact (((front.trans behind).trans kept).content _ (by simp [before])).trans
      (Arena.contentAt_add_size _ _ _)
  · exact (kept.content _ (by simp)).trans (Arena.contentAt_add_size _ _ _)

end Stored

/-- A body that was read without problems and to the end of all tokens. -/
theorem readsBody_of_eq {session : Session} {allowsSimple : Bool} {last : Cursor Lexeme} {tree : Tree}
    (read : session.scope allowsSimple
      = (kept session.document.nodes [.child .body tree], after session last [.child .body tree]))
    (clean : tree.problems = []) (taken : last.rest = []) :
    session.ReadsBody allowsSimple (nodeOf session.document.nodes [.child .body tree]) where
  returned := by rw [read]; rfl
  clean := by rw [read]; simp [after, clean]
  consumed := by rw [read]; exact taken

/-! ### Reading -/

section Reading

variable {session : Session} (marked : session.cursor.mark.kind = .endOfStream)
include marked

/-- Reading a body, as the grammar has it. -/
theorem exists_scope :
    ∃ result last, session.scope true
        = (kept session.document.nodes [.ofResult .body result],
          after session last [.ofResult .body result])
      ∧ Derives (.body (maxNesting - session.nesting) .body) session.mode session.cursor
        [.ofResult .body result] last := by
  have run := derives_body (obeys_expressionWithin (maxNesting - session.nesting)) .body session.mode
    session.cursor marked
  simp only [body, run_bind, run_pure] at run
  exact ⟨_, _, buildOrReport_eq session .body _, run⟩

/-- A body without braces is one statement. -/
theorem ReadsBody.exists_statement {id : NodeId} (reads : session.ReadsBody true id)
    (simple : ((session.scope true).2.document.content id).form? = some .simpleScope) :
    ∃ tree last, tree.problems = [] ∧ last.rest = []
      ∧ Derives (.statement (maxNesting - session.nesting) .statement) session.mode
        (settle session.mode (beyond session.cursor)) [.child .statement tree] last
      ∧ (session.scope true).2
        = after session last [.child .body (.ofParts .simpleScope [.child .statement tree])]
      ∧ id = nodeOf session.document.nodes
        [.child .body (.ofParts .simpleScope [.child .statement tree])] := by
  obtain ⟨returned, clean, consumed⟩ := reads
  obtain ⟨result, last, scope, run⟩ := exists_scope marked
  rw [scope] at returned clean consumed simple
  cases result with
  | error found => cases returned
  | ok body =>
    obtain rfl : nodeOf session.document.nodes [.child .body body] = id := Option.some.inj returned
    replace run : Derives (.body (maxNesting - session.nesting) .body) session.mode session.cursor
      [.child .body body] last := run
    replace simple : ((after session last [.child .body body]).document.content
      (nodeOf session.document.nodes [.child .body body])).form? = some .simpleScope := simple
    cases run with
    | blockBody _ block =>
      cases block
      rw [content_after] at simple
      cases simple
    | @simpleBody _ _ _ _ _ tree _ statement =>
      refine ⟨tree, last, ?_, consumed, statement, ?_, rfl⟩
      · simpa [after, Part.ofResult] using clean
      · rw [scope]
        rfl

/-- Reading a block, as the grammar has it. -/
theorem scope_eq_of_block (allowsSimple : Bool) (lined : session.mode.lineBreaksIgnored = false)
    (opened : session.cursor.current.kind = .openCurlyBrace) {tree : Tree} {last : Cursor Lexeme}
    (run : Derives (.block (maxNesting - session.nesting) .body) session.mode session.cursor
      [.child .body tree] last) :
    session.scope allowsSimple
      = (kept session.document.nodes [.child .body tree], after session last [.child .body tree]) := by
  have here : beyond session.cursor = session.cursor :=
    Cursor.skipWhile_of_current (isLineBreak_of_kind opened (by decide))
  have seen : (look session.mode session.cursor).kind = .openCurlyBrace := by
    rwa [look, settle_of_lined lined]
  have block := derives_bracedScope (obeys_expressionWithin (maxNesting - session.nesting)) .body
    session.mode session.cursor marked seen
  obtain ⟨same, rfl⟩ := isDetermined_block (isDetermined_deeper _) .body block run
  cases same
  rw [Session.scope, buildOrReport_eq session .body, run_scope_of_opened _ _ (by rwa [here]), here,
    settle_of_lined lined]
  rfl

end Reading

/-- **A body that is one statement is the same statement in a block.** Whether the body may be a
statement does not matter in front of the brace. -/
theorem IsBraced.scope_enclosed {bare braced : Session} {tokens : List Lexeme} {opening closing : Lexeme}
    (around : IsBraced bare braced tokens opening closing)
    (lined : bare.mode.lineBreaksIgnored = false) {id : NodeId} (reads : bare.ReadsBody true id)
    (simple : ((bare.scope true).2.document.content id).form? = some .simpleScope)
    (allowsSimple : Bool) :
    ∃ scope statement own, braced.ReadsBody allowsSimple scope
      ∧ (bare.scope true).2.document.content id = .branch .simpleScope [(.statement, statement)]
      ∧ (braced.scope allowsSimple).2.document.IsBlock scope own opening closing
      ∧ (bare.scope true).2.document.SameBelow (braced.scope allowsSimple).2.document statement
        own := by
  obtain ⟨size, first⟩ := around.bare
  obtain ⟨more, second⟩ := around.braced
  obtain ⟨tree, last, clean, taken, statement, stored, rfl⟩ :=
    reads.exists_statement (by rw [first]; rfl) simple
  rw [settle_of_lined lined, first] at statement
  obtain ⟨final, ended, block⟩ : ∃ final : Cursor Lexeme, final.rest = []
      ∧ Derives (.block (maxNesting - bare.nesting) .body) bare.mode
        (.ofList (opening :: (tokens ++ [closing])) (.endMark more))
        [.child .body (.ofParts .scope (bracedParts tree opening closing))] final :=
    statement.block_of_statement lined rfl clean taken around.opens around.closes
  rw [← around.nesting, ← around.mode, ← second] at block
  have read := scope_eq_of_block (by rw [second]; rfl) allowsSimple (by rwa [around.mode])
    (by rw [second]; exact around.opens) block
  refine ⟨_, (Arena.store tree bare.document.nodes).size - 1,
    (Arena.store tree (Arena.store (.leaf opening) braced.document.nodes)).size - 1,
    readsBody_of_eq read (by simpa [bracedParts] using clean) ended, ?_, ?_, ?_⟩
  · rw [stored]
    exact content_after _ _ _ _ _
  · rw [read]
    exact isBlock_after _ _ _ _ _
  · rw [stored, read]
    refine Arena.sameBelow_store (extends_after _ _ _ _ [.child .statement tree]) ?_
    exact (Arena.extends_add _ _ _).trans
      (extends_after _ _ _ _ (bracedParts tree opening closing))

/-- An `if` with both branches, where a body has to be a block. -/
theorem IsBraced.scope_enclosed_if :
    let text := "\x7b\nif (a) b else -c;\x7d".toList
    let braced := Session.start text (lexemes text)
    let tokens := (braced.cursor.rest.drop 1).dropLast
    let bare := { braced with cursor := .ofList tokens (.endMark 19) }
    let opening : Lexeme := ⟨.openCurlyBrace, 0, "\x7b".toList⟩
    let closing : Lexeme := ⟨.closeCurlyBrace, 19, "\x7d".toList⟩
    IsBraced bare braced tokens opening closing ∧ bare.mode.lineBreaksIgnored = false
      ∧ bare.ReadsBody true 17
      ∧ ((bare.scope true).2.document.content 17).form? = some .simpleScope
      ∧ ∃ scope statement own, braced.ReadsBody false scope
        ∧ (bare.scope true).2.document.content 17 = .branch .simpleScope [(.statement, statement)]
        ∧ (braced.scope false).2.document.IsBlock scope own opening closing
        ∧ (bare.scope true).2.document.SameBelow (braced.scope false).2.document statement own := by
  intro text braced tokens bare opening closing
  have around : IsBraced bare braced tokens opening closing :=
    ⟨rfl, rfl, ⟨19, rfl⟩, ⟨20, by decide⟩, rfl, rfl⟩
  have reads : bare.ReadsBody true 17 := ⟨by decide, by decide, by decide⟩
  have simple : ((bare.scope true).2.document.content 17).form? = some .simpleScope := by decide
  exact ⟨around, rfl, reads, simple, around.scope_enclosed rfl reads simple false⟩

end Session

end RSource
