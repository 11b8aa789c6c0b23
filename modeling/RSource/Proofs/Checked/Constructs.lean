/-
**What the routines give for constructs and scopes.**

The routines of `RSource.Proofs.Checked.Phrases` read what stands in a line; here are those that a
keyword or a bracket opens. A keyword routine is only ever called where the current token is that
keyword, a closing token is only asked for behind the token that opened, and line breaks, braces and
levels are counted back behind every section.
-/

import RSource.Proofs.Checked.Phrases

namespace RSource

namespace Checked

open Grammar Reader

variable {levels minimum : Nat} {role : Role} {mode : Mode}
  {first second third last : Cursor Lexeme} {parts : List Part} {tree : Tree}

/-! ### Single tokens -/

theorem yields_expect {kind : TokenKind} {problem : ProblemKind}
    (run : Derives (.expected (isOfKind kind) role problem) mode first parts last) :
    Yields (fun _ => expect kind problem) kept levels mode first parts last := by
  rintro source session before ⟨faithful, rfl, deep⟩
  exact gives_expect faithful.marked run

theorem yields_close {delimiter : Delimiter}
    (run : Derives (.expected (isOfKind delimiter.closer) role (.closerMissing delimiter)) mode
      first parts last) :
    Yields (fun _ => close delimiter.opener) kept levels mode first parts last := by
  rintro source session before ⟨faithful, rfl, deep⟩
  exact gives_close faithful.marked run

theorem yields_linkWord
    (run : Derives (.expected isIn .inKeyword .inKeywordExpected) mode first parts last) :
    Yields linkWord kept levels mode first parts last := by
  rintro source session before ⟨faithful, rfl, deep⟩
  exact gives_linkWord faithful run

/-! ### Groups -/

theorem Yields.group {inner close : List Part}
    (opens : (look mode first).kind = .openBrace)
    (read : Derives (.operand levels 0 .expression) mode.bracketed (past mode first) inner second)
    (closed : Derives (.expected (isOfKind .closeBrace) .closeBrace .closeBraceExpected)
      mode.bracketed second close last)
    (found : Yields (Checked.operand 0) kept levels mode.bracketed (past mode first) inner second) :
    Yields primary kept levels mode first [.child role (.ofParts .group
      (.child .openBrace (leafAt mode first) :: (inner ++ close)))] last := by
  rintro source session before ⟨faithful, rfl, deep⟩
  have within := faithful.past session.mode
  have closing : Yields (fun _ => Checked.close Delimiter.brace.opener) kept levels
    session.mode.bracketed second close last := yields_close closed
  rw [primary]
  refine (gives_current faithful.marked).bind ?_
  refine .of_neg (by simp [opens, TokenKind.isLiteral]) (.of_pos (beq_iff_eq.mpr opens) ?_)
  refine .bind ?_ (gives_pure _ _)
  rw [Checked.group]
  refine (gives_token_settled faithful.marked .openBrace).bind
    ((gives_bracketed session _ _).bind ?_)
  refine (found source (inMode session session.mode.bracketed) _ ⟨within, rfl, deep⟩).bind ?_
  refine (closing source (inMode session session.mode.bracketed) _
    ⟨within.derives read, rfl, deep⟩).bind ?_
  refine (gives_unbracketed session _ _).bind (gives_addOver role (by simp) ?_ (by simp) ?_ _)
  · rw [slot_kept _ (.inr read.isSingle_operand), slot_kept _ (.inr closed.isSingle_expected)]
    simp
  · simpa using ⟨areUpright_of_derives read, areUpright_of_derives closed⟩

/-! ### Bodies -/

theorem gives_enterBraces (session : Session) (last : Cursor Lexeme) (parts : List Part) :
    Gives enterBraces (after session last parts) ()
      (after (inMode session ⟨session.mode.lineBreaksIgnored, session.mode.braceDepth + 1⟩) last
        parts) := rfl

theorem gives_leaveBraces (session : Session) (last : Cursor Lexeme) (parts : List Part) :
    Gives leaveBraces
      (after (inMode session ⟨session.mode.lineBreaksIgnored, session.mode.braceDepth + 1⟩) last
        parts) () (after session last parts) :=
  (gives_get _).bind ((gives_lift rfl).bind (gives_modify _ _))

/-- Between braces line breaks end statements again. -/
theorem gives_lined (session : Session) (last : Cursor Lexeme) (parts : List Part) :
    Gives (setLineBreaksIgnored false)
      (after (inMode session ⟨session.mode.lineBreaksIgnored, session.mode.braceDepth + 1⟩) last
        parts) session.mode.lineBreaksIgnored
      (after (inMode session session.mode.braced) last parts) := rfl

theorem gives_unlined (session : Session) (last : Cursor Lexeme) (parts : List Part) :
    Gives (setLineBreaksIgnored session.mode.lineBreaksIgnored)
      (after (inMode session session.mode.braced) last parts) false
      (after (inMode session ⟨session.mode.lineBreaksIgnored, session.mode.braceDepth + 1⟩) last
        parts) := rfl

theorem Yields.block {items close : List Part}
    (read : Derives (.statements (some .closeCurlyBrace) levels) mode.braced (past mode first) items
      second)
    (closed : Derives (.expected (isOfKind .closeCurlyBrace) .closeCurly .closeBraceExpected)
      mode.braced second close last)
    (found : Yields (statementRounds (some .closeCurlyBrace) []) idsOf levels mode.braced
      (past mode first) items second) :
    Yields block nodeOf levels mode first [.child role (.ofParts .scope
      (.child .openCurly (leafAt mode first) :: (items ++ close)))] last := by
  rintro source session before ⟨faithful, rfl, deep⟩
  have within := faithful.past session.mode
  have closing : Yields (fun _ => Checked.close Delimiter.curlyBrace.opener) kept levels
    session.mode.braced second close last := yields_close closed
  rw [Checked.block]
  refine (gives_token faithful.marked .openCurly).bind ((gives_enterBraces session _ _).bind
    ((gives_lined session _ _).bind ?_))
  refine (found source (inMode session session.mode.braced) _ ⟨within, rfl, deep⟩).bind ?_
  refine (closing source (inMode session session.mode.braced) _
    ⟨within.derives read, rfl, deep⟩).bind ?_
  refine (gives_unlined session _ _).bind ((gives_leaveBraces session _ _).bind ?_)
  refine gives_addOver role (by simp) ?_ (by simp) ?_ _
  · rw [slot_kept _ (.inr closed.isSingle_expected), map_idsOf _ read.isEntry_statements]
    simp
  · simpa using ⟨areUpright_of_derives read, areUpright_of_derives closed⟩

/-- A block may always be a body. -/
theorem Yields.blockBody (allowsSimple : Bool)
    (opens : (look mode (beyond first)).kind = .openCurlyBrace)
    (found : Yields Checked.block nodeOf levels mode (settle mode (beyond first))
      [.child role tree] last) :
    Yields (scope allowsSimple) kept levels mode first [.child role tree] last := by
  rintro source session before ⟨faithful, rfl, deep⟩
  have here := faithful.beyond
  rw [scope]
  refine (gives_skipLineBreaks faithful.marked).bind ((gives_current here.marked).bind ?_)
  refine .of_pos (beq_iff_eq.mpr opens) ?_
  exact (found source session before ⟨here.settle _, rfl, deep⟩).bind (gives_pure _ _)

section SimpleBody

variable (other : (look mode (beyond first)).kind ≠ .openCurlyBrace)
include other

theorem Yields.simpleBody
    (found : Yields statement kept levels mode (settle mode (beyond first))
      [.child .statement tree] last) :
    Yields (Checked.scope true) kept levels mode first
      [.child role (.ofParts .simpleScope [.child .statement tree])] last := by
  rintro source session before ⟨faithful, rfl, deep⟩
  have here := faithful.beyond
  have stored := found source session before ⟨here.settle _, rfl, deep⟩
  have lies : Lies (grown session.document.nodes (before ++ [.child .statement tree]))
      (nodeOf (grown session.document.nodes before) [.child .statement tree]) tree.span := by
    rw [grown_append]
    exact lies_last tree _
  have added := gives_add session last before [.child .statement tree] role .simpleScope tree.span
  rw [kept_child] at stored ⊢
  rw [nodeOf_ofParts]
  rw [Checked.scope]
  refine (gives_skipLineBreaks faithful.marked).bind ((gives_current here.marked).bind ?_)
  refine .of_neg (by simpa using other) (.of_neg (by simp) (stored.bind ?_))
  exact (gives_spanAt lies).bind (added.bind (gives_pure _ _))

theorem Yields.noBody
    (found : Yields Checked.statement kept levels mode (settle mode (beyond first)) [] last) :
    Yields (Checked.scope true) kept levels mode first
      [.problem ⟨.statementExpected, (look mode (beyond first)).token⟩ []] last := by
  rintro source session before ⟨faithful, rfl, deep⟩
  have here := faithful.beyond
  have nothing := found source session before ⟨here.settle _, rfl, deep⟩
  rw [List.append_nil] at nothing
  rw [Checked.scope]
  refine (gives_skipLineBreaks faithful.marked).bind ((gives_current here.marked).bind ?_)
  refine .of_neg (by simpa using other) (.of_neg (by simp) (nothing.bind ?_))
  exact (gives_report session _ before .statementExpected _ []).bind (gives_pure _ _)

end SimpleBody

/-! ### Heads -/

/-- Reading what stands in a head, behind a bracket that is there and ends at `anchor`. -/
def YieldsContents (construct : Construct) (anchor levels : Nat) (mode : Mode)
    (first : Cursor Lexeme) (parts : List Part) (last : Cursor Lexeme) : Prop :=
  ∀ source session before opening span, Ready source session levels mode first →
    Lies (grown session.document.nodes before) opening span → span.stop = anchor →
    Gives (contents construct opening source) (after session first before)
      (slotsOf (grown session.document.nodes before) parts) (after session last (before ++ parts))

section Contents

variable {anchor : Nat} {close : List Part}
  (closed : Derives (.expected (isOfKind .closeBrace) .closeBrace .closeBraceExpected) mode third
    close last)
include closed

theorem YieldsContents.condition {construct : Construct} {tested : List Part}
    (tests : construct.hasCondition = true)
    (read : Derives (.operand levels 0 .condition) mode first tested third)
    (found : Yields (operand 0) kept levels mode first tested third) :
    YieldsContents construct anchor levels mode first (tested ++ close) last := by
  rintro source session before opening span ⟨faithful, rfl, deep⟩ lies ends
  have closing : Yields (fun _ => Checked.close Delimiter.brace.opener) kept levels session.mode
    third close last := yields_close closed
  rw [contents]
  · refine (found source session before ⟨faithful, rfl, deep⟩).bind
      ((closing source session _ ⟨faithful.derives read, rfl, deep⟩).bind
        ((gives_pure _ _).congr ?_ ?_))
    · rw [slot_kept _ (.inr read.isSingle_operand), slot_kept _ (.inr closed.isSingle_expected)]
      simp
    · simp
  · rintro rfl
    cases tests
  · rintro rfl
    cases tests

theorem YieldsContents.iteration {counter link range : List Part} {fourth : Cursor Lexeme}
    (named : Derives (.expected (isOfKind .identifier) .loopVariable .identifierExpected) mode
      first counter second)
    (linked : Derives (.expected isIn .inKeyword .inKeywordExpected) mode second link fourth)
    (read : Derives (.operand levels 0 .sequence) mode fourth range third)
    (found : Yields (operand 0) kept levels mode fourth range third) :
    YieldsContents .forLoop anchor levels mode first (counter ++ link ++ range ++ close) last := by
  rintro source session before opening span ⟨faithful, rfl, deep⟩ lies ends
  have counted : Yields (fun _ => expect .identifier .identifierExpected) kept levels session.mode
    first counter second := yields_expect named
  have word : Yields linkWord kept levels session.mode second link fourth := yields_linkWord linked
  have closing : Yields (fun _ => Checked.close Delimiter.brace.opener) kept levels session.mode
    third close last := yields_close closed
  have afterName := faithful.derives named
  have afterWord := afterName.derives linked
  rw [contents]
  refine (counted source session before ⟨faithful, rfl, deep⟩).bind
    ((word source session _ ⟨afterName, rfl, deep⟩).bind
      ((found source session _ ⟨afterWord, rfl, deep⟩).bind
        ((closing source session _ ⟨afterWord.derives read, rfl, deep⟩).bind
          ((gives_pure _ _).congr ?_ ?_))))
  · rw [slot_kept _ (.inr named.isSingle_expected), slot_kept _ (.inr linked.isSingle_expected),
      slot_kept _ (.inr read.isSingle_operand), slot_kept _ (.inr closed.isSingle_expected)]
    simp
  · simp

theorem YieldsContents.formals {list : List Part}
    (read : Derives (.arguments .formals .brace levels anchor .formals) mode first list third)
    (found : Yields (argumentList .formals .openBrace anchor) nodeOf levels mode first list
      third) :
    YieldsContents .functionDefinition anchor levels mode first (list ++ close) last := by
  rintro source session before opening span ⟨faithful, rfl, deep⟩ lies rfl
  have closing : Yields (fun _ => Checked.close Delimiter.brace.opener) kept levels session.mode
    third close last := yields_close closed
  obtain ⟨tree, rfl⟩ := read.exists_list
  rw [contents]
  refine (gives_spanAt lies).bind ((found source session before ⟨faithful, rfl, deep⟩).bind
    ((closing source session _ ⟨faithful.derives read, rfl, deep⟩).bind
      ((gives_pure _ _).congr ?_ ?_)))
  · rw [slot_kept _ (.inr closed.isSingle_expected)]
    simp
  · simp

end Contents

theorem Yields.opened {construct : Construct} {inner : List Part}
    (opens : (look mode first).kind = .openBrace)
    (found : YieldsContents construct (look mode first).stop levels mode.bracketed
      (past mode first) inner last) :
    Yields (head construct) slotsOf levels mode first
      (.child .openBrace (leafAt mode first) :: inner) last := by
  rintro source session before ⟨faithful, rfl, deep⟩
  have taken : Derives (.expected (isOfKind .openBrace) .openBrace .openBraceExpected) session.mode
      first [.child .openBrace (leafAt session.mode first)] (past session.mode first) :=
    .found (beq_iff_eq.mpr opens) (isReadable_of_kind opens (by decide))
  have opening : Gives (expect .openBrace .openBraceExpected) (after session first before) _ _ :=
    gives_expect faithful.marked taken
  have lies : Lies (grown session.document.nodes
      (before ++ [.child .openBrace (leafAt session.mode first)]))
      (nodeOf (grown session.document.nodes before)
        [.child .openBrace (leafAt session.mode first)]) (leafAt session.mode first).span := by
    rw [grown_append]
    exact lies_last _ _
  rw [kept_child] at opening
  rw [head]
  refine opening.bind ((gives_bracketed session _ _).bind ((found source (inMode session
    session.mode.bracketed) _ _ _ ⟨faithful.past _, rfl, deep⟩ lies rfl).bind
    ((gives_unbracketed session _ _).bind ((gives_pure _ _).congr ?_ ?_))))
  · simp
  · simp

theorem Yields.unopened {construct : Construct} (other : (look mode first).kind ≠ .openBrace) :
    Yields (head construct) slotsOf levels mode first
      [.problem ⟨.openBraceExpected, (look mode first).token⟩ []] (settle mode first) := by
  rintro source session before ⟨faithful, rfl, deep⟩
  have missing : Derives (.expected (isOfKind .openBrace) .openBrace .openBraceExpected)
      session.mode first [.problem ⟨.openBraceExpected, (look session.mode first).token⟩ []]
      (settle session.mode first) := .missing (beq_eq_false_iff_ne.mpr other)
  rw [head]
  exact (gives_expect faithful.marked missing).bind (gives_pure _ _)

/-! ### The branch of an `else` -/

theorem Yields.elseBranch {other : List Part} (seen : seesElse mode first = true)
    (read : Derives (.body levels .elseBody) mode (past mode (beyond first)) other last)
    (found : Yields (scope true) kept levels mode (past mode (beyond first)) other last) :
    Yields elseBranch slotsOf levels mode first
      (.child .elseKeyword (leafAt mode (beyond first)) :: other) last := by
  rintro source session before ⟨faithful, rfl, deep⟩
  have here := faithful.beyond
  have keyword : (look session.mode (beyond first)).kind = .keyword := by
    have word := look_beyond_of_seesElse seen
    exact eq_of_beq (Bool.and_eq_true_iff.mp word).1
  have sighted : Gives source.atElse (after session first before) _ _ := gives_atElse faithful
  rw [if_pos seen] at sighted
  rw [Checked.elseBranch]
  refine sighted.bind (.of_pos seen ((gives_keyword here.marked .elseKeyword keyword).bind
    ((found source session _ ⟨here.past _, rfl, deep⟩).bind ((gives_pure _ _).congr ?_ ?_))))
  · rw [slot_kept _ (.inr read.isSingle_body)]
    simp
  · simp

theorem Yields.noElse (unseen : seesElse mode first = false) :
    Yields Checked.elseBranch slotsOf levels mode first [] first := by
  rintro source session before ⟨faithful, rfl, deep⟩
  have sighted : Gives source.atElse (after session first before) _ _ := gives_atElse faithful
  rw [if_neg (Bool.eq_false_iff.mp unseen)] at sighted
  rw [Checked.elseBranch, List.append_nil]
  exact sighted.bind (.of_neg (Bool.eq_false_iff.mp unseen) (gives_pure _ _))

/-! ### Constructs -/

/-- Reading a construct where its keyword is the current token. -/
def YieldsConstruct (construct : Construct) (levels : Nat) (mode : Mode) (first : Cursor Lexeme)
    (parts : List Part) (last : Cursor Lexeme) : Prop :=
  (look mode first).kind = .keyword → Construct.ofWord? (look mode first).text = some construct →
    Yields Checked.construct kept levels mode first parts last

/-- The word at the cursor says which construct is read. -/
theorem YieldsConstruct.of_begun {construct : Construct}
    (begins : ∀ source session before, Ready source session levels mode first →
      (look mode first).kind = .keyword →
      Gives (begun construct (look mode first) source) (after session (settle mode first) before)
        (nodeOf (grown session.document.nodes before) [.child role tree])
        (after session last (before ++ [.child role tree]))) :
    YieldsConstruct construct levels mode first [.child role tree] last := by
  rintro word known source session before ⟨faithful, rfl, deep⟩
  have read := begins source session before ⟨faithful, rfl, deep⟩ word
  have shown : Gives (source.textOf (look session.mode first))
      (after session (settle session.mode first) before) _ _ :=
    gives_textOf (faithful.look session.mode) (by rw [word]; decide)
  rw [Checked.construct]
  refine (gives_current faithful.marked).bind (shown.bind ?_)
  rw [known, kept_child]
  exact read.bind (gives_pure _ _)

theorem YieldsConstruct.ifElse {top main other : List Part}
    (begins : Derives (.head .ifElse levels) mode (past mode first) top second)
    (body : Derives (.body levels .body) mode second main third)
    (branch : Derives (.elseBranch levels) mode third other last)
    (head : Yields (head .ifElse) slotsOf levels mode (past mode first) top second)
    (scope : Yields (scope true) kept levels mode second main third)
    (otherwise : Yields elseBranch slotsOf levels mode third other last) :
    YieldsConstruct .ifElse levels mode first [.child role (.ofParts .ifElse
      (.child .keyword (leafAt mode first) :: (top ++ main ++ other)))] last := by
  refine .of_begun fun source session before ready word => ?_
  obtain ⟨faithful, rfl, deep⟩ := ready
  have afterWord := faithful.past session.mode
  have afterHead := afterWord.derives begins
  rw [begun, Checked.ifElse]
  refine (gives_keyword_settled faithful.marked .keyword word).bind
    ((head source session _ ⟨afterWord, rfl, deep⟩).bind
      ((scope source session _ ⟨afterHead, rfl, deep⟩).bind
        ((otherwise source session _ ⟨afterHead.derives body, rfl, deep⟩).bind
          (gives_addOver role (by simp) ?_ (by simp) ?_ _))))
  · rw [slot_kept _ (.inr body.isSingle_body)]
    simp
  · simpa using ⟨areUpright_of_derives begins, areUpright_of_derives body,
      areUpright_of_derives branch⟩

theorem YieldsConstruct.headed {construct : Construct} {top main : List Part}
    (isHeaded : construct.isHeaded = true)
    (begins : Derives (.head construct levels) mode (past mode first) top second)
    (body : Derives (.body levels .body) mode second main last)
    (head : Yields (Checked.head construct) slotsOf levels mode (past mode first) top second)
    (scope : Yields (Checked.scope true) kept levels mode second main last) :
    YieldsConstruct construct levels mode first [.child role (.ofParts construct.form
      (.child .keyword (leafAt mode first) :: (top ++ main)))] last := by
  refine .of_begun fun source session before ready word => ?_
  obtain ⟨faithful, rfl, deep⟩ := ready
  have routine : begun construct (look session.mode first) source
      = Checked.headed construct construct.form source := by
    cases construct with
    | forLoop | whileLoop | functionDefinition => rw [begun]; rfl
    | _ => cases isHeaded
  have afterWord := faithful.past session.mode
  rw [routine, Checked.headed]
  refine (gives_keyword_settled faithful.marked .keyword word).bind
    ((head source session _ ⟨afterWord, rfl, deep⟩).bind
      ((scope source session _ ⟨afterWord.derives begins, rfl, deep⟩).bind
        (gives_addOver role (by simp) ?_ (by simp) ?_ _)))
  · rw [slot_kept _ (.inr body.isSingle_body)]
    simp
  · simpa using ⟨areUpright_of_derives begins, areUpright_of_derives body⟩

theorem YieldsConstruct.repeatLoop {main : List Part}
    (body : Derives (.body levels .body) mode (past mode first) main last)
    (scope : Yields (Checked.scope true) kept levels mode (past mode first) main last) :
    YieldsConstruct .repeatLoop levels mode first [.child role (.ofParts .repeatLoop
      (.child .keyword (leafAt mode first) :: main))] last := by
  refine .of_begun fun source session before ready word => ?_
  obtain ⟨faithful, rfl, deep⟩ := ready
  rw [begun, repeated]
  refine (gives_keyword_settled faithful.marked .keyword word).bind
    ((scope source session _ ⟨faithful.past _, rfl, deep⟩).bind
      (gives_addOver role (by simp) ?_ (by simp) ?_ _))
  · rw [slot_kept _ (.inr body.isSingle_body)]
    simp
  · simpa using areUpright_of_derives body

theorem YieldsConstruct.word {construct : Construct} (isWord : construct.isWord = true) :
    YieldsConstruct construct levels mode first [.child role (.ofParts construct.form
      [.child .keyword (leafAt mode first)])] (past mode first) := by
  refine .of_begun fun source session before ready word => ?_
  obtain ⟨faithful, rfl, deep⟩ := ready
  have routine : begun construct (look session.mode first) source
      = wordAlone construct.form (look session.mode first) := by
    cases construct with
    | breakLoop | nextRound => rw [begun]; rfl
    | _ => cases isWord
  have added := gives_add session (past session.mode first) before
    [.child .keyword (leafAt session.mode first)] role construct.form
    (look session.mode first).span
  rw [slotsOf_child, slotsOf_nil, nodeOf_leafAt] at added
  rw [routine, wordAlone, nodeOf_ofParts]
  exact (gives_keyword_settled faithful.marked .keyword word).bind
    ((gives_lift (if_pos (Nat.le_add_right _ _))).bind added)

/-! ### What an expression begins with -/

theorem Yields.noPrimary (other : beginsPrimary (look mode first) = false)
    (none : (look mode first).kind = .keyword →
      Construct.ofWord? (look mode first).text = none) :
    Yields primary kept levels mode first [] (settle mode first) := by
  rintro source session before ⟨faithful, rfl, deep⟩
  rw [beginsPrimary, Bool.or_eq_false_iff, Bool.or_eq_false_iff, isAtom] at other
  obtain ⟨⟨atom, bracket⟩, curly⟩ := other
  rw [primary, List.append_nil]
  refine (gives_current faithful.marked).bind (.of_neg (Bool.eq_false_iff.mp atom)
    (.of_neg (Bool.eq_false_iff.mp bracket) (.of_neg (Bool.eq_false_iff.mp curly) ?_)))
  by_cases word : (look session.mode first).kind = .keyword
  · have shown : Gives (source.textOf (look session.mode first))
        (after session (settle session.mode first) before) _ _ :=
      gives_textOf (faithful.look session.mode) (by rw [word]; decide)
    rw [Checked.construct]
    refine .of_pos (beq_iff_eq.mpr word) ((gives_current_settled faithful.marked).bind
      (shown.bind ?_))
    rw [none word]
    exact gives_pure _ _
  · exact .of_neg (by simpa using word) (gives_pure _ _)

theorem Yields.atom (atom : isAtom (look mode first) = true) :
    Yields primary kept levels mode first [.child role (leafAt mode first)] (past mode first) := by
  rintro source session before ⟨faithful, rfl, deep⟩
  rw [primary, kept_child, nodeOf_leafAt]
  exact (gives_current faithful.marked).bind
    (.of_pos atom ((gives_token_settled faithful.marked role).bind (gives_pure _ _)))

theorem Yields.blockPrimary (opens : (look mode first).kind = .openCurlyBrace)
    (found : Yields Checked.block nodeOf levels mode (settle mode first) [.child role tree] last) :
    Yields primary kept levels mode first [.child role tree] last := by
  rintro source session before ⟨faithful, rfl, deep⟩
  have stays : beyond (settle session.mode first) = settle session.mode first :=
    Cursor.skipWhile_of_current (isLineBreak_of_kind opens (by decide))
  have read : Yields (scope false) kept levels session.mode (settle session.mode first)
      [.child role tree] last :=
    .blockBody false (by rw [stays, look_settle, opens]) (by rwa [stays, settle_settle])
  rw [primary]
  refine (gives_current faithful.marked).bind ?_
  refine .of_neg (by simp [opens, TokenKind.isLiteral]) (.of_neg (by simp [opens])
    (.of_pos (beq_iff_eq.mpr opens) ?_))
  exact read source session before ⟨faithful.settle _, rfl, deep⟩

theorem Yields.constructPrimary {construct : Construct}
    (word : (look mode first).kind = .keyword)
    (begins : Construct.ofWord? (look mode first).text = some construct)
    (found : YieldsConstruct construct levels mode (settle mode first) parts last) :
    Yields primary kept levels mode first parts last := by
  rintro source session before ⟨faithful, rfl, deep⟩
  have read := found (by rwa [look_settle]) (by rwa [look_settle]) source session before
    ⟨faithful.settle _, rfl, deep⟩
  rw [primary]
  refine (gives_current faithful.marked).bind ?_
  refine .of_neg (by simp [word, TokenKind.isLiteral]) (.of_neg (by simp [word])
    (.of_neg (by simp [word]) (.of_pos (beq_iff_eq.mpr word) read)))

/-! ### Statements -/

theorem Yields.noStatement (found : Yields (Checked.expression 0) kept levels mode first [] last) :
    Yields statement kept levels mode first [] last := by
  intro source session before ready
  rw [statement]
  exact (found source session before ready).bind (gives_pure _ _)

theorem Yields.statement {semicolon : List Part}
    (read : Derives (.expression levels 0 .expression) mode first [.child .expression tree] second)
    (ended : Derives (.optional (isOfKind .semicolon) .semicolon) mode second semicolon last)
    (found : Yields (Checked.expression 0) kept levels mode first [.child .expression tree]
      second) :
    Yields Checked.statement kept levels mode first
      [.child role (.ofParts .statement (.child .expression tree :: semicolon))] last := by
  rintro source session before ⟨faithful, rfl, deep⟩
  have taken := found source session before ⟨faithful, rfl, deep⟩
  rw [kept_child] at taken ⊢
  rw [Checked.statement]
  refine taken.bind ((gives_optionalToken (faithful.derives read).marked ended).bind
    (gives_addUnlessEmpty role (by simp) ?_ (by simp) ?_))
  · rw [slot_kept _ (single_optional ended)]
    simp
  · simpa [areUpright_of_derives ended] using areUpright_of_derives read

/-- A statement is stored as one with a semicolon or without one. -/
theorem exists_statement
    (run : Derives (.statement levels role) mode first [.child role tree] last) :
    ∃ parts, tree = .ofParts .statement parts := by
  cases run with
  | statement _ _ => exact ⟨_, rfl⟩

section Separators

variable {session : Session} {before : List Part} (marked : first.mark.kind = .endOfStream)
include marked

/-- Line breaks separate statements as well, so that ignoring them makes no difference here. -/
theorem gives_pastSeparators :
    Gives (skipping isSeparator) (after session first before) ()
      (after session (pastSeparators first) before) := by
  have same : passes session.mode isSeparator = isSeparator := by
    funext lexeme
    cases breaks : isLineBreak lexeme with
    | false => simp [passes, breaks]
    | true => simp [passes, isSeparator_of_isLineBreak breaks]
  have skipped : Gives (skipping isSeparator) (after session first before) () _ :=
    gives_skipping marked fun lexeme ended => by simp [isSeparator, ended]
  rwa [same] at skipped

theorem gives_skipToBoundary :
    Gives skipToBoundary (after session first before) ()
      (after session (boundary session.mode first) before) := by
  have same :
      passes session.mode (!endsLine ·) = fun lexeme => !isBoundary session.mode lexeme := by
    funext lexeme
    simp only [passes, isLineBreak, endsLine, isBoundary]
    cases session.mode.lineBreaksIgnored <;> cases lexeme.kind <;> rfl
  have skipped : Gives (skipping (!endsLine ·)) (after session first before) () _ :=
    gives_skipping marked fun lexeme ended => by simp [endsLine, ended]
  rwa [same] at skipped

end Separators

section Listing

variable {terminator : Option TokenKind}

/-- The loop over statements, behind those taken so far. -/
abbrev StatementLoop (terminator : Option TokenKind) :=
  Continues (statementRounds terminator []) id (statementRounds terminator) idsOf

theorem StatementLoop.start : StatementLoop terminator levels mode first [] first := by
  intro source session before value final ready further
  rwa [List.append_nil] at further

variable (run : Derives (.listing terminator levels) mode first parts second)
  (loop : StatementLoop terminator levels mode first parts second)
include run loop

theorem StatementLoop.stop
    (ended : endsBlock terminator (look mode (pastSeparators second)) = true) :
    Yields (statementRounds terminator []) idsOf levels mode first parts
      (settle mode (pastSeparators second)) := by
  rintro source session before ⟨faithful, rfl, deep⟩
  have behind := faithful.derives run
  refine loop source session before (idsOf _ _) _ ⟨faithful, rfl, deep⟩ ?_
  rw [statementRounds]
  exact (gives_pastSeparators behind.marked).bind
    ((gives_current behind.pastSeparators.marked).bind (.of_pos ended (gives_pure _ _)))

variable (goesOn : endsBlock terminator (look mode (pastSeparators second)) = false)
include goesOn

theorem StatementLoop.stray (closes : (look mode (pastSeparators second)).kind = .closeCurlyBrace) :
    StatementLoop terminator levels mode first
      (parts ++ [.problem ⟨.unexpectedToken, (look mode (pastSeparators second)).token⟩
        [look mode (pastSeparators second)]]) (past mode (pastSeparators second)) := by
  rintro source session before value final ⟨faithful, rfl, deep⟩ further
  have behind := faithful.derives run
  have here := behind.pastSeparators
  refine loop source session before value final ⟨faithful, rfl, deep⟩ ?_
  rw [statementRounds]
  refine (gives_pastSeparators behind.marked).bind ((gives_current here.marked).bind
    (.of_neg (Bool.eq_false_iff.mp goesOn) (.of_pos (beq_iff_eq.mpr closes) ?_)))
  refine (gives_report session _ _ .unexpectedToken _
    [look session.mode (pastSeparators second)]).bind ((gives_advance_settled here.marked).bind ?_)
  simpa using further

variable (other : (look mode (pastSeparators second)).kind ≠ .closeCurlyBrace)
include other

/-- Where no statement can be read its line is passed over. -/
theorem StatementLoop.unreadable
    (read : Derives (.statement levels .statements) mode (settle mode (pastSeparators second)) []
      last)
    (found : Yields Checked.statement kept levels mode (settle mode (pastSeparators second)) []
      last) :
    StatementLoop terminator levels mode first
      (parts ++ [.problem ⟨.unexpectedToken, (look mode (pastSeparators second)).token⟩
        (look mode last :: lineRest mode (past mode last))]) (boundary mode (past mode last)) := by
  rintro source session before value final ⟨faithful, rfl, deep⟩ further
  have behind := faithful.derives run
  have here := behind.pastSeparators
  have there := (here.settle session.mode).derives read
  have nothing := found source session (before ++ parts) ⟨here.settle _, rfl, deep⟩
  rw [List.append_nil] at nothing
  refine loop source session before value final ⟨faithful, rfl, deep⟩ ?_
  rw [statementRounds]
  refine (gives_pastSeparators behind.marked).bind ((gives_current here.marked).bind
    (.of_neg (Bool.eq_false_iff.mp goesOn) (.of_neg (by simpa using other) (nothing.bind ?_))))
  refine (gives_report session _ _ .unexpectedToken _
    (look session.mode last :: lineRest session.mode (past session.mode last))).bind
    ((gives_advance there.marked).bind ((gives_skipToBoundary (there.past _).marked).bind ?_))
  simpa using further

section Listed

variable
  (read : Derives (.statement levels .statements) mode (settle mode (pastSeparators second))
    [.child .statements tree] last)
  (found : Yields Checked.statement kept levels mode (settle mode (pastSeparators second))
    [.child .statements tree] last)
include read found

/-- After a statement the loop looks for what separates it from the next one. -/
theorem StatementLoop.statement {source : Checked} {session : Session} {before : List Part}
    {value : List NodeId} {final : Session} (ready : Ready source session levels mode first)
    (further : Gives (do
        if isSeparated mode tree last then
          statementRounds terminator (idsOf (grown session.document.nodes before)
            (parts ++ [.child .statements tree])) source
        else
          report .unexpectedToken (look mode last)
          skipToBoundary
          statementRounds terminator (idsOf (grown session.document.nodes before)
            (parts ++ [.child .statements tree])) source : Steps (List NodeId))
      (after session (settle mode last) (before ++ (parts ++ [.child .statements tree]))) value
      final) :
    Gives (statementRounds terminator [] source) (after session first before) value final := by
  obtain ⟨faithful, rfl, deep⟩ := ready
  have behind := faithful.derives run
  have here := behind.pastSeparators
  have there := (here.settle session.mode).derives read
  have taken := found source session (before ++ parts) ⟨here.settle _, rfl, deep⟩
  obtain ⟨own, rfl⟩ := exists_statement read
  rw [kept_child] at taken
  refine loop source session before value final ⟨faithful, rfl, deep⟩ ?_
  rw [statementRounds]
  refine (gives_pastSeparators behind.marked).bind ((gives_current here.marked).bind
    (.of_neg (Bool.eq_false_iff.mp goesOn) (.of_neg (by simpa using other) (taken.bind ?_))))
  refine (gives_endsWithSemicolon session _ _ _ .statements).bind
    ((gives_current there.marked).bind ?_)
  simpa [isSeparated] using further

theorem StatementLoop.listed (separated : isSeparated mode tree last = true) :
    StatementLoop terminator levels mode first (parts ++ [.child .statements tree])
      (settle mode last) := by
  intro source session before value final ready further
  exact StatementLoop.statement run loop goesOn other read found ready (.of_pos separated further)

/-- What stands behind a statement on its line is passed over. -/
theorem StatementLoop.crowded (crowded : isSeparated mode tree last = false) :
    StatementLoop terminator levels mode first
      (parts ++ [.child .statements tree,
        .problem ⟨.unexpectedToken, (look mode last).token⟩ (lineRest mode (settle mode last))])
      (boundary mode (settle mode last)) := by
  rintro source session before value final ⟨faithful, rfl, deep⟩ further
  have there := ((faithful.derives run).pastSeparators.settle session.mode).derives read
  refine StatementLoop.statement run loop goesOn other read found ⟨faithful, rfl, deep⟩
    (.of_neg (Bool.eq_false_iff.mp crowded) ?_)
  refine (gives_report session _ _ .unexpectedToken _
    (lineRest session.mode (settle session.mode last))).bind
    ((gives_skipToBoundary (there.settle session.mode).marked).bind ?_)
  simpa using further

end Listed

end Listing

end Checked

end RSource
