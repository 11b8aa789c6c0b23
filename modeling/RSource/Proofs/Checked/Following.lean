/-
**The routines follow the productions.**

Main statement: `performs_of_derives`. Whatever the productions give for some tokens, the routine of
that phrase gives from there on, in every session that is ready for it: it ends, no check fails, and
it stores what was derived. The induction goes over the derivation, so what shows that the recursion
of the routines and each of their loops end is that the derivation is finite.
-/

import RSource.Proofs.Checked.Constructs

namespace RSource

namespace Checked

open Grammar Reader

/-- What the routine of a phrase gives from a cursor on. -/
def Performs : Phrase → Mode → Cursor Lexeme → List Part → Cursor Lexeme → Prop
  | .expected _ _ _ | .optional _ _ => fun _ _ _ _ => True
  | .expression levels minimum _ => Yields (expression minimum) kept levels
  | .operand levels minimum _ => Yields (operand minimum) kept levels
  | .chain levels minimum _ => InfixLoop minimum levels
  | .leading levels _ => Yields leading kept levels
  | .postfixed levels _ => Yields postfixed kept levels
  | .suffixed levels _ => PostfixLoop levels
  | .primary levels _ => Yields primary kept levels
  | .construct construct levels _ => YieldsConstruct construct levels
  | .head construct levels => Yields (head construct) slotsOf levels
  | .contents construct levels anchor => YieldsContents construct anchor levels
  | .body levels _ => Yields (scope true) kept levels
  | .elseBranch levels => Yields elseBranch slotsOf levels
  | .arguments style delimiter levels anchor _ =>
    Yields (argumentList style delimiter.opener anchor) nodeOf levels
  | .items style delimiter levels => ItemLoop style delimiter levels
  | .item style levels => Yields (item style) slotsOf levels
  | .statement levels _ => Yields statement kept levels
  | .block levels _ => Yields block nodeOf levels
  | .statements terminator levels => Yields (statementRounds terminator []) idsOf levels
  | .listing terminator levels => StatementLoop terminator levels

variable {phrase : Phrase} {levels minimum : Nat} {role : Role} {mode : Mode}
  {first last : Cursor Lexeme} {parts : List Part}

/-- Below the last level no expression is opened. -/
theorem yields_below (run : Derives (.expression 0 minimum role) mode first parts last) :
    Yields (expression minimum) kept 0 mode first parts last := by
  intro source session before ready
  have full : session.nestingLimitReached = true :=
    decide_eq_true (Nat.le_of_sub_eq_zero ready.levels)
  rw [expression]
  exact (gives_get _).bind (.of_pos full (yields_tooDeep run source session before ready))

/-- The tree of a block is the only part. -/
theorem exists_block (run : Derives (.block levels role) mode first parts last) :
    ∃ tree, parts = [.child role tree] := by
  cases run with
  | block _ _ _ => exact ⟨_, rfl⟩

/-- **What is derived for some tokens, the routines give for them.** -/
theorem performs_of_derives (run : Derives phrase mode first parts last) :
    Performs phrase mode first parts last := by
  induction run with
  | found _ _ => trivial
  | missing _ => trivial
  | present _ _ => trivial
  | absent _ => trivial
  | cutNothing ends => exact @yields_below _ .expression _ _ _ _ (.cutNothing ends)
  | cutBracket goesOn opens => exact yields_below (.cutBracket goesOn opens)
  | cutToken goesOn single => exact yields_below (.cutToken goesOn single)
  | noExpression _ leading => exact .expression (.infixed_none leading)
  | expression chain ended loop => exact .expression (InfixLoop.stop chain loop ended)
  | chainStart _ leading => exact InfixLoop.start leading
  | chainMore chain next right loop operand => exact InfixLoop.more chain next right loop operand
  | operand _ expression => exact .operand expression
  | noOperand run expression => exact .operand_missing run expression
  | sign here run operand => exact .sign here run operand
  | unsigned here _ postfixed => exact .unsigned here postfixed
  | noPostfixed _ primary => exact .postfixed_none primary
  | postfixed run ended loop => exact PostfixLoop.stop run loop ended
  | suffixedStart _ primary => exact PostfixLoop.start primary
  | call run opens listed closed loop list _ =>
    exact PostfixLoop.call run opens listed closed loop list
  | index run square opens listed closed loop list _ =>
    exact PostfixLoop.index run square opens listed closed loop list
  | access run next name loop _ => exact PostfixLoop.access run next name loop
  | noPrimary other none => exact .noPrimary other none
  | atom atom => exact .atom atom
  | group opens read closed operand _ => exact .group opens read closed operand
  | blockPrimary opens run block =>
    obtain ⟨tree, rfl⟩ := exists_block run
    exact .blockPrimary opens block
  | constructPrimary word begins _ construct => exact .constructPrimary word begins construct
  | ifElse _ begins body branch head scope otherwise =>
    exact .ifElse begins body branch head scope otherwise
  | headed isHeaded _ begins body head scope => exact .headed isHeaded begins body head scope
  | repeatLoop _ body scope => exact .repeatLoop body scope
  | word isWord _ => exact .word isWord
  | opened opens _ contents => exact .opened opens contents
  | unopened other => exact .unopened other
  | condition tests read closed operand _ => exact .condition closed tests read operand
  | iteration named linked read closed _ _ operand _ =>
    exact .iteration closed named linked read operand
  | formals read closed list _ => exact .formals closed read list
  | blockBody opens run block =>
    obtain ⟨tree, rfl⟩ := exists_block run
    exact .blockBody true opens block
  | simpleBody other _ statement => exact .simpleBody other statement
  | noBody other _ statement => exact .noBody other statement
  | elseBranch seen read scope => exact .elseBranch seen read scope
  | noElse unseen => exact .noElse unseen
  | itemsStart => exact ItemLoop.start
  | itemsMore run goesOn read comma loop item => exact ItemLoop.more run goesOn read comma loop item
  | closedList run ended loop =>
    exact .argumentList run.isEntry_items (areUpright_of_derives run)
      (ItemLoop.closed run ended loop)
  | lastItem run goesOn read other filled loop item =>
    refine .argumentList ?_ ?_ (ItemLoop.final run goesOn read other filled loop item)
    · rw [List.forall_mem_append, List.forall_mem_singleton]
      exact ⟨run.isEntry_items, .child _⟩
    · rw [areUpright_append]
      exact ⟨areUpright_of_derives run, areUpright_ofParts (areUpright_of_derives read)⟩
  | noItem run goesOn read other empty loop item =>
    refine .argumentList ?_ ?_ (ItemLoop.none run goesOn read other empty loop item)
    · rw [List.forall_mem_append]
      exact ⟨run.isEntry_items, fun part member =>
        (read.isArgumentEntry_item part member).isEntry (span?_of_anyChild empty member)⟩
    · rw [areUpright_append]
      exact ⟨areUpright_of_derives run, areUpright_of_derives read⟩
  | named named read expression => exact .named named read expression
  | unnamed unnamed read expression => exact .unnamed unnamed read expression
  | formalDefault named equals read expression =>
    exact .formalDefault named equals read expression
  | formal named bare => exact .formal named bare
  | emptyFormal comma read expression => exact .emptyFormal comma read expression
  | misplacedFormal unnamed other read expression =>
    exact .misplacedFormal unnamed other read expression
  | noStatement _ expression => exact .noStatement expression
  | statement read ended expression _ => exact .statement read ended expression
  | block _ read closed statements _ => exact .block read closed statements
  | statements run ended loop => exact StatementLoop.stop run loop ended
  | listingStart => exact StatementLoop.start
  | stray run goesOn closes loop => exact StatementLoop.stray run loop goesOn closes
  | unreadable run goesOn other read loop statement =>
    exact StatementLoop.unreadable run loop goesOn other read statement
  | listed run goesOn other read separated loop statement =>
    exact StatementLoop.listed run loop goesOn other read statement separated
  | crowded run goesOn other read crowded loop statement =>
    exact StatementLoop.crowded run loop goesOn other read statement crowded

/-- All statements become the global scope. -/
theorem gives_globalScope {source : Checked} {session : Session} {items : List Part}
    (ready : Ready source session levels session.mode first)
    (run : Derives (.statements none levels) session.mode first items last) (before : List Part) :
    Gives source.globalScope (after session first before)
      (nodeOf (grown session.document.nodes before)
        [.child .globalScope (.node .globalScope ⟨0, source.text.bytes⟩ items)])
      (after session last
        (before ++ [.child .globalScope (.node .globalScope ⟨0, source.text.bytes⟩ items)])) := by
  have statements := performs_of_derives run source session before ready
  have added := gives_add session last before items .globalScope .globalScope
    ⟨0, source.text.bytes⟩
  rw [nodeOf_node]
  refine statements.bind ((gives_lift (if_pos (Nat.zero_le _))).bind ?_)
  rw [map_idsOf _ run.isEntry_statements]
  exact added

end Checked

end RSource
