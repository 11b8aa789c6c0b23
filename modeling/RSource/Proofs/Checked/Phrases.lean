/-
**What the routines give for a phrase.**

`Yields` says it once for all: a routine that reads some parts from a cursor on gives a value that
only depends on the nodes there, stores the parts and ends behind them, in whatever session it is
run. Loops are told round by round: what goes on behind the parts read so far goes on from the first
token (`Continues`). Each routine of the grammar has its lemma here, given those of the routines
that it calls.
-/

import RSource.Proofs.Checked.Nodes
import RSource.Proofs.Grammar.Shape

namespace RSource

namespace Checked

open Grammar Reader

/-- A session can read within some levels from a cursor on. -/
structure Ready (source : Checked) (session : Session) (levels : Nat) (mode : Mode)
    (first : Cursor Lexeme) : Prop where
  faithful : Faithful source.text first
  mode : session.mode = mode
  levels : maxNesting - session.nesting = levels

/-- The steps read parts up to a cursor; what they give depends on these and the nodes in front. -/
def Yields {α : Type} (steps : Checked → Steps α) (value : Arena → List Part → α) (levels : Nat)
    (mode : Mode) (first : Cursor Lexeme) (parts : List Part) (last : Cursor Lexeme) : Prop :=
  ∀ source session before, Ready source session levels mode first →
    Gives (steps source) (after session first before)
      (value (grown session.document.nodes before) parts) (after session last (before ++ parts))

/-- What `rounds` give behind the parts read so far, the steps give from the first token on. -/
def Continues {α β σ : Type} (steps : Checked → Steps β) (result : α → β)
    (rounds : σ → Checked → Steps α)
    (state : Arena → List Part → σ) (levels : Nat) (mode : Mode) (first : Cursor Lexeme)
    (parts : List Part) (last : Cursor Lexeme) : Prop :=
  ∀ source session before value final, Ready source session levels mode first →
    Gives (rounds (state (grown session.document.nodes before) parts) source)
      (after session last (before ++ parts)) value final →
    Gives (steps source) (after session first before) (result value) final

variable {levels minimum : Nat} {role : Role} {mode : Mode} {first second last : Cursor Lexeme}
  {parts : List Part} {tree : Tree}

/-! ### Expressions -/

/-- Below the last level one token, or one bracket, is taken whatever it is. -/
theorem yields_tooDeep (run : Derives (.expression 0 minimum role) mode first parts last) :
    Yields (fun _ => tooDeep) kept 0 mode first parts last := by
  rintro source session before ⟨faithful, rfl, deep⟩
  have cut (opened : Nat) (skipped : List Lexeme) :
      Gives (do
          report .nestingTooDeep (look session.mode first)
          let leaf ← token
          skipToClosing opened
          return some leaf) (after session (settle session.mode first) before)
        (some (grown session.document.nodes before).size)
        (after session ((past session.mode first).drop
            (closingLength opened (past session.mode first).rest))
          (before ++ [.child role (.cut (look session.mode first) skipped)])) := by
    refine (gives_report session _ before .nestingTooDeep _ []).bind ?_
    refine (gives_token_settled faithful.marked role).bind ?_
    rw [leafAt, after_cut session _ before role _ skipped, grown_append]
    exact (gives_skipToClosing (faithful.past session.mode) opened).bind (gives_pure _ _)
  have kept (lexeme : Lexeme) (skipped : List Lexeme) :
      kept (grown session.document.nodes before) [.child role (.cut lexeme skipped)]
        = some (grown session.document.nodes before).size :=
    congrArg some (nodeOf_leaf _ role lexeme)
  refine (gives_current faithful.marked).bind ?_
  cases run with
  | cutNothing ends =>
    rw [List.append_nil]
    exact .of_pos ends (gives_pure _ _)
  | cutBracket goesOn opens =>
    rw [kept, if_pos opens]
    exact .of_neg (Bool.eq_false_iff.mp goesOn) (cut 1 _)
  | cutToken goesOn single =>
    have taken := cut 0 []
    rw [closingLength, drop_zero] at taken
    rw [kept, if_neg (Bool.eq_false_iff.mp single)]
    exact .of_neg (Bool.eq_false_iff.mp goesOn) taken

theorem Yields.expression (found : Yields (infixed minimum) kept levels mode first parts
    last) : Yields (expression minimum) kept (levels + 1) mode first parts last := by
  rintro source session before ⟨faithful, rfl, deep⟩
  have inner := found source { session with nesting := session.nesting + 1 } before
    ⟨faithful, rfl, by simp; omega⟩
  have room : ¬ session.nestingLimitReached = true := by
    simp only [Session.nestingLimitReached, decide_eq_true_eq]
    omega
  rw [Checked.expression]
  refine (gives_get _).bind (.of_neg room ((gives_modify _ _).bind (inner.bind ?_)))
  exact ((gives_get _).bind ((gives_lift rfl).bind (gives_modify _ _))).bind (gives_pure _ _)

theorem Yields.operand
    (found : Yields (Checked.expression minimum) kept levels mode first [.child role tree] last) :
    Yields (operand minimum) kept levels mode first [.child role tree] last := by
  intro source session before ready
  rw [Checked.operand]
  exact (found source session before ready).bind (gives_pure _ _)

theorem Yields.operand_missing (run : Derives (.expression levels minimum role) mode first [] last)
    (found : Yields (Checked.expression minimum) kept levels mode first [] last) :
    Yields (Checked.operand minimum) kept levels mode first
      [.problem ⟨.operandExpected, (look mode last).token⟩ []] (settle mode last) := by
  rintro source session before ⟨faithful, rfl, deep⟩
  have nothing := found source session before ⟨faithful, rfl, deep⟩
  rw [List.append_nil] at nothing
  rw [Checked.operand]
  exact nothing.bind ((gives_current (faithful.derives run).marked).bind
    ((gives_report _ _ before _ _ []).bind (gives_pure _ _)))

theorem Yields.infixed_none (found : Yields leading kept levels mode first [] last) :
    Yields (infixed minimum) kept levels mode first [] last := by
  intro source session before ready
  rw [infixed]
  exact (found source session before ready).bind (gives_pure _ _)

/-- The loop over infix operators, behind the operands taken so far. -/
abbrev InfixLoop (minimum : Nat) :=
  Continues (infixed minimum) some (infixRounds minimum) nodeOf

theorem InfixLoop.start (found : Yields leading kept levels mode first [.child role tree] last) :
    InfixLoop minimum levels mode first [.child role tree] last := by
  intro source session before value final ready further
  rw [infixed]
  exact (found source session before ready).bind (further.bind (gives_pure _ _))

theorem InfixLoop.stop
    (run : Derives (.chain levels minimum role) mode first [.child role tree] last)
    (loop : InfixLoop minimum levels mode first [.child role tree] last)
    (ended : infixAt? minimum (look mode last) = none) :
    Yields (infixed minimum) kept levels mode first [.child role tree] (settle mode last) := by
  rintro source session before ⟨faithful, rfl, deep⟩
  have behind := faithful.derives run
  refine loop source session before _ _ ⟨faithful, rfl, deep⟩ ?_
  rw [infixRounds]
  refine (gives_current behind.marked).bind ((gives_infixOperator (behind.look _)).bind ?_)
  rw [infixAt?] at ended
  rw [ended]
  exact gives_pure _ _

theorem InfixLoop.more {left : Tree} {right : List Part} {operator : Operator}
    (run : Derives (.chain levels minimum role) mode first [.child role left] second)
    (next : infixAt? minimum (look mode second) = some operator)
    (operand : Derives (.operand levels operator.rightMinimum .right) mode
      (beyond (past mode second)) right last)
    (loop : InfixLoop minimum levels mode first [.child role left] second)
    (found : Yields (Checked.operand operator.rightMinimum) kept levels mode
      (beyond (past mode second)) right last) :
    InfixLoop minimum levels mode first [.child role (.ofParts (.operator operator)
      (.child .left left :: .child .operator (leafAt mode second) :: right))] last := by
  rintro source session before value final ⟨faithful, rfl, deep⟩ further
  have behind := faithful.derives run
  have sign := behind.past session.mode
  refine loop source session before value final ⟨faithful, rfl, deep⟩ ?_
  rw [infixRounds, after_role session second before role .left]
  refine (gives_current behind.marked).bind ((gives_infixOperator (behind.look _)).bind ?_)
  rw [infixAt?] at next
  rw [next]
  refine (gives_token_settled behind.marked .operator).bind
    ((gives_skipLineBreaks sign.marked).bind
      ((found source session _ ⟨sign.beyond, rfl, deep⟩).bind (.bind ?_ further)))
  refine gives_addOver role (by simp) ?_ (by simp) ?_ _
  · rw [slot_kept _ (.inr operand.isSingle_operand)]
    simp [nodeOf_role _ role .left]
  · simpa [areUpright_of_derives operand] using areUpright_of_derives run

/-! ### Operators before their operand -/

theorem Yields.sign {operator : Operator} {right : List Part}
    (here : leadingOf? (look mode first) = some operator)
    (operand : Derives (.operand levels operator.precedence .right) mode
      (beyond (past mode first)) right last)
    (found : Yields (Checked.operand operator.precedence) kept levels mode
      (beyond (past mode first)) right last) :
    Yields leading kept levels mode first [.child role (.ofParts (.operator operator)
      (.child .operator (leafAt mode first) :: right))] last := by
  rintro source session before ⟨faithful, rfl, deep⟩
  have sign := faithful.past session.mode
  rw [leading]
  refine (gives_current faithful.marked).bind ((gives_leadingOperator (faithful.look _)).bind ?_)
  rw [here]
  refine (gives_token_settled faithful.marked .operator).bind
    ((gives_skipLineBreaks sign.marked).bind
      ((found source session _ ⟨sign.beyond, rfl, deep⟩).bind (.bind ?_ (gives_pure _ _))))
  refine gives_addOver role (by simp) ?_ (by simp) ?_ _
  · rw [slot_kept _ (.inr operand.isSingle_operand)]
    simp
  · simpa using areUpright_of_derives operand

theorem Yields.unsigned (here : leadingOf? (look mode first) = none)
    (found : Yields postfixed kept levels mode (settle mode first) parts last) :
    Yields leading kept levels mode first parts last := by
  rintro source session before ⟨faithful, rfl, deep⟩
  rw [leading]
  refine (gives_current faithful.marked).bind ((gives_leadingOperator (faithful.look _)).bind ?_)
  rw [here]
  exact found source session before ⟨faithful.settle _, rfl, deep⟩

/-! ### Calls, indexes and accesses -/

theorem Yields.postfixed_none (found : Yields primary kept levels mode first [] last) :
    Yields postfixed kept levels mode first [] last := by
  intro source session before ready
  rw [postfixed]
  exact (found source session before ready).bind (gives_pure _ _)

/-- The loop over calls, indexes and accesses, behind those taken so far. -/
abbrev PostfixLoop := Continues postfixed some postfixRounds nodeOf

theorem PostfixLoop.start (found : Yields primary kept levels mode first [.child role tree] last) :
    PostfixLoop levels mode first [.child role tree] last := by
  intro source session before value final ready further
  rw [postfixed]
  exact (found source session before ready).bind (further.bind (gives_pure _ _))

theorem PostfixLoop.stop
    (run : Derives (.suffixed levels role) mode first [.child role tree] last)
    (loop : PostfixLoop levels mode first [.child role tree] last)
    (ended : extendsExpression (look mode last) = false) :
    Yields postfixed kept levels mode first [.child role tree] (settle mode last) := by
  rintro source session before ⟨faithful, rfl, deep⟩
  have behind := faithful.derives run
  refine loop source session before _ _ ⟨faithful, rfl, deep⟩ ?_
  rw [extendsExpression, Bool.or_eq_false_iff, opensList] at ended
  obtain ⟨other, none⟩ := ended
  rw [postfixRounds]
  refine (gives_current behind.marked).bind ?_
  split
  · simp_all
  · simp_all
  · simp_all
  · refine (gives_infixOperator (behind.look _)).bind ?_
    rw [Option.isSome_eq_false_iff, Option.isNone_iff_eq_none, accessorOf?] at none
    rw [none]
    exact gives_pure _ _

theorem PostfixLoop.access {target : Tree} {right : List Part} {operator : Operator}
    (run : Derives (.suffixed levels role) mode first [.child role target] second)
    (next : accessorOf? (look mode second) = some operator)
    (name : Derives (.expected isMember .right .identifierExpected) mode (past mode second) right
      last)
    (loop : PostfixLoop levels mode first [.child role target] second) :
    PostfixLoop levels mode first [.child role (.ofParts (.operator operator)
      (.child .left target :: .child .operator (leafAt mode second) :: right))] last := by
  rintro source session before value final ⟨faithful, rfl, deep⟩ further
  have behind := faithful.derives run
  have kind := kind_of_infixOf? (accessorOf?_eq_some_iff.mp next).1
  refine loop source session before value final ⟨faithful, rfl, deep⟩ ?_
  rw [postfixRounds, after_role session second before role .left]
  refine (gives_current behind.marked).bind ?_
  rw [kind]
  refine (gives_infixOperator (behind.look _)).bind ?_
  rw [accessorOf?] at next
  rw [next]
  refine .bind ?_ further
  refine (gives_token_settled behind.marked .operator).bind
    ((gives_member (behind.past _).marked name).bind ?_)
  refine gives_addOver role (by simp) ?_ (by simp) ?_ _
  · rw [slot_kept _ (.inr name.isSingle_expected)]
    simp [nodeOf_role _ role .left]
  · simpa [areUpright_of_derives name] using areUpright_of_derives run

/-! ### Argument lists -/

theorem map_idsOf {kind : ProblemKind} (arena : Arena)
    (entries : ∀ part ∈ parts, part.IsEntry role kind) :
    (idsOf arena parts).map (role, ·) = slotsOf arena parts := by
  induction parts generalizing arena with
  | nil => rfl
  | cons part rest previous =>
    rw [List.forall_mem_cons] at entries
    have behind := previous (grown arena [part]) entries.2
    cases entries.1 with
    | child tree => exact congrArg _ behind
    | problem token skipped => exact behind

theorem Yields.argumentList {style : ArgumentStyle} {delimiter : Delimiter} {anchor : Nat}
    (entries : ∀ part ∈ parts, part.IsEntry .argument .identifierExpected)
    (upright : AreUpright parts)
    (found : Yields (argumentRounds style delimiter.closer []) idsOf levels mode first parts last) :
    Yields (argumentList style delimiter.opener anchor) nodeOf levels mode first
      [.child role (listOf anchor parts)] last := by
  intro source session before ready
  have known : delimiterOf delimiter.opener = pure delimiter := by cases delimiter <;> rfl
  have covered := gives_cover_slots session last before upright
  have added (span : Span) := gives_add session last before parts role .argumentList span
  rw [Checked.argumentList]
  refine (gives_lift known).bind ((found source session before ready).bind (covered.bind ?_))
  rw [map_idsOf _ entries, listOf, nodeOf_node]
  cases Part.hull? parts with
  | some span => exact added span
  | none => exact (gives_lift (if_pos (Nat.le_refl anchor))).bind (added (.empty anchor))

theorem single_expression
    (run : Derives (.expression levels minimum role) mode first parts last) :
    parts = [] ∨ IsSingle role parts := run.eq_nil_or_single.imp_right .inl

section Items

variable {style : ArgumentStyle} {delimiter : Delimiter} {items : List Part}

/-- The loop over arguments, behind those taken so far. -/
abbrev ItemLoop (style : ArgumentStyle) (delimiter : Delimiter) :=
  Continues (argumentRounds style delimiter.closer []) id (argumentRounds style delimiter.closer)
    idsOf

theorem ItemLoop.start : ItemLoop style delimiter levels mode first [] first := by
  intro source session before value final ready further
  rwa [List.append_nil] at further

theorem ItemLoop.closed (run : Derives (.items style delimiter levels) mode first parts last)
    (ended : endsItems delimiter (look mode last) = true)
    (loop : ItemLoop style delimiter levels mode first parts last) :
    Yields (argumentRounds style delimiter.closer []) idsOf levels mode first parts
      (settle mode last) := by
  rintro source session before ⟨faithful, rfl, deep⟩
  refine loop source session before (idsOf _ _) _ ⟨faithful, rfl, deep⟩ ?_
  rw [argumentRounds]
  exact (gives_current (faithful.derives run).marked).bind (.of_pos ended (gives_pure _ _))

/-- The comma of an argument is not among what stands in front of it. -/
theorem any_comma_item (run : Derives (.item style levels) mode first parts last) :
    parts.any (Part.isChildIn .comma) = false := by
  have single {parts : List Part} {first : Cursor Lexeme}
      (run : Derives (.expression levels 0 .value) mode first parts last) :
      parts.any (Part.isChildIn .comma) = false := by
    obtain rfl | ⟨tree, rfl⟩ := run.eq_nil_or_single
    · rfl
    · rfl
  cases run with
  | named _ value | formalDefault _ _ value | misplacedFormal _ _ value =>
    simpa [Part.isChildIn] using single value
  | unnamed _ value | emptyFormal _ value => exact single value
  | formal _ _ => rfl

section Argument

variable {item comma : List Part} (read : Derives (.item style levels) mode first item second)
  (separator : Derives (.optional (isOfKind .comma) .comma) mode second comma last)
  (found : Yields (Checked.item style) slotsOf levels mode first item second)
include read separator found

theorem Yields.argument (filled : Part.anyChild (item ++ comma) = true) :
    Yields (argument style) kept levels mode first
      [.child .argument (.ofParts .argument (item ++ comma))] last := by
  rintro source session before ⟨faithful, rfl, deep⟩
  have upright : AreUpright (item ++ comma) :=
    (areUpright_append _ _).mpr ⟨areUpright_of_derives read, areUpright_of_derives separator⟩
  rw [Checked.argument]
  refine (found source session before ⟨faithful, rfl, deep⟩).bind
    ((gives_optionalToken (faithful.derives read).marked separator).bind ?_)
  refine gives_addUnlessEmpty .argument (List.append_assoc ..) ?_ ?_ upright
  · rw [slot_kept _ (single_optional separator)]
    simp
  · rw [Ne, spans_eq_nil_iff, filled]
    decide

theorem Yields.argument_none (empty : Part.anyChild (item ++ comma) = false) :
    Yields (Checked.argument style) kept levels mode first (item ++ comma) last := by
  rintro source session before ⟨faithful, rfl, deep⟩
  have nothing : kept (grown session.document.nodes before) (item ++ comma) = none := by
    rw [kept, slotsOf_of_anyChild _ empty]
    rfl
  rw [Checked.argument, nothing]
  refine (found source session before ⟨faithful, rfl, deep⟩).bind
    ((gives_optionalToken (faithful.derives read).marked separator).bind ?_)
  refine gives_addUnlessEmpty_none (List.append_assoc ..) ?_ (spans_eq_nil_iff.mpr empty)
  rw [slot_kept _ (single_optional separator)]
  simp

end Argument

theorem ItemLoop.more {item : List Part}
    (run : Derives (.items style delimiter levels) mode first parts second)
    (goesOn : endsItems delimiter (look mode second) = false)
    (read : Derives (.item style levels) mode (settle mode second) item last)
    (comma : (look mode last).kind = .comma)
    (loop : ItemLoop style delimiter levels mode first parts second)
    (found : Yields (Checked.item style) slotsOf levels mode (settle mode second) item last) :
    ItemLoop style delimiter levels mode first
      (parts ++ [.child .argument (.ofParts .argument
        (item ++ [.child .comma (leafAt mode last)]))]) (past mode last) := by
  rintro source session before value final ⟨faithful, rfl, deep⟩ further
  have behind := faithful.derives run
  have separator : Derives (.optional (isOfKind .comma) .comma) session.mode last
      [.child .comma (leafAt session.mode last)] (past session.mode last) :=
    .present (beq_iff_eq.mpr comma) (isReadable_of_kind comma (by decide))
  have taken := Yields.argument read separator found (by simp [Part.anyChild, Part.span?]) source
    session (before ++ parts) ⟨behind.settle _, rfl, deep⟩
  rw [kept_child] at taken
  refine loop source session before value final ⟨faithful, rfl, deep⟩ ?_
  rw [argumentRounds]
  refine (gives_current behind.marked).bind (.of_neg (Bool.eq_false_iff.mp goesOn) ?_)
  refine taken.bind ((gives_hasComma session _ _ _ .argument).bind (.of_pos ?_ ?_))
  · simp [Part.isChildIn]
  · simpa using further

/-- An argument without a comma is the last one. -/
theorem ItemLoop.final {item : List Part}
    (run : Derives (.items style delimiter levels) mode first parts second)
    (goesOn : endsItems delimiter (look mode second) = false)
    (read : Derives (.item style levels) mode (settle mode second) item last)
    (other : (look mode last).kind ≠ .comma) (filled : Part.anyChild item = true)
    (loop : ItemLoop style delimiter levels mode first parts second)
    (found : Yields (Checked.item style) slotsOf levels mode (settle mode second) item last) :
    Yields (argumentRounds style delimiter.closer []) idsOf levels mode first
      (parts ++ [.child .argument (.ofParts .argument item)]) (settle mode last) := by
  rintro source session before ⟨faithful, rfl, deep⟩
  have behind := faithful.derives run
  have separator : Derives (.optional (isOfKind .comma) .comma) session.mode last []
      (settle session.mode last) := .absent (beq_eq_false_iff_ne.mpr other)
  have taken := Yields.argument read separator found (by simpa using filled) source session
    (before ++ parts) ⟨behind.settle _, rfl, deep⟩
  rw [List.append_nil, kept_child] at taken
  refine loop source session before (idsOf _ _) _ ⟨faithful, rfl, deep⟩ ?_
  rw [argumentRounds]
  refine (gives_current behind.marked).bind (.of_neg (Bool.eq_false_iff.mp goesOn) ?_)
  refine taken.bind ((gives_hasComma session _ _ _ .argument).bind (.of_neg ?_ ?_))
  · simp [any_comma_item read]
  · simpa using gives_pure _ _

/-- Problems where an argument should be are the last as well. -/
theorem ItemLoop.none {item : List Part}
    (run : Derives (.items style delimiter levels) mode first parts second)
    (goesOn : endsItems delimiter (look mode second) = false)
    (read : Derives (.item style levels) mode (settle mode second) item last)
    (other : (look mode last).kind ≠ .comma) (empty : Part.anyChild item = false)
    (loop : ItemLoop style delimiter levels mode first parts second)
    (found : Yields (Checked.item style) slotsOf levels mode (settle mode second) item last) :
    Yields (argumentRounds style delimiter.closer []) idsOf levels mode first (parts ++ item)
      (settle mode last) := by
  rintro source session before ⟨faithful, rfl, deep⟩
  have behind := faithful.derives run
  have separator : Derives (.optional (isOfKind .comma) .comma) session.mode last []
      (settle session.mode last) := .absent (beq_eq_false_iff_ne.mpr other)
  have taken := Yields.argument_none read separator found (by simpa using empty) source session
    (before ++ parts) ⟨behind.settle _, rfl, deep⟩
  rw [List.append_nil] at taken
  refine loop source session before (idsOf _ _) _ ⟨faithful, rfl, deep⟩ ?_
  rw [argumentRounds]
  refine (gives_current behind.marked).bind (.of_neg (Bool.eq_false_iff.mp goesOn) ?_)
  have nothing : kept (grown session.document.nodes (before ++ parts)) item = .none := by
    rw [kept, slotsOf_of_anyChild _ empty]
    rfl
  rw [nothing] at taken
  refine taken.bind ?_
  simpa [idsOf, slotsOf_of_anyChild _ empty] using gives_pure _ _

end Items

/-! ### Single arguments -/

section Item

variable {value : List Part}

theorem Yields.named (named : Grammar.namesHere mode first = true)
    (read : Derives (.expression levels 0 .value) mode (past mode (past mode first)) value last)
    (found : Yields (Checked.expression 0) kept levels mode (past mode (past mode first)) value
      last) :
    Yields (item .call) slotsOf levels mode first (.child .name (leafAt mode first) ::
      .child .equals (leafAt mode (past mode first)) :: value) last := by
  rintro source session before ⟨faithful, rfl, deep⟩
  have name := faithful.past session.mode
  rw [item]
  refine (gives_current faithful.marked).bind ((gives_namesHere faithful).bind (.of_pos named ?_))
  refine (gives_token_settled faithful.marked .name).bind ((gives_token name.marked .equals).bind
    ((found source session _ ⟨name.past _, rfl, deep⟩).bind ((gives_pure _ _).congr ?_ ?_)))
  · rw [slot_kept _ (single_expression read)]
    simp
  · simp

theorem Yields.unnamed (unnamed : Grammar.namesHere mode first = false)
    (read : Derives (.expression levels 0 .value) mode (settle mode first) value last)
    (found : Yields (Checked.expression 0) kept levels mode (settle mode first) value last) :
    Yields (item .call) slotsOf levels mode first value last := by
  rintro source session before ⟨faithful, rfl, deep⟩
  rw [item, ← slot_kept _ (single_expression read)]
  exact (gives_current faithful.marked).bind ((gives_namesHere faithful).bind
    (.of_neg (Bool.eq_false_iff.mp unnamed)
      ((found source session before ⟨faithful.settle _, rfl, deep⟩).bind (gives_pure _ _))))

theorem Yields.formalDefault (named : (look mode first).kind = .identifier)
    (equals : (look mode (past mode first)).isOperator ['='] = true)
    (read : Derives (.expression levels 0 .value) mode (past mode (past mode first)) value last)
    (found : Yields (Checked.expression 0) kept levels mode (past mode (past mode first)) value
      last) :
    Yields (item .formals) slotsOf levels mode first (.child .name (leafAt mode first) ::
      .child .equals (leafAt mode (past mode first)) :: value) last := by
  rintro source session before ⟨faithful, rfl, deep⟩
  have name := faithful.past session.mode
  rw [item]
  refine (gives_current faithful.marked).bind (.of_pos (beq_iff_eq.mpr named) ?_)
  refine (gives_token_settled faithful.marked .name).bind ((gives_current name.marked).bind
    ((gives_isOperator (name.look _) ['=']).bind (.of_pos equals ?_)))
  refine (gives_token_settled name.marked .equals).bind
    ((found source session _ ⟨name.past _, rfl, deep⟩).bind ((gives_pure _ _).congr ?_ ?_))
  · rw [slot_kept _ (single_expression read)]
    simp
  · simp

theorem Yields.formal (named : (look mode first).kind = .identifier)
    (bare : (look mode (past mode first)).isOperator ['='] = false) :
    Yields (item .formals) slotsOf levels mode first [.child .name (leafAt mode first)]
      (settle mode (past mode first)) := by
  rintro source session before ⟨faithful, rfl, deep⟩
  have name := faithful.past session.mode
  rw [item]
  refine (gives_current faithful.marked).bind (.of_pos (beq_iff_eq.mpr named) ?_)
  refine (gives_token_settled faithful.marked .name).bind ((gives_current name.marked).bind
    ((gives_isOperator (name.look _) ['=']).bind (.of_neg (Bool.eq_false_iff.mp bare) ?_)))
  exact (gives_pure _ _).congr (by simp) rfl

theorem Yields.emptyFormal (comma : (look mode first).kind = .comma)
    (read : Derives (.expression levels 0 .value) mode (settle mode first) value last)
    (found : Yields (Checked.expression 0) kept levels mode (settle mode first) value last) :
    Yields (item .formals) slotsOf levels mode first value last := by
  rintro source session before ⟨faithful, rfl, deep⟩
  rw [item, ← slot_kept _ (single_expression read)]
  refine (gives_current faithful.marked).bind
    (.of_neg (by simp [comma]) (.of_neg (by simp [comma]) ?_))
  exact (found source session before ⟨faithful.settle _, rfl, deep⟩).bind (gives_pure _ _)

theorem Yields.misplacedFormal (unnamed : (look mode first).kind ≠ .identifier)
    (other : (look mode first).kind ≠ .comma)
    (read : Derives (.expression levels 0 .value) mode (settle mode first) value last)
    (found : Yields (Checked.expression 0) kept levels mode (settle mode first) value last) :
    Yields (item .formals) slotsOf levels mode first
      (.problem ⟨.identifierExpected, (look mode first).token⟩ [] :: value) last := by
  rintro source session before ⟨faithful, rfl, deep⟩
  rw [item, slotsOf_problem, ← slot_kept _ (single_expression read)]
  refine (gives_current faithful.marked).bind
    (.of_neg (by simpa using unnamed) (.of_pos (by simpa using other) ?_))
  refine (gives_report session _ before .identifierExpected _ []).bind
    ((found source session _ ⟨faithful.settle _, rfl, deep⟩).bind ((gives_pure _ _).congr ?_ ?_))
  · simp
  · simp

end Item

/-! ### Brackets -/

/-- From here on line breaks mean nothing. -/
theorem gives_bracketed (session : Session) (last : Cursor Lexeme) (parts : List Part) :
    Gives (setLineBreaksIgnored true) (after session last parts) session.mode.lineBreaksIgnored
      (after (inMode session session.mode.bracketed) last parts) := rfl

/-- Behind the bracket they mean what they did in front of it. -/
theorem gives_unbracketed (session : Session) (last : Cursor Lexeme) (parts : List Part) :
    Gives (setLineBreaksIgnored session.mode.lineBreaksIgnored)
      (after (inMode session session.mode.bracketed) last parts) true
      (after session last parts) := rfl

theorem hull_insert (start added : Span) (rest : List Span) :
    rest.foldl Span.union (start.union added) = (rest.foldl Span.union start).union added := by
  induction rest generalizing start with
  | nil => rfl
  | cons span rest previous =>
    have swapped : (start.union added).union span = (start.union span).union added := by
      simp only [Span.union, Span.mk.injEq]
      omega
    rw [List.foldl_cons, List.foldl_cons, swapped, previous]

theorem toList_kept {closer : Role} {close : List Part} (single : IsSingle closer close)
    (arena : Arena) : (kept arena close).toList = idsOf arena close := by
  obtain ⟨tree, rfl⟩ | ⟨found, rfl⟩ := single
  · rfl
  · rfl

section Application

variable {delimiter : Delimiter} {target : Tree} {list close : List Part} {own opener closer : Role}
  {form : Form} {third : Cursor Lexeme}

/-- The brackets are united with the tree in front of them, then comes what stands between them. -/
theorem gives_spanAround (session : Session) (last : Cursor Lexeme) (before : List Part)
    {arena : Arena} (front : grown session.document.nodes before = arena)
    (target opening inner : Tree) (outside bracket within : Role) (single : IsSingle closer close)
    (upright : AreUpright
      (.child outside target :: .child bracket opening :: .child within inner :: close)) :
    Gives (spanAround (nodeOf arena [.child outside target])
        (nodeOf (grown arena [.child outside target]) [.child bracket opening])
        (nodeOf (grown (grown arena [.child outside target]) [.child bracket opening])
          [.child within inner])
        (kept (grown (grown (grown arena [.child outside target]) [.child bracket opening])
          [.child within inner]) close))
      (after session last (before ++
        .child outside target :: .child bracket opening :: .child within inner :: close))
      ((Part.hull? (.child outside target :: .child bracket opening :: .child within inner
        :: close)).getD (.empty 0))
      (after session last (before ++
        .child outside target :: .child bracket opening :: .child within inner :: close)) := by
  subst front
  obtain ⟨parts, shape⟩ : ∃ parts, parts
    = .child outside target :: .child bracket opening :: .child within inner :: close := ⟨_, rfl⟩
  have stored := lies_slotsOf parts (grown session.document.nodes before)
  rw [← grown_append, shape] at stored
  simp only [slotsOf_child, Part.spans_child, List.forall₂_cons] at stored
  rw [areUpright_child, areUpright_child, areUpright_child] at upright
  obtain ⟨uprightTarget, uprightOpening, uprightInner, uprightClose⟩ := upright
  have uprightOuter : ∀ span ∈ target.span :: opening.span :: close.filterMap Part.span?,
      IsUpright span :=
    List.forall_mem_cons.mpr ⟨uprightTarget,
      List.forall_mem_cons.mpr ⟨uprightOpening, uprightClose⟩⟩
  have hull : Part.hull? parts
      = some (((close.filterMap Part.span?).foldl Span.union (target.span.union opening.span)).union
        inner.span) := by
    rw [Part.hull?, shape, Part.spans_child, Part.spans_child, Part.spans_child, Span.hull?,
      List.foldl_cons, List.foldl_cons, hull_insert]
  rw [← shape] at stored ⊢
  obtain ⟨first, second, third, others⟩ := stored
  have covered := @gives_cover (after session last (before ++ parts)) _ _
    (.cons first (.cons second (List.forall₂_map_left_iff.mpr others))) uprightOuter
  rw [hull, spanAround, toList_kept single]
  exact (gives_coverOr _ covered).bind ((gives_spanAt third).bind
    (gives_union (isUpright_hull rfl uprightOuter) uprightInner))

/-- A call or an index, from its bracket on. -/
theorem gives_application {source : Checked} {session : Session}
    (ready : Ready source session levels session.mode first)
    (delimiter : Delimiter) (form : Form) (role own opener closer : Role)
    (upright : IsUpright target.span) (opens : (look session.mode first).kind = delimiter.opener)
    (listed : Derives (.arguments .call delimiter levels (look session.mode first).stop .arguments)
      session.mode.bracketed (past session.mode first) list third)
    (closed : Derives (.expected (isOfKind delimiter.closer) closer (.closerMissing delimiter))
      session.mode.bracketed third close last)
    (found : Yields (argumentList .call delimiter.opener (look session.mode first).stop) nodeOf
      levels session.mode.bracketed (past session.mode first) list third) (before : List Part) :
    Gives (application form own opener closer
        (nodeOf (grown session.document.nodes before) [.child own target]) source)
      (after session (settle session.mode first) (before ++ [.child own target]))
      (nodeOf (grown session.document.nodes before) [.child role (.ofParts form
        (.child own target :: .child opener (leafAt session.mode first) :: (list ++ close)))])
      (after session last (before ++ [.child role (.ofParts form
        (.child own target :: .child opener (leafAt session.mode first)
          :: (list ++ close)))])) := by
  have faithful := ready.faithful
  have within := faithful.past session.mode
  have behind := within.derives listed
  have flat := areUpright_of_derives listed
  obtain ⟨arguments, rfl⟩ := listed.exists_list
  obtain ⟨arena, front⟩ : ∃ arena, grown session.document.nodes before = arena := ⟨_, rfl⟩
  have closing (before : List Part) : Gives (Checked.close delimiter.opener)
      (after (inMode session session.mode.bracketed) third before)
      (kept (grown session.document.nodes before) close)
      (after (inMode session session.mode.bracketed) last (before ++ close)) :=
    gives_close behind.marked closed
  have around := gives_spanAround session last before front target (leafAt session.mode first)
    arguments own opener .arguments closed.isSingle_expected
    (by simpa using ⟨upright, (areUpright_child _ _).mp flat |>.1, areUpright_of_derives closed⟩)
  have added := gives_add session last before (.child own target
    :: .child opener (leafAt session.mode first) :: .child .arguments arguments :: close) role form
  have all : before ++ [.child own target] ++ [.child opener (leafAt session.mode first)]
        ++ [.child .arguments arguments] ++ close
      = before ++ .child own target :: .child opener (leafAt session.mode first)
        :: .child .arguments arguments :: close := by simp
  rw [application]
  refine (gives_current_settled faithful.marked).bind
    ((gives_token_settled faithful.marked opener).bind ((gives_bracketed session _ _).bind ?_))
  rw [opens]
  refine (found source (inMode session session.mode.bracketed) _
    ⟨within, rfl, ready.levels⟩).bind ?_
  refine (closing _).bind ((gives_unbracketed session _ _).bind ?_)
  rw [nodeOf_leafAt] at around
  simp only [front, slotsOf_child, nodeOf_leafAt] at added
  simp only [inMode_document, all, grown_append, front, slot_kept _ (.inr closed.isSingle_expected)]
  rw [nodeOf_ofParts]
  exact around.bind (added _)

end Application

theorem PostfixLoop.call {function : Tree} {list close : List Part} {third : Cursor Lexeme}
    (run : Derives (.suffixed levels role) mode first [.child role function] second)
    (opens : (look mode second).kind = .openBrace)
    (listed : Derives (.arguments .call .brace levels (look mode second).stop .arguments)
      mode.bracketed (past mode second) list third)
    (closed : Derives (.expected (isOfKind .closeBrace) .closeBrace .closeBraceExpected)
      mode.bracketed third close last)
    (loop : PostfixLoop levels mode first [.child role function] second)
    (found : Yields (argumentList .call .openBrace (look mode second).stop) nodeOf levels
      mode.bracketed (past mode second) list third) :
    PostfixLoop levels mode first [.child role (.ofParts .call (.child .function function ::
      .child .openBrace (leafAt mode second) :: (list ++ close)))] last := by
  rintro source session before value final ⟨faithful, rfl, deep⟩ further
  have behind := faithful.derives run
  have applied := gives_application ⟨behind, rfl, deep⟩ .brace .call role .function .openBrace
    .closeBrace ((areUpright_child _ _).mp (areUpright_of_derives run)).1 opens listed closed found
    before
  refine loop source session before value final ⟨faithful, rfl, deep⟩ ?_
  rw [postfixRounds, after_role session second before role .function]
  refine (gives_current behind.marked).bind ?_
  rw [opens]
  exact applied.bind further

theorem PostfixLoop.index {target : Tree} {list close : List Part} {third : Cursor Lexeme}
    {delimiter : Delimiter}
    (run : Derives (.suffixed levels role) mode first [.child role target] second)
    (square : delimiter = .squareBracket ∨ delimiter = .doubleSquareBracket)
    (opens : (look mode second).kind = delimiter.opener)
    (listed : Derives (.arguments .call delimiter levels (look mode second).stop .arguments)
      mode.bracketed (past mode second) list third)
    (closed : Derives (.expected (isOfKind delimiter.closer) .closeBracket
      (.closerMissing delimiter)) mode.bracketed third close last)
    (loop : PostfixLoop levels mode first [.child role target] second)
    (found : Yields (argumentList .call delimiter.opener (look mode second).stop) nodeOf levels
      mode.bracketed (past mode second) list third) :
    PostfixLoop levels mode first [.child role (.ofParts .index (.child .target target ::
      .child .openBracket (leafAt mode second) :: (list ++ close)))] last := by
  rintro source session before value final ⟨faithful, rfl, deep⟩ further
  have behind := faithful.derives run
  have applied := gives_application ⟨behind, rfl, deep⟩ delimiter .index role .target .openBracket
    .closeBracket ((areUpright_child _ _).mp (areUpright_of_derives run)).1 opens listed closed
    found before
  refine loop source session before value final ⟨faithful, rfl, deep⟩ ?_
  rw [postfixRounds, after_role session second before role .target]
  refine (gives_current behind.marked).bind ?_
  rw [opens]
  obtain rfl | rfl := square
  · exact applied.bind further
  · exact applied.bind further

end Checked

end RSource
