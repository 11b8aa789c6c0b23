/-
**A phrase is read in one way only.**

From one cursor on, a phrase that is read to its end gives one list of parts and ends at one cursor
(`Phrase.IsDetermined`). The phrases that more may follow are read round by round; a round is
determined by where it begins, so of two such runs one goes on where the other stops, and neither
goes on behind its end (`eq_of_rounds`). Levels are the induction: a phrase reads expressions of the
next level only. Main statement: `Derives.unique_statements`.
-/

import RSource.Proofs.Grammar.Consumption
import Mathlib.Logic.Relation

namespace RSource

/-- A token opens one pair of brackets only. -/
theorem Delimiter.eq_of_opener {first second : Delimiter} (same : first.opener = second.opener) :
    first = second := by
  have opens := ofOpener?_eq_some_iff.mpr same
  rw [ofOpener?_eq_some_iff.mpr rfl] at opens
  exact Option.some.inj opens

namespace Grammar

open Reader Cursor

/-- From one cursor on, a phrase gives one list of parts and ends at one cursor. -/
def Phrase.IsDetermined (phrase : Phrase) : Prop :=
  ∀ ⦃mode : Mode⦄ ⦃first last last' : Cursor Lexeme⦄ ⦃parts parts' : List Part⦄,
    Derives phrase mode first parts last → Derives phrase mode first parts' last' →
      parts = parts' ∧ last = last'

/-- Two runs of determined rounds that cannot go on have come to the same end. -/
theorem eq_of_rounds {α : Type} {round : α → α → Prop} {start first second : α}
    (determined : Relator.RightUnique round) (left : Relation.ReflTransGen round start first)
    (right : Relation.ReflTransGen round start second) (leftEnds : ∀ after, ¬ round first after)
    (rightEnds : ∀ after, ¬ round second after) : first = second := by
  rcases left.total_of_right_unique determined right with onwards | backwards
  · rcases onwards.cases_head with same | ⟨after, further, _⟩
    · exact same
    · exact absurd further (leftEnds after)
  · rcases backwards.cases_head with same | ⟨after, further, _⟩
    · exact same.symm
    · exact absurd further (rightEnds after)

theorem isDetermined_expected (accepts : Lexeme → Bool) (role : Role) (problem : ProblemKind) :
    (Phrase.expected accepts role problem).IsDetermined := by
  intro mode first last last' parts parts' run other
  cases run <;> cases other <;> simp_all

theorem isDetermined_optional (accepts : Lexeme → Bool) (role : Role) :
    (Phrase.optional accepts role).IsDetermined := by
  intro mode first last last' parts parts' run other
  cases run <;> cases other <;> simp_all

/-- Below the last level an expression is one token. -/
theorem isDetermined_cut (minimum : Nat) (role : Role) :
    (Phrase.expression 0 minimum role).IsDetermined := by
  intro mode first last last' parts parts' run other
  cases run <;> cases other <;> simp_all

theorem kind_of_accessorOf? {lexeme : Lexeme} {operator : Operator}
    (found : accessorOf? lexeme = some operator) : lexeme.kind = .operator :=
  kind_of_infixOf? (accessorOf?_eq_some_iff.mp found).1

section Levels

variable {levels : Nat}
  (deeper : ∀ minimum role, (Phrase.expression levels minimum role).IsDetermined)
include deeper

theorem isDetermined_operand (minimum : Nat) (role : Role) :
    (Phrase.operand levels minimum role).IsDetermined := by
  intro mode first last last' parts parts' run other
  cases run with
  | operand inner =>
    cases other with
    | operand inner' => exact deeper _ _ inner inner'
    | noOperand inner' => exact absurd (deeper _ _ inner inner').1 (List.cons_ne_nil _ _)
  | noOperand inner =>
    cases other with
    | operand inner' => exact absurd (deeper _ _ inner' inner).1 (List.cons_ne_nil _ _)
    | noOperand inner' =>
      obtain ⟨_, rfl⟩ := deeper _ _ inner inner'
      exact ⟨rfl, rfl⟩

/-! ### Arguments -/

theorem isDetermined_item (style : ArgumentStyle) : (Phrase.item style levels).IsDetermined := by
  intro mode first last last' parts parts' run other
  cases run with
  | named found value =>
    cases other with
    | named _ value' =>
      obtain ⟨rfl, rfl⟩ := deeper _ _ value value'
      exact ⟨rfl, rfl⟩
    | unnamed found' _ => rw [found] at found'; cases found'
  | unnamed found value =>
    cases other with
    | named found' _ => rw [found] at found'; cases found'
    | unnamed _ value' => exact deeper _ _ value value'
  | formalDefault name equals value =>
    cases other with
    | formalDefault _ _ value' =>
      obtain ⟨rfl, rfl⟩ := deeper _ _ value value'
      exact ⟨rfl, rfl⟩
    | formal _ equals' => rw [equals] at equals'; cases equals'
    | emptyFormal comma _ => rw [name] at comma; cases comma
    | misplacedFormal noName _ _ => exact absurd name noName
  | formal name equals =>
    cases other with
    | formalDefault _ equals' _ => rw [equals] at equals'; cases equals'
    | formal _ _ => exact ⟨rfl, rfl⟩
    | emptyFormal comma _ => rw [name] at comma; cases comma
    | misplacedFormal noName _ _ => exact absurd name noName
  | emptyFormal comma value =>
    cases other with
    | formalDefault name _ _ => rw [name] at comma; cases comma
    | formal name _ => rw [name] at comma; cases comma
    | emptyFormal _ value' => exact deeper _ _ value value'
    | misplacedFormal _ noComma _ => exact absurd comma noComma
  | misplacedFormal noName noComma value =>
    cases other with
    | formalDefault name _ _ => exact absurd name noName
    | formal name _ => exact absurd name noName
    | emptyFormal comma _ => exact absurd comma noComma
    | misplacedFormal _ _ value' =>
      obtain ⟨rfl, rfl⟩ := deeper _ _ value value'
      exact ⟨rfl, rfl⟩

/-- One more argument with its comma. -/
def ItemRound (style : ArgumentStyle) (delimiter : Delimiter) (levels : Nat) (mode : Mode)
    (before after : List Part × Cursor Lexeme) : Prop :=
  ∃ item last, endsItems delimiter (look mode before.2) = false
    ∧ Derives (.item style levels) mode (settle mode before.2) item last
    ∧ (look mode last).kind = .comma
    ∧ after = (before.1 ++ [.child .argument (.ofParts .argument
        (item ++ [.child .comma (leafAt mode last)]))], past mode last)

omit deeper in
theorem Derives.item_rounds {style : ArgumentStyle} {delimiter : Delimiter} {mode : Mode}
    {first last : Cursor Lexeme} {parts : List Part}
    (run : Derives (.items style delimiter levels) mode first parts last) :
    Relation.ReflTransGen (ItemRound style delimiter levels mode) ([], first) (parts, last) := by
  generalize shape : Phrase.items style delimiter levels = phrase at run
  induction run with
  | itemsStart => exact .refl
  | itemsMore _ goesOn item comma previous _ =>
    cases shape
    exact (previous rfl).tail ⟨_, _, goesOn, item, comma, rfl⟩
  | _ => cases shape

theorem itemRound_rightUnique (style : ArgumentStyle) (delimiter : Delimiter) (mode : Mode) :
    Relator.RightUnique (ItemRound style delimiter levels mode) := by
  rintro before _ _ ⟨item, last, _, inItem, _, rfl⟩ ⟨item', last', _, inItem', _, rfl⟩
  obtain ⟨rfl, rfl⟩ := isDetermined_item deeper style inItem inItem'
  rfl

/-- What stands where no further argument with a comma follows. -/
def ItemsEnd (style : ArgumentStyle) (delimiter : Delimiter) (levels : Nat) (mode : Mode)
    (last : Cursor Lexeme) : Prop :=
  endsItems delimiter (look mode last) = true ∨ ∃ item behind,
    Derives (.item style levels) mode (settle mode last) item behind
      ∧ (look mode behind).kind ≠ .comma

theorem not_itemRound {style : ArgumentStyle} {delimiter : Delimiter} {mode : Mode}
    {parts : List Part} {last : Cursor Lexeme} (ends : ItemsEnd style delimiter levels mode last)
    (after : List Part × Cursor Lexeme) :
    ¬ ItemRound style delimiter levels mode (parts, last) after := by
  rintro ⟨item, behind, goesOn, inItem, comma, rfl⟩
  rcases ends with closed | ⟨item', behind', inItem', noComma⟩
  · rw [closed] at goesOn
    cases goesOn
  · obtain ⟨rfl, rfl⟩ := isDetermined_item deeper style inItem inItem'
    exact noComma comma

theorem unique_items {style : ArgumentStyle} {delimiter : Delimiter} {mode : Mode}
    {first last last' : Cursor Lexeme} {parts parts' : List Part}
    (run : Derives (.items style delimiter levels) mode first parts last)
    (other : Derives (.items style delimiter levels) mode first parts' last')
    (ends : ItemsEnd style delimiter levels mode last)
    (ends' : ItemsEnd style delimiter levels mode last') : parts = parts' ∧ last = last' :=
  Prod.mk.inj (eq_of_rounds (itemRound_rightUnique deeper style delimiter mode) run.item_rounds
    other.item_rounds (not_itemRound deeper ends) (not_itemRound deeper ends'))

theorem isDetermined_arguments (style : ArgumentStyle) (delimiter : Delimiter) (anchor : Nat)
    (role : Role) : (Phrase.arguments style delimiter levels anchor role).IsDetermined := by
  have same := @isDetermined_item levels deeper style
  intro mode first last last' parts parts' run other
  cases run with
  | closedList items ends =>
    cases other with
    | closedList items' ends' =>
      obtain ⟨rfl, rfl⟩ := unique_items deeper items items' (.inl ends) (.inl ends')
      exact ⟨rfl, rfl⟩
    | lastItem items' goesOn item noComma _ | noItem items' goesOn item noComma _ =>
      obtain ⟨rfl, rfl⟩ := unique_items deeper items items' (.inl ends) (.inr ⟨_, _, item, noComma⟩)
      rw [ends] at goesOn
      cases goesOn
  | lastItem items goesOn item noComma bare =>
    cases other with
    | closedList items' ends' =>
      obtain ⟨rfl, rfl⟩ :=
        unique_items deeper items items' (.inr ⟨_, _, item, noComma⟩) (.inl ends')
      rw [ends'] at goesOn
      cases goesOn
    | lastItem items' goesOn' item' noComma' bare' | noItem items' goesOn' item' noComma' bare' =>
      obtain ⟨rfl, rfl⟩ := unique_items deeper items items' (.inr ⟨_, _, item, noComma⟩)
        (.inr ⟨_, _, item', noComma'⟩)
      obtain ⟨rfl, rfl⟩ := same item item'
      simp_all
  | noItem items goesOn item noComma bare =>
    cases other with
    | closedList items' ends' =>
      obtain ⟨rfl, rfl⟩ :=
        unique_items deeper items items' (.inr ⟨_, _, item, noComma⟩) (.inl ends')
      rw [ends'] at goesOn
      cases goesOn
    | lastItem items' goesOn' item' noComma' bare' | noItem items' goesOn' item' noComma' bare' =>
      obtain ⟨rfl, rfl⟩ := unique_items deeper items items' (.inr ⟨_, _, item, noComma⟩)
        (.inr ⟨_, _, item', noComma'⟩)
      obtain ⟨rfl, rfl⟩ := same item item'
      simp_all

/-! ### Statements -/

theorem isDetermined_statement (role : Role) : (Phrase.statement levels role).IsDetermined := by
  intro mode first last last' parts parts' run other
  cases run with
  | noStatement inner =>
    cases other with
    | noStatement inner' => exact deeper _ _ inner inner'
    | statement inner' _ => exact absurd (deeper _ _ inner' inner).1 (List.cons_ne_nil _ _)
  | statement inner semicolon =>
    cases other with
    | noStatement inner' => exact absurd (deeper _ _ inner inner').1 (List.cons_ne_nil _ _)
    | statement inner' semicolon' =>
      obtain ⟨same, rfl⟩ := deeper _ _ inner inner'
      cases same
      obtain ⟨rfl, rfl⟩ := isDetermined_optional _ _ semicolon semicolon'
      exact ⟨rfl, rfl⟩

/-- One more statement, or a problem in its place, from a token on that is no separator. -/
inductive StatementRound (levels : Nat) (mode : Mode) :
    Cursor Lexeme → List Part → Cursor Lexeme → Prop where
  | stray {first : Cursor Lexeme} : (look mode first).kind = .closeCurlyBrace →
      StatementRound levels mode first
        [.problem ⟨.unexpectedToken, (look mode first).token⟩ [look mode first]] (past mode first)
  | unreadable {first last : Cursor Lexeme} : (look mode first).kind ≠ .closeCurlyBrace →
      Derives (.statement levels .statements) mode (settle mode first) [] last →
      StatementRound levels mode first
        [.problem ⟨.unexpectedToken, (look mode first).token⟩
          (look mode last :: lineRest mode (past mode last))] (boundary mode (past mode last))
  | listed {first last : Cursor Lexeme} {tree : Tree} :
      (look mode first).kind ≠ .closeCurlyBrace →
      Derives (.statement levels .statements) mode (settle mode first) [.child .statements tree]
        last → isSeparated mode tree last = true →
      StatementRound levels mode first [.child .statements tree] (settle mode last)
  | crowded {first last : Cursor Lexeme} {tree : Tree} :
      (look mode first).kind ≠ .closeCurlyBrace →
      Derives (.statement levels .statements) mode (settle mode first) [.child .statements tree]
        last → isSeparated mode tree last = false →
      StatementRound levels mode first
        [.child .statements tree,
          .problem ⟨.unexpectedToken, (look mode last).token⟩ (lineRest mode (settle mode last))]
        (boundary mode (settle mode last))

theorem StatementRound.unique {mode : Mode} {first last last' : Cursor Lexeme}
    {parts parts' : List Part} (round : StatementRound levels mode first parts last)
    (other : StatementRound levels mode first parts' last') : parts = parts' ∧ last = last' := by
  have same := @isDetermined_statement levels deeper .statements
  cases round with
  | stray closed =>
    cases other with
    | stray _ => exact ⟨rfl, rfl⟩
    | unreadable noBrace _ | listed noBrace _ _ | crowded noBrace _ _ => exact absurd closed noBrace
  | unreadable noBrace failed =>
    cases other with
    | stray closed => exact absurd closed noBrace
    | unreadable _ failed' =>
      obtain ⟨_, rfl⟩ := same failed failed'
      exact ⟨rfl, rfl⟩
    | listed _ read _ | crowded _ read _ =>
      exact absurd (same read failed).1 (List.cons_ne_nil _ _)
  | listed noBrace read separated | crowded noBrace read separated =>
    cases other with
    | stray closed => exact absurd closed noBrace
    | unreadable _ failed => exact absurd (same read failed).1 (List.cons_ne_nil _ _)
    | listed _ read' separated' | crowded _ read' separated' =>
      obtain ⟨tree, rfl⟩ := same read read'
      cases tree
      simp_all

/-- Reading on behind the separators, unless the statements end there. -/
def ListingRound (terminator : Option TokenKind) (levels : Nat) (mode : Mode)
    (before after : List Part × Cursor Lexeme) : Prop :=
  endsBlock terminator (look mode (pastSeparators before.2)) = false
    ∧ ∃ more, after.1 = before.1 ++ more
      ∧ StatementRound levels mode (pastSeparators before.2) more after.2

omit deeper in
theorem Derives.listing_rounds {terminator : Option TokenKind} {mode : Mode}
    {first last : Cursor Lexeme} {parts : List Part}
    (run : Derives (.listing terminator levels) mode first parts last) :
    Relation.ReflTransGen (ListingRound terminator levels mode) ([], first) (parts, last) := by
  generalize shape : Phrase.listing terminator levels = phrase at run
  induction run with
  | listingStart => exact .refl
  | stray _ goesOn closed previous =>
    cases shape
    exact (previous rfl).tail ⟨goesOn, _, rfl, .stray closed⟩
  | unreadable _ goesOn noBrace failed previous _ =>
    cases shape
    exact (previous rfl).tail ⟨goesOn, _, rfl, .unreadable noBrace failed⟩
  | listed _ goesOn noBrace read separated previous _ =>
    cases shape
    exact (previous rfl).tail ⟨goesOn, _, rfl, .listed noBrace read separated⟩
  | crowded _ goesOn noBrace read separated previous _ =>
    cases shape
    exact (previous rfl).tail ⟨goesOn, _, rfl, .crowded noBrace read separated⟩
  | _ => cases shape

theorem listingRound_rightUnique (terminator : Option TokenKind) (mode : Mode) :
    Relator.RightUnique (ListingRound terminator levels mode) := by
  rintro before ⟨parts, last⟩ ⟨parts', last'⟩ ⟨_, more, rfl, round⟩ ⟨_, more', rfl, round'⟩
  obtain ⟨rfl, rfl⟩ := round.unique deeper round'
  rfl

theorem isDetermined_statements (terminator : Option TokenKind) :
    (Phrase.statements terminator levels).IsDetermined := by
  intro mode first last last' parts parts' run other
  cases run with
  | statements listing ends =>
    cases other with
    | statements listing' ends' =>
      have same := eq_of_rounds (listingRound_rightUnique deeper terminator mode)
        listing.listing_rounds listing'.listing_rounds
        (fun _ round => by simpa [ends] using round.1)
        (fun _ round => by simpa [ends'] using round.1)
      cases same
      exact ⟨rfl, rfl⟩

theorem isDetermined_block (role : Role) : (Phrase.block levels role).IsDetermined := by
  intro mode first last last' parts parts' run other
  cases run with
  | block _ items close =>
    cases other with
    | block _ items' close' =>
      obtain ⟨rfl, rfl⟩ := isDetermined_statements deeper _ items items'
      obtain ⟨rfl, rfl⟩ := isDetermined_expected _ _ _ close close'
      exact ⟨rfl, rfl⟩

theorem isDetermined_body (role : Role) : (Phrase.body levels role).IsDetermined := by
  have same := @isDetermined_statement levels deeper .statement
  intro mode first last last' parts parts' run other
  cases run with
  | blockBody opened block =>
    cases other with
    | blockBody _ block' => exact isDetermined_block deeper role block block'
    | simpleBody noBrace _ | noBody noBrace _ => exact absurd opened noBrace
  | simpleBody noBrace read =>
    cases other with
    | blockBody opened _ => exact absurd opened noBrace
    | simpleBody _ read' =>
      obtain ⟨tree, rfl⟩ := same read read'
      cases tree
      exact ⟨rfl, rfl⟩
    | noBody _ failed => exact absurd (same read failed).1 (List.cons_ne_nil _ _)
  | noBody noBrace failed =>
    cases other with
    | blockBody opened _ => exact absurd opened noBrace
    | simpleBody _ read => exact absurd (same read failed).1 (List.cons_ne_nil _ _)
    | noBody _ failed' =>
      obtain ⟨_, rfl⟩ := same failed failed'
      exact ⟨rfl, rfl⟩

/-! ### Constructs -/

omit deeper in
theorem Construct.isWord_of_isHeaded {construct : Construct} (headed : construct.isHeaded = true) :
    construct.isWord = false := by
  cases construct <;> first | rfl | cases headed

theorem isDetermined_elseBranch : (Phrase.elseBranch levels).IsDetermined := by
  intro mode first last last' parts parts' run other
  cases run with
  | elseBranch seen body =>
    cases other with
    | elseBranch _ body' =>
      obtain ⟨rfl, rfl⟩ := isDetermined_body deeper _ body body'
      exact ⟨rfl, rfl⟩
    | noElse unseen => rw [seen] at unseen; cases unseen
  | noElse unseen =>
    cases other with
    | elseBranch seen _ => rw [seen] at unseen; cases unseen
    | noElse _ => exact ⟨rfl, rfl⟩

theorem isDetermined_contents (construct : Construct) (anchor : Nat) :
    (Phrase.contents construct levels anchor).IsDetermined := by
  intro mode first last last' parts parts' run other
  cases run with
  | condition tests tested close =>
    cases other with
    | condition _ tested' close' =>
      obtain ⟨rfl, rfl⟩ := isDetermined_operand deeper _ _ tested tested'
      obtain ⟨rfl, rfl⟩ := isDetermined_expected _ _ _ close close'
      exact ⟨rfl, rfl⟩
    | iteration _ _ _ _ | formals _ _ => cases tests
  | iteration counter link range close =>
    cases other with
    | condition tests _ _ => cases tests
    | iteration counter' link' range' close' =>
      obtain ⟨rfl, rfl⟩ := isDetermined_expected _ _ _ counter counter'
      obtain ⟨rfl, rfl⟩ := isDetermined_expected _ _ _ link link'
      obtain ⟨rfl, rfl⟩ := isDetermined_operand deeper _ _ range range'
      obtain ⟨rfl, rfl⟩ := isDetermined_expected _ _ _ close close'
      exact ⟨rfl, rfl⟩
  | formals list close =>
    cases other with
    | condition tests _ _ => cases tests
    | formals list' close' =>
      obtain ⟨rfl, rfl⟩ := isDetermined_arguments deeper _ _ _ _ list list'
      obtain ⟨rfl, rfl⟩ := isDetermined_expected _ _ _ close close'
      exact ⟨rfl, rfl⟩

theorem isDetermined_head (construct : Construct) :
    (Phrase.head construct levels).IsDetermined := by
  intro mode first last last' parts parts' run other
  cases run with
  | opened opened inner =>
    cases other with
    | opened _ inner' =>
      obtain ⟨rfl, rfl⟩ := isDetermined_contents deeper _ _ inner inner'
      exact ⟨rfl, rfl⟩
    | unopened closed => exact absurd opened closed
  | unopened closed =>
    cases other with
    | opened opened _ => exact absurd opened closed
    | unopened _ => exact ⟨rfl, rfl⟩

theorem isDetermined_construct (construct : Construct) (role : Role) :
    (Phrase.construct construct levels role).IsDetermined := by
  intro mode first last last' parts parts' run other
  cases run with
  | ifElse _ top main branch =>
    cases other with
    | ifElse _ top' main' branch' =>
      obtain ⟨rfl, rfl⟩ := isDetermined_head deeper _ top top'
      obtain ⟨rfl, rfl⟩ := isDetermined_body deeper _ main main'
      obtain ⟨rfl, rfl⟩ := isDetermined_elseBranch deeper branch branch'
      exact ⟨rfl, rfl⟩
    | headed headed _ _ _ => cases headed
    | word word _ => cases word
  | headed headed _ top main =>
    cases other with
    | ifElse _ _ _ _ | repeatLoop _ _ => cases headed
    | headed _ _ top' main' =>
      obtain ⟨rfl, rfl⟩ := isDetermined_head deeper _ top top'
      obtain ⟨rfl, rfl⟩ := isDetermined_body deeper _ main main'
      exact ⟨rfl, rfl⟩
    | word word _ => simp [Construct.isWord_of_isHeaded headed] at word
  | repeatLoop _ main =>
    cases other with
    | headed headed _ _ _ => cases headed
    | repeatLoop _ main' =>
      obtain ⟨rfl, rfl⟩ := isDetermined_body deeper _ main main'
      exact ⟨rfl, rfl⟩
    | word word _ => cases word
  | word word _ =>
    cases other with
    | ifElse _ _ _ _ | repeatLoop _ _ => cases word
    | headed headed _ _ _ => simp [Construct.isWord_of_isHeaded headed] at word
    | word _ _ => exact ⟨rfl, rfl⟩

/-! ### Expressions -/

theorem isDetermined_primary (role : Role) : (Phrase.primary levels role).IsDetermined := by
  intro mode first last last' parts parts' run other
  cases run with
  | noPrimary none noWord =>
    cases other with
    | noPrimary _ _ => exact ⟨rfl, rfl⟩
    | atom atom => simp [beginsPrimary, atom] at none
    | group opened _ _ | blockPrimary opened _ => simp [beginsPrimary, opened] at none
    | constructPrimary keyword found _ =>
      rw [noWord keyword] at found
      cases found
  | atom atom =>
    cases other with
    | noPrimary none _ => simp [beginsPrimary, atom] at none
    | atom _ => exact ⟨rfl, rfl⟩
    | group kind _ _ | blockPrimary kind _ | constructPrimary kind _ _ =>
      simp [isAtom, kind, TokenKind.isLiteral] at atom
  | group opened inner close =>
    cases other with
    | noPrimary none _ => simp [beginsPrimary, opened] at none
    | atom atom => simp [isAtom, opened, TokenKind.isLiteral] at atom
    | group _ inner' close' =>
      obtain ⟨rfl, rfl⟩ := isDetermined_operand deeper _ _ inner inner'
      obtain ⟨rfl, rfl⟩ := isDetermined_expected _ _ _ close close'
      exact ⟨rfl, rfl⟩
    | blockPrimary kind _ | constructPrimary kind _ _ => rw [opened] at kind; cases kind
  | blockPrimary opened block =>
    cases other with
    | noPrimary none _ => simp [beginsPrimary, opened] at none
    | atom atom => simp [isAtom, opened, TokenKind.isLiteral] at atom
    | blockPrimary _ block' => exact isDetermined_block deeper role block block'
    | group kind _ _ | constructPrimary kind _ _ => rw [opened] at kind; cases kind
  | constructPrimary keyword found construct =>
    cases other with
    | noPrimary _ noWord =>
      rw [noWord keyword] at found
      cases found
    | atom atom => simp [isAtom, keyword, TokenKind.isLiteral] at atom
    | group kind _ _ | blockPrimary kind _ => rw [keyword] at kind; cases kind
    | constructPrimary _ found' construct' =>
      obtain rfl := Option.some.inj (found.symm.trans found')
      exact isDetermined_construct deeper _ role construct construct'

/-- One more call, index or access. -/
inductive SuffixRound (levels : Nat) (mode : Mode) :
    Tree × Cursor Lexeme → Tree × Cursor Lexeme → Prop where
  | call {function : Tree} {second third last : Cursor Lexeme} {list close : List Part} :
      (look mode second).kind = .openBrace →
      Derives (.arguments .call .brace levels (look mode second).stop .arguments) mode.bracketed
        (past mode second) list third →
      Derives (.expected (isOfKind .closeBrace) .closeBrace .closeBraceExpected) mode.bracketed
        third close last →
      SuffixRound levels mode (function, second)
        (.ofParts .call (.child .function function :: .child .openBrace (leafAt mode second) ::
          (list ++ close)), last)
  | index {target : Tree} {second third last : Cursor Lexeme} {list close : List Part}
      {delimiter : Delimiter} :
      delimiter = .squareBracket ∨ delimiter = .doubleSquareBracket →
      (look mode second).kind = delimiter.opener →
      Derives (.arguments .call delimiter levels (look mode second).stop .arguments)
        mode.bracketed (past mode second) list third →
      Derives (.expected (isOfKind delimiter.closer) .closeBracket (.closerMissing delimiter))
        mode.bracketed third close last →
      SuffixRound levels mode (target, second)
        (.ofParts .index (.child .target target :: .child .openBracket (leafAt mode second) ::
          (list ++ close)), last)
  | access {target : Tree} {second last : Cursor Lexeme} {right : List Part}
      {operator : Operator} :
      accessorOf? (look mode second) = some operator →
      Derives (.expected isMember .right .identifierExpected) mode (past mode second) right last →
      SuffixRound levels mode (target, second)
        (.ofParts (.operator operator) (.child .left target ::
          .child .operator (leafAt mode second) :: right), last)

omit deeper in
theorem Derives.suffix_rounds {role : Role} {mode : Mode} {first last : Cursor Lexeme}
    {parts : List Part} (run : Derives (.suffixed levels role) mode first parts last) :
    ∃ start second tree, Derives (.primary levels role) mode first [.child role start] second
      ∧ Relation.ReflTransGen (SuffixRound levels mode) (start, second) (tree, last)
      ∧ parts = [.child role tree] := by
  generalize shape : Phrase.suffixed levels role = phrase at run
  induction run with
  | suffixedStart primary _ =>
    cases shape
    exact ⟨_, _, _, primary, .refl, rfl⟩
  | call _ opened list close previous _ _ =>
    cases shape
    obtain ⟨start, second, tree, primary, rounds, same⟩ := previous rfl
    cases same
    exact ⟨_, _, _, primary, rounds.tail (.call opened list close), rfl⟩
  | index _ square opened list close previous _ _ =>
    cases shape
    obtain ⟨start, second, tree, primary, rounds, same⟩ := previous rfl
    cases same
    exact ⟨_, _, _, primary, rounds.tail (.index square opened list close), rfl⟩
  | access _ found right previous _ =>
    cases shape
    obtain ⟨start, second, tree, primary, rounds, same⟩ := previous rfl
    cases same
    exact ⟨_, _, _, primary, rounds.tail (.access found right), rfl⟩
  | _ => cases shape

theorem suffixRound_rightUnique (mode : Mode) : Relator.RightUnique (SuffixRound levels mode) := by
  intro before after after' round other
  cases round with
  | call opened list close =>
    cases other with
    | call _ list' close' =>
      obtain ⟨rfl, rfl⟩ := isDetermined_arguments deeper _ _ _ _ list list'
      obtain ⟨rfl, rfl⟩ := isDetermined_expected _ _ _ close close'
      rfl
    | index square kind _ _ =>
      rw [opened] at kind
      obtain rfl | rfl := square <;> cases kind
    | access found _ => simp [kind_of_accessorOf? found] at opened
  | index square opened list close =>
    cases other with
    | call kind _ _ =>
      rw [opened] at kind
      obtain rfl | rfl := square <;> cases kind
    | index _ opened' list' close' =>
      obtain rfl := Delimiter.eq_of_opener (opened.symm.trans opened')
      obtain ⟨rfl, rfl⟩ := isDetermined_arguments deeper _ _ _ _ list list'
      obtain ⟨rfl, rfl⟩ := isDetermined_expected _ _ _ close close'
      rfl
    | access found _ =>
      rw [kind_of_accessorOf? found] at opened
      obtain rfl | rfl := square <;> cases opened
  | access found right =>
    have kind := kind_of_accessorOf? found
    cases other with
    | call opened _ _ => rw [kind] at opened; cases opened
    | index square opened _ _ =>
      rw [kind] at opened
      obtain rfl | rfl := square <;> cases opened
    | access found' right' =>
      obtain rfl := Option.some.inj (found.symm.trans found')
      obtain ⟨rfl, rfl⟩ := isDetermined_expected _ _ _ right right'
      rfl

omit deeper in
theorem not_suffixRound {mode : Mode} {tree : Tree} {last : Cursor Lexeme}
    (ends : extendsExpression (look mode last) = false) (after : Tree × Cursor Lexeme) :
    ¬ SuffixRound levels mode (tree, last) after := by
  intro round
  cases round with
  | call opened _ _ => simp [extendsExpression, opensList, opened] at ends
  | index square opened _ _ =>
    obtain rfl | rfl := square <;>
      simp [extendsExpression, opensList, opened, Delimiter.opener] at ends
  | access found _ => simp [extendsExpression, found] at ends

theorem isDetermined_postfixed (role : Role) : (Phrase.postfixed levels role).IsDetermined := by
  have same := @isDetermined_primary levels deeper role
  intro mode first last last' parts parts' run other
  cases run with
  | noPostfixed failed =>
    cases other with
    | noPostfixed failed' => exact same failed failed'
    | postfixed suffixed _ =>
      obtain ⟨_, _, _, primary, _, _⟩ := suffixed.suffix_rounds
      exact absurd (same primary failed).1 (List.cons_ne_nil _ _)
  | postfixed suffixed ends =>
    obtain ⟨start, second, tree, primary, rounds, shape⟩ := suffixed.suffix_rounds
    cases shape
    cases other with
    | noPostfixed failed => exact absurd (same primary failed).1 (List.cons_ne_nil _ _)
    | postfixed suffixed' ends' =>
      obtain ⟨start', second', tree', primary', rounds', shape'⟩ := suffixed'.suffix_rounds
      cases shape'
      obtain ⟨begins, rfl⟩ := same primary primary'
      cases begins
      have ended := eq_of_rounds (suffixRound_rightUnique deeper mode) rounds rounds'
        (not_suffixRound ends) (not_suffixRound ends')
      cases ended
      exact ⟨rfl, rfl⟩

theorem isDetermined_leading (role : Role) : (Phrase.leading levels role).IsDetermined := by
  intro mode first last last' parts parts' run other
  cases run with
  | sign found right =>
    cases other with
    | sign found' right' =>
      obtain rfl := Option.some.inj (found.symm.trans found')
      obtain ⟨rfl, rfl⟩ := isDetermined_operand deeper _ _ right right'
      exact ⟨rfl, rfl⟩
    | unsigned unfound _ => rw [found] at unfound; cases unfound
  | unsigned unfound postfixed =>
    cases other with
    | sign found _ => rw [found] at unfound; cases unfound
    | unsigned _ postfixed' => exact isDetermined_postfixed deeper role postfixed postfixed'

/-- One more infix operator with its right operand. -/
def ChainRound (levels minimum : Nat) (mode : Mode) (before after : Tree × Cursor Lexeme) : Prop :=
  ∃ operator right, infixAt? minimum (look mode before.2) = some operator
    ∧ Derives (.operand levels operator.rightMinimum .right) mode (beyond (past mode before.2))
      right after.2
    ∧ after.1 = .ofParts (.operator operator)
      (.child .left before.1 :: .child .operator (leafAt mode before.2) :: right)

omit deeper in
theorem Derives.chain_rounds {minimum : Nat} {role : Role} {mode : Mode}
    {first last : Cursor Lexeme} {parts : List Part}
    (run : Derives (.chain levels minimum role) mode first parts last) :
    ∃ start second tree, Derives (.leading levels role) mode first [.child role start] second
      ∧ Relation.ReflTransGen (ChainRound levels minimum mode) (start, second) (tree, last)
      ∧ parts = [.child role tree] := by
  generalize shape : Phrase.chain levels minimum role = phrase at run
  induction run with
  | chainStart leading _ =>
    cases shape
    exact ⟨_, _, _, leading, .refl, rfl⟩
  | chainMore _ found right previous _ =>
    cases shape
    obtain ⟨start, second, tree, leading, rounds, same⟩ := previous rfl
    cases same
    exact ⟨_, _, _, leading, rounds.tail ⟨_, _, found, right, rfl⟩, rfl⟩
  | _ => cases shape

theorem chainRound_rightUnique (minimum : Nat) (mode : Mode) :
    Relator.RightUnique (ChainRound levels minimum mode) := by
  rintro before ⟨tree, last⟩ ⟨tree', last'⟩ ⟨operator, right, found, inRight, rfl⟩
    ⟨operator', right', found', inRight', rfl⟩
  obtain rfl := Option.some.inj (found.symm.trans found')
  obtain ⟨rfl, rfl⟩ := isDetermined_operand deeper _ _ inRight inRight'
  rfl

theorem isDetermined_expression (minimum : Nat) (role : Role) :
    (Phrase.expression (levels + 1) minimum role).IsDetermined := by
  have same := @isDetermined_leading levels deeper role
  intro mode first last last' parts parts' run other
  cases run with
  | noExpression failed =>
    cases other with
    | noExpression failed' => exact same failed failed'
    | expression chain _ =>
      obtain ⟨_, _, _, leading, _, _⟩ := chain.chain_rounds
      exact absurd (same leading failed).1 (List.cons_ne_nil _ _)
  | expression chain ends =>
    obtain ⟨start, second, tree, leading, rounds, shape⟩ := chain.chain_rounds
    cases shape
    cases other with
    | noExpression failed => exact absurd (same leading failed).1 (List.cons_ne_nil _ _)
    | expression chain' ends' =>
      obtain ⟨start', second', tree', leading', rounds', shape'⟩ := chain'.chain_rounds
      cases shape'
      obtain ⟨begins, rfl⟩ := same leading leading'
      cases begins
      have ended := eq_of_rounds (chainRound_rightUnique deeper minimum mode) rounds rounds'
        (fun _ ⟨_, _, found, _⟩ => by simp [ends] at found)
        (fun _ ⟨_, _, found, _⟩ => by simp [ends'] at found)
      cases ended
      exact ⟨rfl, rfl⟩

end Levels

/-- **An expression is read in one way only.** -/
theorem isDetermined_deeper (levels minimum : Nat) (role : Role) :
    (Phrase.expression levels minimum role).IsDetermined := by
  induction levels generalizing minimum role with
  | zero => exact isDetermined_cut minimum role
  | succ levels previous => exact isDetermined_expression previous minimum role

/-- **Statements are read in one way only.** -/
theorem Derives.unique_statements {terminator : Option TokenKind} {levels : Nat} {mode : Mode}
    {first last last' : Cursor Lexeme} {parts parts' : List Part}
    (run : Derives (.statements terminator levels) mode first parts last)
    (other : Derives (.statements terminator levels) mode first parts' last') :
    parts = parts' ∧ last = last' :=
  isDetermined_statements (isDetermined_deeper levels) terminator run other

end Grammar

end RSource
