/-
**How every node is built.**

A node is made by one production, of a few phrases that were read one behind the other. `Built` has
one rule for each way a node comes about and keeps the readings of its parts, so what holds of the
nodes of one form is shown by looking at the rules of that form alone. Reading never changes which
tokens a cursor is over (`Derives.isOver`), and every reading kept is over the same tokens. Main
statements: `Derives.built` and `Reading.built`, every tree that is read was built by one of the
rules.
-/

import RSource.Proofs.Program
import RSource.Proofs.Tree.Subtrees

namespace RSource

namespace Grammar

open Reader Cursor

/-! ### The tokens under a cursor -/

/-- A cursor over these tokens, with the mark behind them. -/
structure IsOver (items : List Lexeme) (cursor : Cursor Lexeme) : Prop where
  items : cursor.items = items
  marked : cursor.mark.kind = .endOfStream

section IsOver

variable {items : List Lexeme} {cursor : Cursor Lexeme} (covered : IsOver items cursor)
include covered

theorem IsOver.suffix : cursor.rest <:+ items := ⟨cursor.passed.reverse, covered.items⟩

theorem IsOver.skipWhile (test : Lexeme → Bool) : IsOver items (cursor.skipWhile test) where
  items := by rw [Cursor.items_skipWhile, covered.items]
  marked := covered.marked

theorem IsOver.settle (mode : Mode) : IsOver items (Reader.settle mode cursor) := by
  unfold Reader.settle
  split
  · exact covered.skipWhile _
  · exact covered

theorem IsOver.past (mode : Mode) : IsOver items (Grammar.past mode cursor) where
  items := by
    rw [Grammar.past, Cursor.items_advance]
    exact (covered.settle mode).items
  marked := by
    rw [past_mark]
    exact covered.marked

theorem IsOver.beyond : IsOver items (Grammar.beyond cursor) := covered.skipWhile _

theorem IsOver.pastSeparators : IsOver items (Grammar.pastSeparators cursor) := covered.skipWhile _

/-- A token that may be a leaf is no mark. -/
theorem IsOver.look_mem {mode : Mode} (readable : (look mode cursor).isReadable = true) :
    look mode cursor ∈ items := by
  have settled := covered.settle mode
  exact settled.suffix.subset
    (current_mem_rest (rest_ne_nil settled.marked (ne_endOfStream_of_isReadable readable)))

theorem Derives.isOver {phrase : Phrase} {mode : Mode} {last : Cursor Lexeme} {parts : List Part}
    (run : Derives phrase mode cursor parts last) : IsOver items last := by
  obtain ⟨consumed, moved, _⟩ := run.accounts covered.marked
  refine ⟨?_, ?_⟩
  · rw [moved.items]
    exact covered.items
  · rw [moved.mark]
    exact covered.marked

end IsOver

/-! ### The rules -/

/-- A construct is a node of its own form. -/
theorem Derives.form_of_construct {construct : Construct} {levels : Nat} {role : Role} {mode : Mode}
    {first last : Cursor Lexeme} {tree : Tree}
    (run : Derives (.construct construct levels role) mode first [.child role tree] last) :
    ∃ span parts, tree = .node construct.form span parts := by
  cases run <;> exact ⟨_, _, rfl⟩

/-- A construct is read from its own keyword on. -/
def Phrase.IsAnnounced (mode : Mode) (first : Cursor Lexeme) : Phrase → Prop
  | .construct own _ _ => (look mode first).kind = .keyword
    ∧ Construct.ofWord? (look mode first).text = some own
  | _ => True

/-- How a tree over these tokens was built. -/
inductive Built (items : List Lexeme) : Tree → Prop where
  | leaf (lexeme : Lexeme) : Built items (.leaf lexeme)
  | cut (lexeme : Lexeme) (skipped : List Lexeme) : Built items (.cut lexeme skipped)
  | operation {levels minimum : Nat} {role : Role} {mode : Mode} {first second last : Cursor Lexeme}
      {left : Tree} {operator : Operator} {right : List Part} :
      IsOver items first → Derives (.chain levels minimum role) mode first [.child role left]
        second →
      infixAt? minimum (look mode second) = some operator →
      Derives (.operand levels operator.rightMinimum .right) mode (beyond (past mode second)) right
        last →
      Built items (.ofParts (.operator operator)
        (.child .left left :: .child .operator (leafAt mode second) :: right))
  | sign {levels : Nat} {mode : Mode} {first last : Cursor Lexeme} {operator : Operator}
      {right : List Part} :
      IsOver items first → leadingOf? (look mode first) = some operator →
      Derives (.operand levels operator.precedence .right) mode (beyond (past mode first)) right
        last →
      Built items (.ofParts (.operator operator) (.child .operator (leafAt mode first) :: right))
  | call {levels : Nat} {role : Role} {mode : Mode} {first second third last : Cursor Lexeme}
      {function : Tree} {list close : List Part} :
      IsOver items first → Derives (.suffixed levels role) mode first [.child role function]
        second →
      (look mode second).kind = .openBrace →
      Derives (.arguments .call .brace levels (look mode second).stop .arguments) mode.bracketed
        (past mode second) list third →
      Derives (.expected (isOfKind .closeBrace) .closeBrace .closeBraceExpected) mode.bracketed
        third close last →
      Built items (.ofParts .call (.child .function function ::
        .child .openBrace (leafAt mode second) :: (list ++ close)))
  | index {levels : Nat} {role : Role} {mode : Mode} {first second third last : Cursor Lexeme}
      {target : Tree} {list close : List Part} {delimiter : Delimiter} :
      IsOver items first → Derives (.suffixed levels role) mode first [.child role target] second →
      delimiter = .squareBracket ∨ delimiter = .doubleSquareBracket →
      (look mode second).kind = delimiter.opener →
      Derives (.arguments .call delimiter levels (look mode second).stop .arguments)
        mode.bracketed (past mode second) list third →
      Derives (.expected (isOfKind delimiter.closer) .closeBracket (.closerMissing delimiter))
        mode.bracketed third close last →
      Built items (.ofParts .index (.child .target target ::
        .child .openBracket (leafAt mode second) :: (list ++ close)))
  | access {levels : Nat} {role : Role} {mode : Mode} {first second last : Cursor Lexeme}
      {target : Tree} {right : List Part} {operator : Operator} :
      IsOver items first → Derives (.suffixed levels role) mode first [.child role target] second →
      accessorOf? (look mode second) = some operator →
      Derives (.expected isMember .right .identifierExpected) mode (past mode second) right last →
      Built items (.ofParts (.operator operator)
        (.child .left target :: .child .operator (leafAt mode second) :: right))
  | group {levels : Nat} {mode : Mode} {first second last : Cursor Lexeme}
      {inner close : List Part} :
      IsOver items first → (look mode first).kind = .openBrace →
      Derives (.operand levels 0 .expression) mode.bracketed (past mode first) inner second →
      Derives (.expected (isOfKind .closeBrace) .closeBrace .closeBraceExpected) mode.bracketed
        second close last →
      Built items (.ofParts .group (.child .openBrace (leafAt mode first) :: (inner ++ close)))
  | construct {construct : Construct} {levels : Nat} {role : Role} {mode : Mode}
      {first last : Cursor Lexeme} {tree : Tree} :
      IsOver items first → (Phrase.construct construct levels role).IsAnnounced mode first →
      Derives (.construct construct levels role) mode first [.child role tree] last →
      Built items tree
  | simpleScope {levels : Nat} {mode : Mode} {first last : Cursor Lexeme} {tree : Tree} :
      IsOver items first → Derives (.statement levels .statement) mode first
        [.child .statement tree] last →
      Built items (.ofParts .simpleScope [.child .statement tree])
  /-- An argument with the comma behind it. -/
  | followed {style : ArgumentStyle} {levels : Nat} {mode : Mode} {first last : Cursor Lexeme}
      {item : List Part} :
      IsOver items first → Derives (.item style levels) mode first item last →
      (look mode last).kind = .comma →
      Built items (.ofParts .argument (item ++ [.child .comma (leafAt mode last)]))
  /-- The last argument of a list. -/
  | argument {style : ArgumentStyle} {levels : Nat} {mode : Mode} {first last : Cursor Lexeme}
      {item : List Part} :
      IsOver items first → Derives (.item style levels) mode first item last →
      Built items (.ofParts .argument item)
  | list {style : ArgumentStyle} {delimiter : Delimiter} {levels anchor : Nat} {role : Role}
      {mode : Mode} {first last : Cursor Lexeme} {tree : Tree} :
      IsOver items first → Derives (.arguments style delimiter levels anchor role) mode first
        [.child role tree] last →
      Built items tree
  | statement {levels : Nat} {role : Role} {mode : Mode} {first last : Cursor Lexeme}
      {tree : Tree} :
      IsOver items first → Derives (.statement levels role) mode first [.child role tree] last →
      Built items tree
  | block {levels : Nat} {role : Role} {mode : Mode} {first last : Cursor Lexeme} {tree : Tree} :
      IsOver items first → Derives (.block levels role) mode first [.child role tree] last →
      Built items tree

section Parts

variable {items : List Lexeme}

@[simp] theorem all_built_leafAt (mode : Mode) (cursor : Cursor Lexeme) :
    (leafAt mode cursor).All (Built items) := (Tree.all_leaf_iff _).mpr (.leaf _)

/-- A node that a rule builds of parts that were built. -/
theorem all_built_ofParts {role : Role} {form : Form} {parts : List Part}
    (own : Built items (.ofParts form parts)) (below : ∀ part ∈ parts, part.All (Built items)) :
    ∀ part ∈ [Part.child role (.ofParts form parts)], part.All (Built items) := by
  rw [List.forall_mem_singleton]
  exact (Tree.all_ofParts_iff _ _).mpr ⟨own, below⟩

/-- An argument list over its items. -/
theorem all_built_listOf {role : Role} {anchor : Nat} {parts : List Part}
    (own : Built items (listOf anchor parts)) (below : ∀ part ∈ parts, part.All (Built items)) :
    ∀ part ∈ [Part.child role (listOf anchor parts)], part.All (Built items) := by
  rw [List.forall_mem_singleton]
  exact (Tree.all_node_iff _ _ _).mpr ⟨own, below⟩

end Parts

/-- **Every tree that is read was built by a rule.** -/
theorem Derives.built {items : List Lexeme} {phrase : Phrase} {mode : Mode}
    {first last : Cursor Lexeme} {parts : List Part} (run : Derives phrase mode first parts last)
    (covered : IsOver items first) (announced : phrase.IsAnnounced mode first) :
    ∀ part ∈ parts, part.All (Built items) := by
  -- Where one phrase is read behind another, its cursor is over the same tokens.
  induction run with
  | found | present | atom | formal => simp
  | missing | absent | cutNothing | noPrimary | unopened | noElse | itemsStart | listingStart
  | noOperand | noBody => simp
  | cutBracket | cutToken => simp [Built.cut]
  | noExpression _ previous | expression _ _ previous | chainStart _ previous
  | operand _ previous | noPostfixed _ previous | postfixed _ _ previous
  | suffixedStart _ previous | noStatement _ previous | statements _ _ previous =>
    exact previous covered trivial
  | unsigned _ _ previous | blockPrimary _ _ previous | unnamed _ _ previous
  | emptyFormal _ _ previous => exact previous (covered.settle _) trivial
  | blockBody _ _ previous => exact previous (covered.beyond.settle _) trivial
  | @chainMore _ _ _ mode _ _ _ _ _ _ before found inRight left right =>
    have behind := ((before.isOver covered).past mode).beyond
    refine all_built_ofParts (.operation covered before found inRight) ?_
    simpa using ⟨Tree.all_of_single (left covered trivial), right behind trivial⟩
  | sign found inRight right =>
    refine all_built_ofParts (.sign covered found inRight) ?_
    simpa using right (covered.past _).beyond trivial
  | @call _ _ mode _ _ _ _ _ _ _ before opened inList inClose target list close =>
    have behind := (before.isOver covered).past mode
    refine all_built_ofParts (.call covered before opened inList inClose) ?_
    simpa [or_imp, forall_and] using ⟨Tree.all_of_single (target covered trivial),
      list behind trivial, close (inList.isOver behind) trivial⟩
  | @index _ _ mode _ _ _ _ _ _ _ _ before bracket opened inList inClose target list close =>
    have behind := (before.isOver covered).past mode
    refine all_built_ofParts (.index covered before bracket opened inList inClose) ?_
    simpa [or_imp, forall_and] using ⟨Tree.all_of_single (target covered trivial),
      list behind trivial, close (inList.isOver behind) trivial⟩
  | access before found inRight target right =>
    refine all_built_ofParts (.access covered before found inRight) ?_
    simpa using ⟨Tree.all_of_single (target covered trivial),
      right ((before.isOver covered).past _) trivial⟩
  | @group _ _ mode _ _ _ _ _ opened inInner inClose inner close =>
    have behind := covered.past mode
    refine all_built_ofParts (.group covered opened inInner inClose) ?_
    simpa [or_imp, forall_and] using
      ⟨inner behind trivial, close (inInner.isOver behind) trivial⟩
  | constructPrimary keyword word _ previous =>
    exact previous (covered.settle _) ⟨by rwa [look_settle], by rwa [look_settle]⟩
  | @ifElse _ role _ _ _ _ _ _ _ _ readable inTop inMain inOther top main other =>
    have behindHead := inTop.isOver (covered.past _)
    refine all_built_ofParts
      (.construct covered announced (.ifElse readable inTop inMain inOther)) ?_
    simpa [or_imp, forall_and] using ⟨top (covered.past _) trivial, main behindHead trivial,
      other (inMain.isOver behindHead) trivial⟩
  | @headed _ role _ _ _ _ _ _ _ headed readable inTop inMain top main =>
    refine all_built_ofParts
      (.construct covered announced (.headed headed readable inTop inMain)) ?_
    simpa [or_imp, forall_and] using
      ⟨top (covered.past _) trivial, main (inTop.isOver (covered.past _)) trivial⟩
  | @repeatLoop _ role _ _ _ _ readable inMain main =>
    refine all_built_ofParts (.construct covered announced (.repeatLoop readable inMain)) ?_
    simpa using main (covered.past _) trivial
  | @word _ role _ _ _ word readable =>
    exact all_built_ofParts (.construct covered announced (.word word readable)) (by simp)
  | opened _ _ inner => simpa using inner (covered.past _) trivial
  | condition _ inTested _ tested close =>
    simpa [or_imp, forall_and] using
      ⟨tested covered trivial, close (inTested.isOver covered) trivial⟩
  | iteration inCounter inLink inRange _ counter link range close =>
    have second := inCounter.isOver covered
    have third := inLink.isOver second
    simpa [or_imp, forall_and] using ⟨counter covered trivial, link second trivial,
      range third trivial, close (inRange.isOver third) trivial⟩
  | formals inList _ list close =>
    simpa [or_imp, forall_and] using
      ⟨list covered trivial, close (inList.isOver covered) trivial⟩
  | @simpleBody _ _ mode _ _ _ _ inStatement previous =>
    have behind := covered.beyond.settle mode
    exact all_built_ofParts (.simpleScope behind inStatement) (previous behind trivial)
  | elseBranch _ _ other => simpa using other (covered.beyond.past _) trivial
  | @itemsMore _ _ _ mode _ _ _ _ _ before _ inItem comma items item =>
    have behind := (before.isOver covered).settle mode
    refine List.forall_mem_append.mpr
      ⟨items covered trivial, all_built_ofParts (.followed behind inItem comma) ?_⟩
    simpa [or_imp, forall_and] using item behind trivial
  | @closedList _ _ _ anchor role _ _ _ _ inItems ends items =>
    have own : Derives (.arguments _ _ _ anchor role) _ _ _ _ := .closedList inItems ends
    exact all_built_listOf (.list covered own) (items covered trivial)
  | @lastItem _ _ _ anchor role mode _ _ _ _ _ inItems more inItem comma some items item =>
    have behind := (inItems.isOver covered).settle mode
    have own : Derives (.arguments _ _ _ anchor role) _ _ _ _ :=
      .lastItem inItems more inItem comma some
    refine all_built_listOf (.list covered own) ?_
    exact List.forall_mem_append.mpr
      ⟨items covered trivial, all_built_ofParts (.argument behind inItem) (item behind trivial)⟩
  | @noItem _ _ _ anchor role _ _ _ _ _ _ inItems more inItem comma none items item =>
    have own : Derives (.arguments _ _ _ anchor role) _ _ _ _ := .noItem inItems more inItem comma none
    refine all_built_listOf (.list covered own) ?_
    exact List.forall_mem_append.mpr
      ⟨items covered trivial, item ((inItems.isOver covered).settle _) trivial⟩
  | named _ _ value | formalDefault _ _ _ value =>
    simpa using value ((covered.past _).past _) trivial
  | misplacedFormal _ _ _ value => simpa using value (covered.settle _) trivial
  | @statement _ role _ _ _ _ _ _ inExpression inSemicolon expression semicolon =>
    have own : Derives (.statement _ role) _ _ _ _ := .statement inExpression inSemicolon
    refine all_built_ofParts (.statement covered own) ?_
    simpa using ⟨Tree.all_of_single (expression covered trivial),
      semicolon (inExpression.isOver covered) trivial⟩
  | @block _ role mode _ _ _ _ _ opened inItems inClose items close =>
    have behind := covered.past mode
    have own : Derives (.block _ role) _ _ _ _ := .block opened inItems inClose
    refine all_built_ofParts (.block covered own) ?_
    simpa [or_imp, forall_and] using
      ⟨items behind trivial, close (inItems.isOver behind) trivial⟩
  | stray _ _ _ listing | unreadable _ _ _ _ listing _ =>
    simpa [or_imp, forall_and] using listing covered trivial
  | @listed _ _ mode _ _ _ _ _ before _ _ _ _ listing statement
  | @crowded _ _ mode _ _ _ _ _ before _ _ _ _ listing statement =>
    have behind := (before.isOver covered).pastSeparators.settle mode
    simpa [or_imp, forall_and] using
      ⟨listing covered trivial, Tree.all_of_single (statement behind trivial)⟩

end Grammar

open Grammar

/-- **Everything below the global scope of a text was built by a rule.** -/
theorem Reading.built {text : Text} {form : Form} {span : Span} {parts : List Part}
    (within : (Tree.node form span parts).IsWithin (read text).tree) (below : form ≠ .globalScope) :
    (Tree.node form span parts).All (Built (significant text)) := by
  obtain ⟨items, last, derivation⟩ := Reading.derivation text
  rw [derivation.tree] at within
  cases within with
  | here => exact absurd rfl below
  | inside member inner =>
    exact inner.all (derivation.derives.built ⟨rfl, rfl⟩ trivial _ member)

end RSource
