/-
**How operators group.**

Reading an expression with a least precedence leaves behind an operator that is looser than it. So
every operator on the right edge of what was read (`OnRightSpine`) is followed by one looser than
its own operand's least precedence; that is the invariant `Guards` which the loop over infix
operators keeps, and from which each operator node gets its bounds (`WellGrouped`). Main statement:
`Derives.grouped`.
-/

import RSource.Proofs.Operator
import RSource.Proofs.Program
import RSource.Proofs.Tree.Subtrees
import RSource.Proofs.Tree.Problems

namespace RSource

namespace Tree

/-- An operator at a tree, or further down its right operands. -/
inductive OnRightSpine (operator : Operator) : Tree → Prop where
  | here {span : Span} {parts : List Part} :
      OnRightSpine operator (.node (.operator operator) span parts)
  | right {other : Operator} {span : Span} {parts : List Part} {tree : Tree} :
      .child .right tree ∈ parts → OnRightSpine operator tree →
      OnRightSpine operator (.node (.operator other) span parts)

end Tree

/-- The operands of an operator hold no looser operators at their open ends: to the left along the
right spine, to the right at the root. -/
structure WellGrouped (operator : Operator) (parts : List Part) : Prop where
  left : ∀ left, .child .left left ∈ parts → ∀ inner, left.OnRightSpine inner →
    inner.isAccessor = false →
      operator.precedence < inner.precedence
        ∨ inner.isUnary = false ∧ inner.precedence = operator.precedence
          ∧ operator.association = .left
  right : ∀ left, .child .left left ∈ parts → ∀ inner span below,
    .child .right (.node (.operator inner) span below) ∈ parts → inner.isUnary = false →
      match operator.association with
      | .left => operator.precedence < inner.precedence
      | .right => operator.precedence ≤ inner.precedence
  operand : operator.isUnary = true → ∀ inner span below,
    .child .right (.node (.operator inner) span below) ∈ parts → inner.isUnary = false →
      operator.precedence ≤ inner.precedence

/-- A tree is no operator node, an access, or a well grouped operator node. -/
def Tree.IsWellGrouped : Tree → Prop
  | .node (.operator operator) _ parts => operator.isAccessor = false → WellGrouped operator parts
  | _ => True

namespace Grammar

open Reader Cursor RSource.Tree

/-! ### The invariant -/

/-- Behind a tree stands nothing that an operator on its right spine would have taken. -/
def Guards (mode : Mode) (last : Cursor Lexeme) (tree : Tree) : Prop :=
  ∀ operator, tree.OnRightSpine operator → operator.isAccessor = false →
    infixAt? operator.operandMinimum (look mode last) = none

/-- An infix operator at a tree has at least a precedence. -/
def Reaches (minimum : Nat) (tree : Tree) : Prop :=
  ∀ operator span parts, tree = .node (.operator operator) span parts → operator.isUnary = false →
    operator.isAccessor = false → minimum ≤ operator.precedence

/-- A tree has accessors alone on its right spine. -/
def IsTight (tree : Tree) : Prop :=
  ∀ operator, tree.OnRightSpine operator → operator.isAccessor = true

theorem isTight_leaf (lexeme : Lexeme) : IsTight (.leaf lexeme) := nofun

theorem isTight_ofParts {form : Form} {parts : List Part}
    (other : ∀ operator, form ≠ .operator operator) : IsTight (.ofParts form parts) := by
  intro operator spine
  generalize shape : Tree.ofParts form parts = tree at spine
  cases spine with
  | here => cases shape; exact absurd rfl (other _)
  | right _ _ => cases shape; exact absurd rfl (other _)

/-- An access is tight when its member is. -/
theorem isTight_accessor {operator : Operator} {parts : List Part} {right : Tree}
    (accessor : operator.isAccessor = true)
    (only : ∀ tree, .child .right tree ∈ parts → tree = right)
    (tight : IsTight right) : IsTight (.ofParts (.operator operator) parts) := by
  intro other spine
  generalize shape : Tree.ofParts (.operator operator) parts = tree at spine
  cases spine with
  | here => cases shape; exact accessor
  | right member below =>
    cases shape
    rw [only _ member] at below
    exact tight other below

theorem guards_of_isTight {tree : Tree} (tight : IsTight tree) (mode : Mode)
    (last : Cursor Lexeme) : Guards mode last tree := by
  intro operator spine plain
  rw [tight operator spine] at plain
  cases plain

theorem reaches_of_isTight {tree : Tree} (tight : IsTight tree) (minimum : Nat) :
    Reaches minimum tree := by
  rintro operator span parts rfl _ plain
  rw [tight operator .here] at plain
  cases plain

/-- An operator that is not taken is looser than the least precedence. -/
theorem precedence_lt_of_infixAt? {minimum : Nat} {lexeme : Lexeme} {operator : Operator}
    (refused : infixAt? minimum lexeme = none) (found : infixOf? lexeme = some operator)
    (plain : operator.isAccessor = false) : operator.precedence < minimum := by
  by_contra reached
  have taken := infixAt?_eq_some_iff.mpr ⟨found, plain, Nat.le_of_not_lt reached⟩
  rw [refused] at taken
  cases taken

theorem operandMinimum_of_binary {operator : Operator} (binary : operator.isUnary = false) :
    operator.operandMinimum = operator.rightMinimum := by
  rw [Operator.operandMinimum, binary]
  rfl

theorem operandMinimum_of_unary {operator : Operator} (unary : operator.isUnary = true) :
    operator.operandMinimum = operator.precedence := by
  rw [Operator.operandMinimum, unary]
  rfl

/-- An operator node guards what its right operand guards, and its own operand. -/
theorem guards_operator {mode : Mode} {last : Cursor Lexeme} {operator : Operator}
    {parts : List Part} {right : Tree}
    (only : ∀ tree, .child .right tree ∈ parts → tree = right)
    (own : infixAt? operator.operandMinimum (look mode last) = none)
    (inner : Guards mode last right) : Guards mode last (.ofParts (.operator operator) parts) := by
  intro other spine plain
  generalize shape : Tree.ofParts (.operator operator) parts = tree at spine
  cases spine with
  | here => cases shape; exact own
  | right member below =>
    cases shape
    rw [only _ member] at below
    exact inner other below plain

theorem reaches_operator {minimum : Nat} {operator : Operator} {parts : List Part}
    (reached : operator.isUnary = false → operator.isAccessor = false →
      minimum ≤ operator.precedence) : Reaches minimum (.ofParts (.operator operator) parts) := by
  intro other span below same
  cases same
  exact reached

/-- The operand of an operator before it. -/
theorem wellGrouped_unary {operator : Operator} {sign right : Tree}
    (reaches : Reaches operator.precedence right) (plain : operator.isAccessor = false) :
    WellGrouped operator [.child .operator sign, .child .right right] where
  left left member := by simp at member
  right left member := by simp at member
  operand _ inner span below member binary := by
    obtain rfl : right = .node (.operator inner) span below := by simpa [eq_comm] using member
    cases accessor : inner.isAccessor with
    | true => exact Nat.le_of_lt (Operator.precedence_lt_of_isAccessor plain accessor)
    | false => exact reaches inner span below rfl binary accessor

/-- The operands of an operator between them. -/
theorem wellGrouped_binary {mode : Mode} {second : Cursor Lexeme} {operator : Operator}
    {left sign right : Tree} (found : infixOf? (look mode second) = some operator)
    (plain : operator.isAccessor = false) (guards : Guards mode second left)
    (reaches : Reaches operator.rightMinimum right) :
    WellGrouped operator [.child .left left, .child .operator sign, .child .right right] := by
  have binary := isUnary_of_infixOf? found
  refine ⟨fun other member inner spine innerPlain => ?_,
    fun other member inner span below isRight innerBinary => ?_, fun unary => ?_⟩
  · obtain rfl : other = left := by simpa using member
    have looser := precedence_lt_of_infixAt? (guards inner spine innerPlain) found plain
    cases unary : inner.isUnary with
    | true =>
      rw [operandMinimum_of_unary unary] at looser
      exact .inl looser
    | false =>
      rw [operandMinimum_of_binary unary] at looser
      rcases Nat.lt_or_ge operator.precedence inner.precedence with tighter | notTighter
      · exact .inl tighter
      -- The next operator is taken behind one of its own precedence only if they group to the left.
      cases side : inner.association with
      | right =>
        rw [Operator.rightMinimum_of_right side] at looser
        omega
      | left =>
        rw [Operator.rightMinimum_of_left side] at looser
        have same : inner.precedence = operator.precedence := by omega
        rw [← Operator.association_eq_of_precedence_eq same, side]
        exact .inr ⟨rfl, same, rfl⟩
  · obtain rfl : right = .node (.operator inner) span below := by simpa [eq_comm] using isRight
    have reached : operator.rightMinimum ≤ inner.precedence := by
      cases accessor : inner.isAccessor with
      | true =>
        have tighter := Operator.precedence_lt_of_isAccessor plain accessor
        have bound : operator.rightMinimum ≤ operator.precedence + 1 := by
          unfold Operator.rightMinimum
          split <;> omega
        omega
      | false => exact reaches inner span below rfl innerBinary accessor
    cases side : operator.association with
    | left => rwa [Operator.rightMinimum_of_left side] at reached
    | right => rwa [Operator.rightMinimum_of_right side] at reached
  · rw [binary] at unary
    cases unary

/-! ### All readers keep it -/

/-- What is known of the tree of a phrase and of the token behind it. -/
def Groups : Phrase → Mode → Cursor Lexeme → Tree → Prop
  | .expression _ minimum _, mode, last, tree | .operand _ minimum _, mode, last, tree =>
    Guards mode last tree ∧ Reaches minimum tree ∧ infixAt? minimum (look mode last) = none
  | .chain _ minimum _, mode, last, tree => Guards mode last tree ∧ Reaches minimum tree
  | .leading _ _, mode, last, tree => Guards mode last tree ∧ ∀ minimum, Reaches minimum tree
  | .postfixed _ _, _, _, tree | .suffixed _ _, _, _, tree | .primary _ _, _, _, tree
  | .construct _ _ _, _, _, tree | .block _ _, _, _, tree | .expected _ _ _, _, _, tree =>
    IsTight tree
  | _, _, _, _ => True

/-- The parts of a phrase are well grouped. -/
structure Grouped (phrase : Phrase) (mode : Mode) (parts : List Part) (last : Cursor Lexeme) :
    Prop where
  below : ∀ part ∈ parts, part.All IsWellGrouped
  top : ∀ role tree, parts = [.child role tree] → Groups phrase mode last tree

@[simp] theorem all_isWellGrouped_listOf_iff (anchor : Nat) (items : List Part) :
    (listOf anchor items).All IsWellGrouped ↔ ∀ part ∈ items, part.All IsWellGrouped := by
  rw [listOf, all_node_iff, and_iff_right]
  trivial

@[simp] theorem all_isWellGrouped_leafAt (mode : Mode) (cursor : Cursor Lexeme) :
    (leafAt mode cursor).All IsWellGrouped := (all_leaf_iff _).mpr trivial

theorem all_isWellGrouped_ofParts_iff {form : Form} {parts : List Part}
    (other : ∀ operator, form ≠ .operator operator) :
    (ofParts form parts).All IsWellGrouped ↔ ∀ part ∈ parts, part.All IsWellGrouped := by
  rw [all_ofParts_iff, and_iff_right]
  cases form <;> first | trivial | exact absurd rfl (other _)

/-- A node that applies no operator. -/
theorem Grouped.ofParts {phrase : Phrase} {mode : Mode} {last : Cursor Lexeme} {role : Role}
    {form : Form} {parts : List Part} (other : ∀ operator, form ≠ .operator operator)
    (below : ∀ part ∈ parts, part.All IsWellGrouped)
    (groups : IsTight (.ofParts form parts) → Groups phrase mode last (.ofParts form parts)) :
    Grouped phrase mode [.child role (.ofParts form parts)] last where
  below := by simpa [all_isWellGrouped_ofParts_iff other] using below
  top own tree same := by
    obtain ⟨rfl, rfl⟩ : role = own ∧ Tree.ofParts form parts = tree := by simpa using same
    exact groups (isTight_ofParts other)

/-- One token. -/
theorem Grouped.leafAt {phrase : Phrase} {mode : Mode} {first last : Cursor Lexeme} {role : Role}
    (groups : IsTight (leafAt mode first) → Groups phrase mode last (leafAt mode first)) :
    Grouped phrase mode [.child role (leafAt mode first)] last where
  below := by simp
  top own tree same := by
    obtain ⟨rfl, rfl⟩ : role = own ∧ Grammar.leafAt mode first = tree := by simpa using same
    exact groups (isTight_leaf _)

/-- No tree. -/
theorem Grouped.nil {phrase : Phrase} {mode : Mode} {last : Cursor Lexeme} :
    Grouped phrase mode [] last := ⟨by simp, nofun⟩

/-- Parts of a phrase of which nothing is known but what they hold. -/
theorem Grouped.of_below {phrase : Phrase} {mode : Mode} {parts : List Part}
    {last : Cursor Lexeme} (below : ∀ part ∈ parts, part.All IsWellGrouped)
    (free : ∀ tree, Groups phrase mode last tree) : Grouped phrase mode parts last :=
  ⟨below, fun _ tree _ => free tree⟩

/-- A node that applies an operator. -/
theorem Grouped.ofOperator {phrase : Phrase} {mode : Mode} {last : Cursor Lexeme} {role : Role}
    {operator : Operator} {parts : List Part}
    (own : operator.isAccessor = false → WellGrouped operator parts)
    (below : ∀ part ∈ parts, part.All IsWellGrouped)
    (groups : Groups phrase mode last (.ofParts (.operator operator) parts)) :
    Grouped phrase mode [.child role (.ofParts (.operator operator) parts)] last where
  below := by
    rw [List.forall_mem_singleton]
    exact (all_ofParts_iff _ _).mpr ⟨own, below⟩
  top other tree same := by
    obtain ⟨rfl, rfl⟩ : role = other ∧ Tree.ofParts (.operator operator) parts = tree := by
      simpa using same
    exact groups

theorem Grouped.mono {phrase other : Phrase} {mode inner : Mode} {parts : List Part}
    {last after : Cursor Lexeme} (grouped : Grouped phrase inner parts last)
    (weaker : ∀ tree, Groups phrase inner last tree → Groups other mode after tree) :
    Grouped other mode parts after :=
  ⟨grouped.below, fun role tree same => weaker tree (grouped.top role tree same)⟩

theorem Grouped.tree {phrase : Phrase} {mode : Mode} {role : Role} {tree : Tree}
    {last : Cursor Lexeme} (grouped : Grouped phrase mode [.child role tree] last) :
    tree.All IsWellGrouped ∧ Groups phrase mode last tree :=
  ⟨by simpa using grouped.below, grouped.top role tree rfl⟩

/-- Without problems the tree is there. -/
theorem IsSingle.exists_tree {role : Role} {parts : List Part} (single : IsSingle role parts)
    (clean : partsProblems parts = []) : ∃ tree, parts = [.child role tree] := by
  rcases single with present | ⟨found, rfl⟩
  · exact present
  · simp at clean

/-- **Without problems all operators are well grouped.** -/
theorem Derives.grouped {phrase : Phrase} {mode : Mode} {first last : Cursor Lexeme}
    {parts : List Part} (run : Derives phrase mode first parts last)
    (clean : partsProblems parts = []) : Grouped phrase mode parts last := by
  induction run with
  | found _ _ => exact .leafAt id
  | present _ _ | formal _ _ => exact .leafAt fun _ => trivial
  | absent | cutNothing | noPrimary | noElse | itemsStart | listingStart | noExpression _ _
  | noPostfixed _ _ | noStatement _ _ => exact .nil
  | missing | cutBracket | cutToken | noOperand | unopened | noBody | stray | unreadable | crowded
  | misplacedFormal =>
    simp at clean
  | expression _ ended previous =>
    refine (previous clean).mono fun tree groups => ⟨?_, groups.2, by rwa [look_settle]⟩
    simpa only [Guards, look_settle] using groups.1
  | chainStart _ previous => exact (previous clean).mono fun tree groups => ⟨groups.1, groups.2 _⟩
  | chainMore _ found run left right =>
    obtain ⟨inLeft, inRight⟩ := by simpa using clean
    obtain ⟨tree, rfl⟩ := run.isSingle_operand.exists_tree inRight
    obtain ⟨infixOf, plain, reached⟩ := infixAt?_eq_some_iff.mp found
    obtain ⟨leftBelow, leftGuards, leftReaches⟩ := (left (by simpa using inLeft)).tree
    obtain ⟨rightBelow, rightGuards, rightReaches, ended⟩ := (right inRight).tree
    have binary := isUnary_of_infixOf? infixOf
    refine .ofOperator (fun _ => ?_) ?_ ⟨?_, ?_⟩
    · exact wellGrouped_binary infixOf plain leftGuards rightReaches
    · simp [leftBelow, rightBelow]
    · refine guards_operator (fun other member => ?_) ?_ rightGuards
      · simpa using member
      · rwa [operandMinimum_of_binary binary]
    · exact reaches_operator fun _ _ => reached
  | operand _ previous => exact (previous clean).mono fun _ => id
  | sign found run right =>
    obtain ⟨tree, rfl⟩ := run.isSingle_operand.exists_tree (by simpa using clean)
    have unary := isUnary_of_leadingOf? found
    obtain ⟨below, guards, reaches, ended⟩ := (right (by simpa using clean)).tree
    refine .ofOperator (wellGrouped_unary reaches) ?_ ⟨?_, fun _ => ?_⟩
    · simp [below]
    · refine guards_operator (fun other member => ?_) ?_ guards
      · simpa using member
      · rwa [operandMinimum_of_unary unary]
    · refine reaches_operator fun binary => ?_
      rw [unary] at binary
      cases binary
  | unsigned _ _ previous =>
    exact (previous clean).mono fun tree tight =>
      ⟨guards_of_isTight tight _ _, reaches_of_isTight tight⟩
  | postfixed _ _ previous | suffixedStart _ previous | blockPrimary _ _ previous
  | constructPrimary _ _ _ previous => exact (previous clean).mono fun tree => id
  | call _ _ _ _ function list close =>
    obtain ⟨inFunction, inList, inClose⟩ := by simpa using clean
    have functionBelow := (function (by simpa using inFunction)).tree.1
    have listBelow := (list inList).below
    have closeBelow := (close inClose).below
    refine .ofParts nofun ?_ id
    simpa [or_imp, forall_and] using ⟨functionBelow, listBelow, closeBelow⟩
  | index _ _ _ _ _ target list close =>
    obtain ⟨inTarget, inList, inClose⟩ := by simpa using clean
    have targetBelow := (target (by simpa using inTarget)).tree.1
    have listBelow := (list inList).below
    have closeBelow := (close inClose).below
    refine .ofParts nofun ?_ id
    simpa [or_imp, forall_and] using ⟨targetBelow, listBelow, closeBelow⟩
  | access _ found run target right =>
    obtain ⟨inTarget, inRight⟩ := by simpa using clean
    obtain ⟨tree, rfl⟩ := run.isSingle_expected.exists_tree inRight
    have accessor := (accessorOf?_eq_some_iff.mp found).2
    have targetBelow := (target (by simpa using inTarget)).tree.1
    obtain ⟨below, tight⟩ := (right inRight).tree
    refine .ofOperator (fun plain => ?_) ?_ ?_
    · rw [accessor] at plain
      cases plain
    · simp [targetBelow, below]
    · refine isTight_accessor accessor (fun other member => ?_) tight
      simpa using member
  | atom _ => exact .leafAt id
  | group opened _ _ inner close =>
    obtain ⟨inInner, inClose⟩ := by simpa using clean
    have innerBelow := (inner inInner).below
    have closeBelow := (close inClose).below
    refine .ofParts nofun ?_ id
    simpa [or_imp, forall_and] using ⟨innerBelow, closeBelow⟩
  | ifElse _ _ _ _ top main other =>
    obtain ⟨inTop, inMain, inOther⟩ := by simpa using clean
    have topBelow := (top inTop).below
    have mainBelow := (main inMain).below
    have otherBelow := (other inOther).below
    refine .ofParts nofun ?_ id
    simpa [or_imp, forall_and] using ⟨topBelow, mainBelow, otherBelow⟩
  | @headed _ _ _ _ _ _ _ _ construct _ _ _ _ top main =>
    obtain ⟨inTop, inMain⟩ := by simpa using clean
    have topBelow := (top inTop).below
    have mainBelow := (main inMain).below
    refine .ofParts (by cases construct <;> nofun) ?_ id
    simpa [or_imp, forall_and] using ⟨topBelow, mainBelow⟩
  | repeatLoop _ _ main =>
    refine .ofParts nofun ?_ id
    simpa using (main (by simpa using clean)).below
  | @word _ _ _ _ construct _ _ => exact .ofParts (by cases construct <;> nofun) (by simp) id
  | opened _ _ inner =>
    refine .of_below ?_ fun _ => trivial
    simpa using (inner (by simpa using clean)).below
  | condition _ _ _ tested close =>
    obtain ⟨inTested, inClose⟩ := by simpa using clean
    have testedBelow := (tested inTested).below
    have closeBelow := (close inClose).below
    refine .of_below ?_ fun _ => trivial
    simpa [or_imp, forall_and] using ⟨testedBelow, closeBelow⟩
  | iteration _ _ _ _ counter link range close =>
    obtain ⟨inCounter, inLink, inRange, inClose⟩ := by simpa using clean
    have counterBelow := (counter inCounter).below
    have linkBelow := (link inLink).below
    have rangeBelow := (range inRange).below
    have closeBelow := (close inClose).below
    refine .of_below ?_ fun _ => trivial
    simpa [or_imp, forall_and] using ⟨counterBelow, linkBelow, rangeBelow, closeBelow⟩
  | formals _ _ list close =>
    obtain ⟨inList, inClose⟩ := by simpa using clean
    have listBelow := (list inList).below
    have closeBelow := (close inClose).below
    refine .of_below ?_ fun _ => trivial
    simpa [or_imp, forall_and] using ⟨listBelow, closeBelow⟩
  | blockBody _ _ previous => exact (previous clean).mono fun _ _ => trivial
  | simpleBody _ _ previous =>
    refine .ofParts nofun ?_ fun _ => trivial
    simpa using (previous (by simpa using clean)).below
  | elseBranch _ _ other =>
    refine .of_below ?_ fun _ => trivial
    simpa using (other (by simpa using clean)).below
  | itemsMore _ _ _ _ items item =>
    obtain ⟨inItems, inItem⟩ := by simpa using clean
    have itemsBelow := (items inItems).below
    have itemBelow := (item inItem).below
    refine .of_below ?_ fun _ => trivial
    simpa [or_imp, forall_and, all_isWellGrouped_ofParts_iff] using ⟨itemsBelow, itemBelow⟩
  | closedList _ _ items =>
    refine .of_below ?_ fun _ => trivial
    simpa using (items (by simpa using clean)).below
  | lastItem _ _ _ _ _ items item | noItem _ _ _ _ _ items item =>
    obtain ⟨inItems, inItem⟩ := by simpa using clean
    have itemsBelow := (items inItems).below
    have itemBelow := (item inItem).below
    refine .of_below ?_ fun _ => trivial
    simpa [or_imp, forall_and, all_isWellGrouped_ofParts_iff] using ⟨itemsBelow, itemBelow⟩
  | named _ _ value | formalDefault _ _ _ value =>
    refine .of_below ?_ fun _ => trivial
    simpa using (value (by simpa using clean)).below
  | unnamed _ _ value | emptyFormal _ _ value => exact (value clean).mono fun _ _ => trivial
  | statement _ _ expression semicolon =>
    obtain ⟨inExpression, inSemicolon⟩ := by simpa using clean
    have expressionBelow := (expression (by simpa using inExpression)).tree.1
    have semicolonBelow := (semicolon inSemicolon).below
    refine .ofParts nofun ?_ fun _ => trivial
    simpa using ⟨expressionBelow, semicolonBelow⟩
  | block _ _ _ items close =>
    obtain ⟨inItems, inClose⟩ := by simpa using clean
    have itemsBelow := (items inItems).below
    have closeBelow := (close inClose).below
    refine .ofParts nofun ?_ id
    simpa [or_imp, forall_and] using ⟨itemsBelow, closeBelow⟩
  | statements _ _ listing => exact (listing clean).mono fun _ _ => trivial
  | listed _ _ _ _ _ listing statement =>
    obtain ⟨inListing, inStatement⟩ := by simpa using clean
    have listingBelow := (listing inListing).below
    have statementBelow := (statement (by simpa using inStatement)).tree.1
    refine .of_below ?_ fun _ => trivial
    simpa [or_imp, forall_and] using ⟨listingBelow, statementBelow⟩

end Grammar

/-- All nodes of a text without problems. -/
theorem Reading.all_isWellGrouped {text : Text} (clean : (read text).problems = []) :
    (read text).tree.All Tree.IsWellGrouped := by
  obtain ⟨items, last, derivation⟩ := Reading.derivation text
  rw [Reading.problems, derivation.tree] at clean
  rw [derivation.tree, Tree.all_node_iff]
  exact ⟨trivial, (derivation.derives.grouped clean).below⟩

/-- **In a text without problems every operator groups by precedence.** -/
theorem Reading.wellGrouped {text : Text} (clean : (read text).problems = [])
    {operator : Operator} {span : Span} {parts : List Part}
    (node : (Tree.node (.operator operator) span parts).IsWithin (read text).tree)
    (plain : operator.isAccessor = false) : WellGrouped operator parts :=
  Reading.all_isWellGrouped clean _ node plain

/-- The conjunction in `a * !b & c` is looser than the negation that ends its left operand. -/
theorem wellGrouped_conjunction :
    (read "a * !b & c".toList).problems = []
      ∧ ∃ span parts, (Tree.node (.operator .and) span parts).IsWithin
          (read "a * !b & c".toList).tree ∧ WellGrouped .and parts :=
  have node := Tree.IsWithin.inside List.mem_cons_self (.inside List.mem_cons_self .here)
  ⟨by decide, _, _, node, Reading.wellGrouped (by decide) node rfl⟩

end RSource
