/-
**Where the semicolon of a body ends its statement.**

A body without braces takes the semicolon behind it, and what is read around the body looks at the
next token all the same. So the semicolon is the last leaf of its statement exactly when the next
token goes on with nothing: it is no second semicolon, opens no argument list, is no operator
between two operands, and is no `else` where the semicolon ends the branch of an `if`
(`continues`). Main statement: `Reading.semicolon_last_iff`.
-/

import RSource.Proofs.Semicolon.Edges
import Mathlib.Data.List.Nodup

namespace RSource

open Grammar Reader

/-- Whether the tokens behind the semicolon of a body go on with the statement around the body. Line
breaks in front of an `else` count outside braces only. -/
def continues (braced endsBranch : Bool) (after : List Lexeme) : Bool :=
  after.head?.any extendsStatement || endsBranch
    && (if braced then after.dropWhile isLineBreak else after).head?.any
        (·.isKeyword "else".toList)

/-- The semicolon that a part is. -/
def Part.semicolon? : Part → Option Lexeme
  | .child .semicolon (.leaf lexeme) => some lexeme
  | _ => none

/-- The semicolon of a statement itself. -/
def Tree.ownSemicolon? : Tree → Option Lexeme
  | .node _ _ parts => parts.findSome? Part.semicolon?
  | _ => none

namespace Grammar

open Reader Cursor

/-! ### The next token, from a cursor -/

theorem any_head? {test : Lexeme → Bool} {mark : Lexeme} (unmarked : test mark = false)
    (list : List Lexeme) : list.head?.any test = test (list.headD mark) := by
  cases list with
  | nil => exact unmarked.symm
  | cons => rfl

section Mark

variable {mark : Lexeme} (marked : mark.kind = .endOfStream)
include marked

theorem extendsStatement_mark : extendsStatement mark = false := by
  simp [extendsStatement, opensList, infixOf?, marked]

theorem isKeyword_mark (word : Text) : mark.isKeyword word = false := by
  simp [Lexeme.isKeyword, marked]

end Mark

/-- What goes on behind a cursor, as the grammar sees it. -/
theorem continues_rest_iff {items : List Lexeme} {mode : Mode} {cursor : Cursor Lexeme}
    (lined : mode.lineBreaksIgnored = false) (covered : IsOver items cursor) (endsBranch : Bool) :
    continues (decide (0 < mode.braceDepth)) endsBranch cursor.rest = true
      ↔ extendsStatement (look mode cursor) = true
        ∨ endsBranch = true ∧ seesElse mode cursor = true := by
  have next : look mode cursor = cursor.rest.headD cursor.mark := by
    rw [look, settle_of_lined lined, Cursor.current]
  have beyondNext : (beyond cursor).current
      = (cursor.rest.dropWhile isLineBreak).headD cursor.mark := rfl
  rw [continues, Bool.or_eq_true, Bool.and_eq_true,
    any_head? (extendsStatement_mark covered.marked), any_head? (isKeyword_mark covered.marked _),
    seesElse, lined, Bool.or_false, next, beyondNext]
  by_cases braced : 0 < mode.braceDepth
  · simp [braced]
  · simp [braced]

/-! ### Statements -/

section Statement

variable {items : List Lexeme} {mode : Mode} {last : Cursor Lexeme} {place : Exposure}

theorem IsOver.split {cursor : Cursor Lexeme} {lexeme : Lexeme} (covered : IsOver items cursor)
    (previous : cursor.previous? = some lexeme) :
    ∃ before, items = before ++ lexeme :: cursor.rest := by
  obtain ⟨passed, rest, mark⟩ := cursor
  obtain ⟨others, rfl⟩ := List.head?_eq_some_iff.mp previous
  refine ⟨others.reverse, ?_⟩
  rw [← covered.items, Cursor.items]
  simp

/-- Where more was read behind a semicolon, the tokens behind it go on. -/
theorem GoesOn.continues (goesOn : GoesOn items mode place)
    (lined : mode.lineBreaksIgnored = false) :
    ∃ before after, items = before ++ place.lexeme :: after
      ∧ continues (decide (0 < mode.braceDepth)) place.endsBranch after = true := by
  obtain ⟨cursor, covered, previous, next⟩ := goesOn.next
  obtain ⟨before, split⟩ := covered.split previous
  exact ⟨before, cursor.rest, split, (continues_rest_iff lined covered _).mpr next⟩

/-- Where an expression of a statement ended with a semicolon, only another one goes on. -/
theorem EndsWith.continues {levels : Nat} {role : Role}
    (ended : EndsWith (.expression levels 0 role) mode last place) (covered : IsOver items last)
    (lined : mode.lineBreaksIgnored = false) :
    ∃ before, items = before ++ place.lexeme :: last.rest
      ∧ (continues (decide (0 < mode.braceDepth)) place.endsBranch last.rest = true
        ↔ (look mode last).kind = .semicolon) := by
  obtain ⟨before, split⟩ := covered.split ended.previous
  obtain ⟨closed, loose⟩ := ended.quiet
  refine ⟨before, split, (continues_rest_iff lined covered _).trans ?_⟩
  have noOperator : infixOf? (look mode last) = none := by
    rw [extendsExpression, Bool.or_eq_false_iff] at closed
    by_contra found
    obtain ⟨operator, infixOf⟩ := Option.ne_none_iff_exists'.mp found
    cases member : operator.isAccessor with
    | true =>
      rw [accessorOf?_eq_some_iff.mpr ⟨infixOf, member⟩] at closed
      cases closed.2
    | false =>
      rw [infixAt?_eq_some_iff.mpr ⟨infixOf, member, Nat.zero_le _⟩] at loose
      cases loose
  have unopened : opensList (look mode last).kind = false := by
    rw [extendsExpression, Bool.or_eq_false_iff] at closed
    exact closed.1
  have noElse : ¬ (place.endsBranch = true ∧ seesElse mode last = true) := by
    rintro ⟨branch, seen⟩
    rw [ended.noElse branch] at seen
    cases seen
  rw [or_iff_left noElse, extendsStatement, unopened, noOperator]
  simp

/-- A tree that was read holds no token twice. -/
theorem Derives.leaves_nodup {phrase : Phrase} {first : Cursor Lexeme} {role : Role} {tree : Tree}
    (run : Derives phrase mode first [.child role tree] last) (covered : IsOver items first)
    (distinct : items.Nodup) : tree.leaves.Nodup := by
  obtain ⟨consumed, moved, kept⟩ := run.accounts covered.marked
  have inItems : consumed.Sublist items := by
    rw [← covered.items, Cursor.items, moved.rest]
    exact (List.sublist_append_left _ _).trans (List.sublist_append_right _ _)
  have inConsumed : tree.tokens.Sublist consumed := by
    simpa using kept.sublist
  exact distinct.sublist (((Tree.leaves_sublist tree).trans inConsumed).trans inItems)

/-- **A semicolon is the last leaf of a statement exactly when it is the statement's own or nothing
behind it goes on.** -/
theorem Derives.statement_ends_iff {levels : Nat} {role : Role} {first : Cursor Lexeme}
    {statement : Tree}
    (run : Derives (.statement levels role) mode first [.child role statement] last)
    (lined : mode.lineBreaksIgnored = false) (covered : IsOver items first) (distinct : items.Nodup)
    (exposed : place ∈ statement.exposed) (semicolon : place.lexeme.kind = .semicolon) :
    ∃ before after, items = before ++ place.lexeme :: after
      ∧ (place.behind = [] ↔ statement.ownSemicolon? = some place.lexeme
        ∨ continues (decide (0 < mode.braceDepth)) place.endsBranch after = false) := by
  have once := run.leaves_nodup covered distinct
  cases run with
  | @statement _ _ _ _ here _ tree _ inner ends =>
    have second := inner.isOver covered
    rcases List.mem_append.mp exposed with inExpression | inSemicolon
    · obtain ⟨_, deeper, inside, rfl⟩ := Tree.mem_partExposed_child.mp inExpression
      have own := inner.edges lined covered _ _ rfl deeper inside semicolon
      cases ends with
      | absent unseen =>
        have alone : deeper.within (Form.statement.branches .expression) (Tree.partsLeaves [])
            = deeper := Exposure.within_nil deeper
        rw [alone]
        rcases own with ended | goesOn
        · obtain ⟨before, split, next⟩ := ended.continues second lined
          refine ⟨before, _, split, iff_of_true ended.behind (.inr ?_)⟩
          exact Bool.eq_false_iff.mpr fun further => ne_of_beq_false unseen (next.mp further)
        · obtain ⟨before, after, split, next⟩ := goesOn.continues lined
          refine ⟨before, after, split, iff_of_false goesOn.behind ?_⟩
          rintro (none | stops)
          · cases none
          · cases next.symm.trans stops
      | present found readable =>
        have followed : GoesOn items mode (deeper.within false [look mode here]) := by
          rcases own with ended | goesOn
          · refine ⟨?_, here, second, ended.previous, .inl ?_⟩
            · exact List.append_ne_nil_of_right_ne_nil _ (List.cons_ne_nil _ _)
            · exact extendsStatement_of_kind (eq_of_beq found) rfl
          · exact goesOn.within false _
        obtain ⟨before, after, split, next⟩ := followed.continues lined
        refine ⟨before, after, split, iff_of_false followed.behind ?_⟩
        rintro (same | stops)
        · -- The statement's own semicolon is another one.
          obtain ⟨front, shape⟩ := tree.leaves_of_mem_exposed inside
          have inTree : deeper.lexeme ∈ tree.leaves := by
            rw [shape]
            simp
          have twice : look mode here = deeper.lexeme := Option.some.inj same
          have leaves : (tree.leaves ++ [look mode here]).Nodup := once
          rw [twice] at leaves
          exact (List.disjoint_of_nodup_append leaves) inTree List.mem_cons_self
        · cases next.symm.trans stops
    · cases ends with
      | absent _ => exact absurd inSemicolon List.not_mem_nil
      | present _ readable =>
        rw [eq_of_mem_semicolon inSemicolon]
        obtain ⟨before, split⟩ := (second.past mode).split (second.previous?_past readable)
        exact ⟨before, _, split, iff_of_true rfl (.inl rfl)⟩

end Statement

end Grammar

/-- **A semicolon of a listed statement, outside brackets and braces, is its last leaf exactly when
it is the statement's own or nothing behind it goes on.** -/
theorem Reading.semicolon_last_iff {text : Text} {form : Form} {span : Span} {parts : List Part}
    {statement : Tree} {place : Exposure} (scope : form = .globalScope ∨ form = .scope)
    (within : (Tree.node form span parts).IsWithin (read text).tree)
    (listed : .child .statements statement ∈ parts) (exposed : place ∈ statement.exposed)
    (semicolon : place.lexeme.kind = .semicolon) :
    ∃ before after, significant text = before ++ place.lexeme :: after
      ∧ (statement.leaves.getLast? = some place.lexeme
        ↔ statement.ownSemicolon? = some place.lexeme
          ∨ continues (form == .scope) place.endsBranch after = false) := by
  obtain ⟨levels, mode, first, last, run, covered, lined, braced⟩ :=
    Reading.stated scope within listed
  have distinct : (significant text).Nodup :=
    (significant_ordered text).imp fun {first second} before same =>
      absurd (same ▸ before) (Nat.lt_irrefl _)
  rw [← braced, Tree.getLast?_leaves_iff exposed (run.leaves_nodup covered distinct)]
  exact run.statement_ends_iff lined covered distinct exposed semicolon

/-- The semicolon in `if (x) y; z` is the last leaf of its statement. -/
theorem Reading.semicolon_before_name :
    ∃ span parts statement place,
      (Tree.node .globalScope span parts).IsWithin (read "if (x) y; z".toList).tree
        ∧ .child .statements statement ∈ parts ∧ place ∈ statement.exposed
        ∧ place.lexeme.kind = .semicolon
        ∧ ∃ before after, significant "if (x) y; z".toList = before ++ place.lexeme :: after
          ∧ (statement.leaves.getLast? = some place.lexeme
            ↔ statement.ownSemicolon? = some place.lexeme
              ∨ continues (Form.globalScope == .scope) place.endsBranch after = false) := by
  exact ⟨_, _, _, ⟨⟨.semicolon, 8, [';']⟩, [], true⟩, .here, List.mem_cons_self, by decide, rfl,
    Reading.semicolon_last_iff (.inl rfl) .here List.mem_cons_self (by decide) rfl⟩

/-- The semicolon in `if (x) y; -z` is not: the difference goes on behind it. -/
theorem Reading.semicolon_before_sign :
    ¬ ∀ (text : Text) (form : Form) (span : Span) (parts : List Part) (statement : Tree)
        (place : Exposure), form = .globalScope ∨ form = .scope →
      (Tree.node form span parts).IsWithin (read text).tree →
      .child .statements statement ∈ parts → place ∈ statement.exposed →
      place.lexeme.kind = .semicolon → statement.leaves.getLast? = some place.lexeme := by
  intro always
  have last := always "if (x) y; -z".toList .globalScope _ _ _
    ⟨⟨.semicolon, 8, [';']⟩, [⟨.operator, 10, ['-']⟩, ⟨.identifier, 11, ['z']⟩], true⟩
    (.inl rfl) .here List.mem_cons_self (by decide) rfl
  exact absurd last (by decide)

end RSource
