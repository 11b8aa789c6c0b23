/-
**Line breaks that nothing depends on.**

An `Edit` leaves out some line breaks of a list of tokens and puts other tokens behind it. Where the
grammar looks at a token that may be a leaf, the edited tokens show the same one (`Edit.Agrees`).
Where it looks at a line break or the end, they show a line break, the end, or the `else` of an `if`
in front of it (`Edit.Blank`): no phrase goes on with any of these (`Lexeme.IsIdle`).

`Edit.Ready` says what a phrase needs in order to be read alike, and `Edit.Fits` what its parts
need: no problems, and behind each statement of a scope a line break or the end where there was one
(`Edit.Closes`).
-/

import RSource.Proofs.Grammar.Consumption
import RSource.Proofs.Tree.Problems

namespace RSource

open Grammar Reader Cursor

/-- Some line breaks left out, and other tokens behind. -/
structure Edit where
  keeps : Lexeme → Bool
  more : List Lexeme
  mark : Lexeme
  kept : ∀ lexeme, isLineBreak lexeme = false → keeps lexeme = true
  marked : mark.kind = .endOfStream

/-- Whether a token goes on with nothing: a line break, the end, or the `else` of an `if` around. -/
def Lexeme.IsIdle (lexeme : Lexeme) : Prop :=
  lexeme.isReadable = false ∨ lexeme.isKeyword "else".toList = true

section Idle

variable {lexeme : Lexeme}

theorem isReadable_eq_false_iff :
    lexeme.isReadable = false ↔ lexeme.kind = .lineBreak ∨ lexeme.kind = .endOfStream := by
  rw [Lexeme.isReadable, Bool.and_eq_false_iff, bne_eq_false_iff_eq, bne_eq_false_iff_eq]

theorem Lexeme.IsIdle.kind (idle : lexeme.IsIdle) :
    lexeme.kind = .lineBreak ∨ lexeme.kind = .endOfStream ∨ lexeme.kind = .keyword := by
  rcases idle with unreadable | word
  · exact (isReadable_eq_false_iff.mp unreadable).imp_right .inl
  · rw [Lexeme.isKeyword, Bool.and_eq_true, beq_iff_eq] at word
    exact .inr (.inr word.1)

theorem Lexeme.IsIdle.infixAt? (idle : lexeme.IsIdle) (minimum : Nat) :
    Grammar.infixAt? minimum lexeme = none := by
  rw [Option.eq_none_iff_forall_not_mem]
  intro operator found
  have kind := kind_of_infixOf? (infixAt?_eq_some_iff.mp found).1
  have idle := idle.kind
  simp [kind] at idle

theorem Lexeme.IsIdle.extendsExpression (idle : lexeme.IsIdle) :
    Grammar.extendsExpression lexeme = false := by
  have idle := idle.kind
  rw [Grammar.extendsExpression, Bool.or_eq_false_iff, Option.isSome_eq_false_iff,
    Option.isNone_iff_eq_none, Option.eq_none_iff_forall_not_mem]
  refine ⟨?_, fun operator found => ?_⟩
  · rcases idle with kind | kind | kind <;> simp [opensList, kind]
  · have kind := kind_of_infixOf? (accessorOf?_eq_some_iff.mp found).1
    simp [kind] at idle

theorem Lexeme.IsIdle.leadingOf? (idle : lexeme.IsIdle) : Grammar.leadingOf? lexeme = none := by
  rcases idle.kind with kind | kind | kind <;> simp [Grammar.leadingOf?, kind]

theorem Lexeme.IsIdle.beginsPrimary (idle : lexeme.IsIdle) :
    Grammar.beginsPrimary lexeme = false := by
  rcases idle.kind with kind | kind | kind <;>
    simp [Grammar.beginsPrimary, isAtom, TokenKind.isLiteral, kind]

theorem Lexeme.IsIdle.isSemicolon (idle : lexeme.IsIdle) :
    isOfKind .semicolon lexeme = false := by
  rcases idle.kind with kind | kind | kind <;> simp [isOfKind, kind]

end Idle

namespace Edit

variable (edit : Edit)

/-- The edited tokens. -/
def list (items : List Lexeme) : List Lexeme := items.filter edit.keeps ++ edit.more

/-- The cursor at the same place in the edited tokens. -/
def cursor (cursor : Cursor Lexeme) : Cursor Lexeme :=
  ⟨cursor.passed.filter edit.keeps, edit.list cursor.rest, edit.mark⟩

/-! ### Moving over edited tokens -/

section Moving

variable {edit} {items : List Lexeme} {mode : Mode} {cursor : Cursor Lexeme}

variable (edit) in
/-- Moving over tokens moves over those of them that are kept. -/
theorem moves {first last : Cursor Lexeme} {taken : List Lexeme} (moved : Moves first last taken) :
    Moves (edit.cursor first) (edit.cursor last) (taken.filter edit.keeps) where
  rest := by
    show edit.list first.rest = _ ++ edit.list last.rest
    rw [moved.rest, list, List.filter_append, List.append_assoc]
    rfl
  passed := by
    show last.passed.filter edit.keeps = _ ++ first.passed.filter edit.keeps
    rw [moved.passed, List.filter_append, List.filter_reverse]
  mark := rfl

theorem settle_cursor_of_lined (lined : mode.lineBreaksIgnored = false) :
    Reader.settle mode (edit.cursor cursor) = edit.cursor (Reader.settle mode cursor) := by
  rw [settle_of_lined lined, settle_of_lined lined]

theorem list_of_current {lexeme : Lexeme} {rest : List Lexeme}
    (token : isLineBreak lexeme = false) :
    edit.list (lexeme :: rest) = lexeme :: edit.list rest := by
  rw [list, List.filter_cons_of_pos (edit.kept lexeme token), List.cons_append]
  rfl

/-- Where a token stops, it or one before it is the first that is not passed. -/
theorem exists_dropWhile {test : Lexeme → Bool} {rest : List Lexeme}
    (stops : ∃ lexeme ∈ rest, test lexeme = false) :
    ∃ lexeme tail, rest.dropWhile test = lexeme :: tail ∧ test lexeme = false := by
  have ends : rest.dropWhile test ≠ [] := by
    rw [ne_eq, List.dropWhile_eq_nil_iff]
    obtain ⟨lexeme, member, fails⟩ := stops
    intro all
    rw [all lexeme member] at fails
    cases fails
  obtain ⟨lexeme, tail, behind⟩ := List.exists_cons_of_ne_nil ends
  refine ⟨lexeme, tail, behind, ?_⟩
  have first := List.head?_dropWhile_not test rest
  rw [behind] at first
  simpa using first

/-- Passing tokens, line breaks among them, up to one that stops. -/
theorem skipWhile_cursor {test : Lexeme → Bool}
    (breaks : ∀ lexeme, isLineBreak lexeme = true → test lexeme = true)
    (stops : ∃ lexeme ∈ cursor.rest, test lexeme = false) :
    (edit.cursor cursor).skipWhile test = edit.cursor (cursor.skipWhile test) := by
  obtain ⟨lexeme, tail, behind, fails⟩ := exists_dropWhile stops
  have token : isLineBreak lexeme = false := by
    cases here : isLineBreak lexeme with
    | false => rfl
    | true => rw [breaks lexeme here] at fails; cases fails
  have shape : (edit.cursor (cursor.skipWhile test)).rest = lexeme :: edit.list tail := by
    show edit.list (cursor.rest.dropWhile test) = _
    rw [behind, list_of_current token]
  have passes : ∀ lexeme ∈ (cursor.rest.takeWhile test).filter edit.keeps, test lexeme = true :=
    fun lexeme member => List.mem_takeWhile_imp (List.mem_filter.mp member).1
  refine ((edit.moves (moves_skipWhile test cursor)).skipWhile passes fun item head => ?_).2
  rw [shape] at head
  cases head
  exact fails

theorem beyond_cursor (stops : ∃ lexeme ∈ cursor.rest, isLineBreak lexeme = false) :
    beyond (edit.cursor cursor) = edit.cursor (beyond cursor) :=
  skipWhile_cursor (fun _ => id) stops

theorem current_beyond_cursor (stops : ∃ lexeme ∈ cursor.rest, isLineBreak lexeme = false) :
    (beyond (edit.cursor cursor)).current = (beyond cursor).current := by
  obtain ⟨lexeme, tail, behind, token⟩ := exists_dropWhile stops
  have shape : (beyond cursor).rest = lexeme :: tail := behind
  rw [beyond_cursor stops, Cursor.current, Cursor.current, Edit.cursor, shape,
    list_of_current token]
  rfl

theorem pastSeparators_cursor (stops : ∃ lexeme ∈ cursor.rest, isSeparator lexeme = false) :
    pastSeparators (edit.cursor cursor) = edit.cursor (pastSeparators cursor) :=
  skipWhile_cursor (fun _ => isSeparator_of_isLineBreak) stops

/-- Behind the last statement there are separators only, then the tokens put behind. -/
theorem pastSeparators_cursor_rest
    (ended : ∀ lexeme ∈ cursor.rest, isSeparator lexeme = true) :
    (pastSeparators (edit.cursor cursor)).rest = edit.more.dropWhile isSeparator :=
  List.dropWhile_append_of_pos fun lexeme member => ended lexeme (List.mem_filter.mp member).1

/-- A token that may be a leaf is not the mark at the end. -/
theorem rest_of_isReadable (marked : cursor.mark.kind = .endOfStream)
    (readable : cursor.current.isReadable = true) :
    ∃ rest, cursor.rest = cursor.current :: rest :=
  ⟨_, (moves_advance (rest_ne_nil marked (ne_endOfStream_of_isReadable readable))).rest⟩

theorem mem_rest_of_isReadable (marked : cursor.mark.kind = .endOfStream)
    (readable : (look mode cursor).isReadable = true) : look mode cursor ∈ cursor.rest := by
  have settled : (settle mode cursor).mark.kind = .endOfStream := by rwa [settle_mark]
  have member : look mode cursor ∈ (settle mode cursor).rest :=
    current_mem_rest (rest_ne_nil settled (ne_endOfStream_of_isReadable readable))
  rw [settle_rest] at member
  split at member
  · exact (List.dropWhile_suffix _).subset member
  · exact member

theorem exists_of_isReadable (marked : cursor.mark.kind = .endOfStream)
    (readable : (look mode cursor).isReadable = true) :
    ∃ lexeme ∈ cursor.rest, isLineBreak lexeme = false :=
  ⟨_, mem_rest_of_isReadable marked readable, isLineBreak_of_isReadable readable⟩

/-- The edited tokens show the token that the others show. -/
structure Agrees (edit : Edit) (mode : Mode) (cursor : Cursor Lexeme) : Prop where
  settle : Reader.settle mode (edit.cursor cursor) = edit.cursor (Reader.settle mode cursor)
  look : Grammar.look mode (edit.cursor cursor) = Grammar.look mode cursor
  past : Grammar.past mode (edit.cursor cursor) = edit.cursor (Grammar.past mode cursor)

theorem Agrees.leafAt (same : edit.Agrees mode cursor) :
    Grammar.leafAt mode (edit.cursor cursor) = Grammar.leafAt mode cursor := by
  rw [Grammar.leafAt, same.look, Grammar.leafAt]

/-- **Where the grammar looks at a token that may be a leaf, the edited tokens show it.** -/
theorem agrees_of_isReadable (marked : cursor.mark.kind = .endOfStream)
    (readable : (look mode cursor).isReadable = true) : edit.Agrees mode cursor := by
  have settled : Reader.settle mode (edit.cursor cursor)
      = edit.cursor (Reader.settle mode cursor) := by
    unfold Reader.settle
    split
    · exact beyond_cursor (exists_of_isReadable marked readable)
    · rfl
  have here : (Reader.settle mode cursor).mark.kind = .endOfStream := by rwa [settle_mark]
  obtain ⟨rest, shape⟩ := rest_of_isReadable here readable
  have token := isLineBreak_of_isReadable readable
  have edited : (edit.cursor (Reader.settle mode cursor)).rest
      = look mode cursor :: edit.list rest := by
    rw [Edit.cursor, shape]
    exact list_of_current token
  refine ⟨settled, ?_, ?_⟩
  · rw [look, settled, Cursor.current, edited]
    rfl
  · have kept : edit.keeps (Reader.settle mode cursor).current = true := edit.kept _ token
    rw [past, settled, past, Cursor.advance, Cursor.advance, edited, shape]
    simp only [Edit.cursor, List.filter_cons_of_pos kept]
    rfl

end Moving

/-! ### Where a phrase ends -/

section Ends

variable {items : List Lexeme} {mode : Mode} {cursor : Cursor Lexeme}

/-- A line break or the end, with a token in front of which nothing goes on in its place. Inside
braces there is a token behind the line breaks. -/
structure Blank (mode : Mode) (cursor : Cursor Lexeme) : Prop where
  lined : mode.lineBreaksIgnored = false
  here : (look mode cursor).isReadable = false
  bounded : 0 < mode.braceDepth → ∃ lexeme ∈ cursor.rest, isLineBreak lexeme = false
  edited : (look mode (edit.cursor cursor)).isReadable = false
    ∨ 0 < mode.braceDepth ∧ (look mode (edit.cursor cursor)).isKeyword "else".toList = true

/-- The tests of the grammar come out alike for the edited tokens. -/
def Suits (mode : Mode) (cursor : Cursor Lexeme) : Prop :=
  (look mode cursor).isReadable = true ∨ edit.Blank mode cursor

variable {edit}

theorem Suits.settle (marked : cursor.mark.kind = .endOfStream) (suits : edit.Suits mode cursor) :
    Reader.settle mode (edit.cursor cursor) = edit.cursor (Reader.settle mode cursor) := by
  rcases suits with readable | blank
  · exact (agrees_of_isReadable marked readable).settle
  · rw [settle_of_lined blank.lined, settle_of_lined blank.lined]

/-- A test that no idle token passes comes out alike. -/
theorem Suits.test {α : Type} {test : Lexeme → α} {fails : α} (suits : edit.Suits mode cursor)
    (marked : cursor.mark.kind = .endOfStream)
    (idle : ∀ lexeme, lexeme.IsIdle → test lexeme = fails) :
    test (look mode (edit.cursor cursor)) = test (look mode cursor) := by
  rcases suits with readable | blank
  · rw [(agrees_of_isReadable marked readable).look]
  · rw [idle _ (.inl blank.here), idle _ (blank.edited.imp_right And.right)]

/-- A phrase with parts may end at any place that suits. -/
theorem Suits.ready {part : Part} {parts : List Part} {holds : Prop}
    (suits : edit.Suits mode cursor) :
    edit.Suits mode cursor ∧ (part :: parts = [] → holds) :=
  ⟨suits, (absurd · (List.cons_ne_nil _ _))⟩

theorem suits_settle_iff :
    edit.Suits mode (Reader.settle mode cursor) ↔ edit.Suits mode cursor := by
  cases lined : mode.lineBreaksIgnored with
  | false => rw [settle_of_lined lined]
  | true =>
    have noBlank (cursor : Cursor Lexeme) : ¬ edit.Blank mode cursor := fun blank => by
      rw [blank.lined] at lined
      cases lined
    simp only [Suits, look_settle, noBlank, or_false]

/-- An `else` is seen from the same places. -/
theorem Suits.seesElse (suits : edit.Suits mode cursor)
    (marked : cursor.mark.kind = .endOfStream) :
    Grammar.seesElse mode (edit.cursor cursor) = Grammar.seesElse mode cursor := by
  unfold Grammar.seesElse
  rcases suits with readable | blank
  · rw [current_beyond_cursor (exists_of_isReadable marked readable),
      (agrees_of_isReadable marked readable).look]
  · by_cases braced : 0 < mode.braceDepth
    · rw [current_beyond_cursor (blank.bounded braced)]
      simp only [gt_iff_lt, braced, decide_true, Bool.true_or, if_true]
    · have noWord {lexeme : Lexeme} (unreadable : lexeme.isReadable = false) :
          lexeme.isKeyword "else".toList = false := by
        rw [Bool.eq_false_iff]
        intro word
        rw [isReadable_of_isKeyword word] at unreadable
        cases unreadable
      have edited := blank.edited.resolve_right fun other => braced other.1
      simp only [gt_iff_lt, braced, blank.lined, decide_false, Bool.or_self, Bool.false_eq_true,
        if_false, noWord blank.here, noWord edited]

variable (edit) in
/-- Line breaks in front of an `else` inside braces do not matter. -/
theorem suits_of_seesElse (marked : cursor.mark.kind = .endOfStream)
    (seen : Grammar.seesElse mode cursor = true) : edit.Suits mode cursor := by
  cases readable : (look mode cursor).isReadable with
  | true => exact .inl readable
  | false =>
    have word := look_beyond_of_seesElse seen
    cases lined : mode.lineBreaksIgnored with
    | true =>
      have same : look mode (beyond cursor) = look mode cursor := by
        rw [look, settle_beyond, look, Reader.settle, if_pos lined]
        rfl
      rw [same] at word
      rw [isReadable_of_isKeyword word] at readable
      cases readable
    | false =>
      have braced : 0 < mode.braceDepth := by
        by_contra outside
        unfold Grammar.seesElse at seen
        simp only [gt_iff_lt, outside, lined, decide_false, Bool.or_self, Bool.false_eq_true,
          if_false] at seen
        rw [isReadable_of_isKeyword seen] at readable
        cases readable
      have found : (beyond cursor).current.isKeyword "else".toList = true := by
        rwa [look, settle_of_lined lined] at word
      obtain ⟨tail, behind⟩ := @rest_of_isReadable (beyond cursor) marked
        (isReadable_of_isKeyword found)
      have shape : cursor.rest
          = cursor.rest.takeWhile isLineBreak ++ (beyond cursor).current :: tail := by
        rw [← behind]
        exact List.takeWhile_append_dropWhile.symm
      refine .inr ⟨lined, readable, fun _ => ⟨(beyond cursor).current, ?_, ?_⟩, ?_⟩
      · rw [shape]
        exact List.mem_append_right _ List.mem_cons_self
      · exact isLineBreak_of_isReadable (isReadable_of_isKeyword found)
      · rw [look, settle_of_lined lined, Cursor.current, Edit.cursor, shape, list,
          List.filter_append]
        cases kept : (cursor.rest.takeWhile isLineBreak).filter edit.keeps with
        | nil =>
          refine .inr ⟨braced, ?_⟩
          have here := edit.kept _ (isLineBreak_of_isReadable (isReadable_of_isKeyword found))
          rwa [List.nil_append, List.filter_cons_of_pos here]
        | cons lexeme others =>
          refine .inl (isReadable_eq_false_iff.mpr (.inl ?_))
          have member : lexeme ∈ (cursor.rest.takeWhile isLineBreak).filter edit.keeps := by
            rw [kept]
            exact List.mem_cons_self
          have breaks : isLineBreak lexeme = true :=
            List.mem_takeWhile_imp (List.mem_filter.mp member).1
          exact eq_of_beq breaks

end Ends

/-! ### Behind the statements of a scope -/

/-- Where a line break or the end stands behind a statement, the edited tokens show one too. Between
them there may be semicolons and line breaks. -/
def Closes (items : List Lexeme) (statement : Tree) : Prop :=
  ∀ leaf ∈ statement.leaves.getLast?, ∀ gap tail, leaf :: gap ++ tail <:+ items →
    (∀ lexeme ∈ gap, isSeparator lexeme = true) →
    (∀ lexeme ∈ tail.head?, lexeme.isReadable = false) →
    ∀ lexeme ∈ (edit.list tail).head?, lexeme.isReadable = false

/-- Behind every statement of a braced scope. -/
def Spares (items : List Lexeme) : Tree → Prop
  | .node .scope _ parts =>
    ∀ statement, .child .statements statement ∈ parts → edit.Closes items statement
  | _ => True

/-- A tree without problems, closed behind every statement that is listed in it. -/
def Fits (items : List Lexeme) : Part → Prop
  | .child _ tree => tree.problems = [] ∧ tree.All (edit.Spares items)
  | .problem _ _ => False

/-- What a phrase needs in order to be read alike. -/
def Ready (items : List Lexeme) : Phrase → Mode → List Part → Cursor Lexeme → Prop
  | .expected _ _ _, _, _, _ | .head _ _, _, _, _ | .block _ _, _, _, _ => True
  | .optional accepts _, mode, _, last =>
    edit.Suits mode last ∧ ∀ lexeme : Lexeme, lexeme.IsIdle → accepts lexeme = false
  | .contents _ _ _, mode, _, _ => mode.lineBreaksIgnored = true
  | .operand _ _ _, mode, _, last | .body _ _, mode, _, last | .elseBranch _, mode, _, last =>
    edit.Suits mode last
  | .arguments _ _ _ _ _, mode, _, last | .items _ _ _, mode, _, last | .item _ _, mode, _, last =>
    mode.lineBreaksIgnored = true ∧ (look mode last).isReadable = true
  | .statements _ _, mode, parts, last =>
    mode.lineBreaksIgnored = false ∧ (look mode last).isReadable = true
      ∧ ∀ statement, .child .statements statement ∈ parts → edit.Closes items statement
  | .listing _ _, mode, parts, last =>
    mode.lineBreaksIgnored = false
      ∧ (0 < mode.braceDepth → ∃ lexeme ∈ last.rest, isLineBreak lexeme = false)
      ∧ ∀ statement, .child .statements statement ∈ parts → edit.Closes items statement
  | _, mode, parts, last =>
    edit.Suits mode last ∧ (parts = [] → (look mode last).isReadable = true)

section Fits

variable {edit} {items : List Lexeme} {role : Role} {parts : List Part}

@[simp] theorem not_fits_problem (found : Problem) (skipped : List Lexeme) :
    ¬ edit.Fits items (.problem found skipped) := id

@[simp] theorem not_fits_cut (lexeme : Lexeme) (skipped : List Lexeme) :
    ¬ edit.Fits items (.child role (.cut lexeme skipped)) := nofun

theorem fits_node_iff (form : Form) (span : Span) :
    edit.Fits items (.child role (.node form span parts))
      ↔ edit.Spares items (.node form span parts) ∧ ∀ part ∈ parts, edit.Fits items part := by
  have clean : Tree.partsProblems parts = [] ↔ ∀ part ∈ parts, Tree.partProblems part = [] := by
    rw [Tree.partsProblems_eq_flatMap, List.flatMap_eq_nil_iff]
  have here (part : Part) : edit.Fits items part
      ↔ Tree.partProblems part = [] ∧ part.All (edit.Spares items) := by
    cases part with
    | child role tree => exact Iff.rfl
    | problem found skipped => exact ⟨False.elim, fun both => List.cons_ne_nil _ _ both.1⟩
  simp only [here, forall₂_and]
  rw [← clean, ← and_left_comm, ← Tree.all_node_iff]
  rfl

/-- The parts of a node that fits. -/
theorem fits_below {form : Form} {span : Span}
    (fits : ∀ part ∈ [Part.child role (.node form span parts)], edit.Fits items part) :
    ∀ part ∈ parts, edit.Fits items part :=
  ((fits_node_iff form span).mp (fits _ List.mem_cons_self)).2

end Fits

end Edit

end RSource
