/-
**Nothing of a flat line reaches beyond it.**

Tokens are flat (`IsFlat`) when no bracket opens among them, none is a keyword, and behind each
operator there is another token that is no line break. An edit trims tokens (`Edit.Trims`) when it
leaves out line breaks at their end only and puts a line break behind them. What is read from flat
tokens is then read alike from the edited ones, whatever problems it has: where the grammar looks at
a token that may be a leaf it sees the same one, and where it looks at a line break or the end it
sees one of them again (`Edit.Trims.test`), so recovery stops at the same place
(`Edit.Trims.skipWhile`). Only an operator makes the grammar look behind a line break, and it finds
its operand, or the token in its place, among the flat tokens. Main statement: `Derives.carried`.
-/

import RSource.Proofs.Grammar.Edited

namespace RSource

open Grammar Reader Cursor

namespace Edit

/-- Only line breaks at the end are left out, and the tokens put behind begin with a line break. -/
structure Trims (edit : Edit) (items : List Lexeme) : Prop where
  ended : ∀ lexeme behind, lexeme :: behind <:+ items → edit.keeps lexeme = false →
    ∀ other ∈ behind, isLineBreak other = true
  broken : ∃ lexeme others, edit.more = lexeme :: others ∧ lexeme.kind = .lineBreak

section Trims

variable {edit : Edit} {items : List Lexeme} {mode : Mode} {cursor : Cursor Lexeme}
  (trims : edit.Trims items)
include trims

/-- In front of a token that is no line break every token is kept. -/
theorem Trims.keeps_of_further {front behind : List Lexeme} {lexeme : Lexeme}
    (split : items = front ++ lexeme :: behind)
    (further : ∃ other ∈ behind, isLineBreak other = false) : edit.keeps lexeme = true := by
  obtain ⟨other, member, token⟩ := further
  by_contra dropped
  have breaks := trims.ended lexeme behind ⟨front, split.symm⟩ (Bool.eq_false_iff.mpr dropped)
    other member
  rw [breaks] at token
  cases token

variable (covered : IsOver items cursor)
include covered

theorem Trims.filter_passed (further : ∃ other ∈ cursor.rest, isLineBreak other = false) :
    cursor.passed.filter edit.keeps = cursor.passed := by
  refine List.filter_eq_self.mpr fun lexeme member => ?_
  obtain ⟨after, early, shape⟩ := List.append_of_mem member
  have split : items = early.reverse ++ lexeme :: (after.reverse ++ cursor.rest) := by
    rw [← covered.items, Cursor.items, shape]
    simp
  obtain ⟨other, inRest, token⟩ := further
  exact trims.keeps_of_further split ⟨other, List.mem_append_right _ inRest, token⟩

/-- In front of a token that is no line break the edited tokens show the same one, line break or
not. -/
theorem Trims.current_of_further (further : ∃ other ∈ cursor.rest, isLineBreak other = false) :
    (edit.cursor cursor).current = cursor.current := by
  obtain ⟨passed, rest, mark⟩ := cursor
  cases rest with
  | nil =>
    obtain ⟨other, member, _⟩ := further
    cases member
  | cons lexeme rest =>
    have kept : edit.keeps lexeme = true := by
      cases breaks : isLineBreak lexeme with
      | false => exact edit.kept lexeme breaks
      | true =>
        refine trims.keeps_of_further covered.items.symm ?_
        obtain ⟨other, member, token⟩ := further
        rcases List.mem_cons.mp member with rfl | later
        · rw [breaks] at token
          cases token
        · exact ⟨other, later, token⟩
    rw [Edit.cursor, list, Cursor.current, List.filter_cons_of_pos kept]
    rfl

/-- Where there is a line break or the end, the edited tokens show one too. -/
theorem Trims.current_of_unreadable (unreadable : cursor.current.isReadable = false) :
    (edit.cursor cursor).current.isReadable = false := by
  obtain ⟨passed, rest, mark⟩ := cursor
  obtain ⟨broken, others, more, breaks⟩ := trims.broken
  have behind : broken.isReadable = false := isReadable_eq_false_iff.mpr (.inl breaks)
  cases rest with
  | nil =>
    show (edit.more.headD edit.mark).isReadable = false
    rwa [more]
  | cons lexeme rest =>
    cases kept : edit.keeps lexeme with
    | true =>
      rw [Edit.cursor, list, Cursor.current, List.filter_cons_of_pos kept]
      exact unreadable
    | false =>
      -- Behind a line break left out there are line breaks only.
      have suffix : lexeme :: rest <:+ items := ⟨passed.reverse, covered.items⟩
      have only := trims.ended lexeme rest suffix kept
      have dropped : ¬ edit.keeps lexeme = true := by simp [kept]
      rw [Edit.cursor, list, Cursor.current, List.filter_cons_of_neg dropped, more]
      cases shape : rest.filter edit.keeps with
      | nil => exact behind
      | cons other tail =>
        have member : other ∈ rest.filter edit.keeps := by simp [shape]
        have found := only other (List.mem_filter.mp member).1
        exact isReadable_eq_false_iff.mpr (.inl (eq_of_beq found))

variable (lined : mode.lineBreaksIgnored = false)
include lined

/-- The edited tokens show the same token, or a line break or the end in the place of one. -/
theorem Trims.agrees_or : edit.Agrees mode cursor
    ∨ (look mode cursor).isReadable = false
      ∧ (look mode (edit.cursor cursor)).isReadable = false := by
  cases readable : (look mode cursor).isReadable with
  | true => exact .inl (edit.agrees_of_isReadable covered.marked readable)
  | false =>
    rw [look, settle_of_lined lined] at readable
    rw [look, settle_of_lined lined]
    exact .inr ⟨rfl, trims.current_of_unreadable covered readable⟩

/-- A test that no line break passes, nor the end, comes out alike. -/
theorem Trims.test {α : Type} (test : Lexeme → α) {fails : α}
    (idle : ∀ lexeme, lexeme.isReadable = false → test lexeme = fails) :
    test (look mode (edit.cursor cursor)) = test (look mode cursor) := by
  rcases trims.agrees_or covered lined with same | ⟨here, edited⟩
  · rw [same.look]
  · rw [idle _ here, idle _ edited]

/-- Passing tokens up to a line break or the end stops at the same token. -/
theorem Trims.skipWhile {test : Lexeme → Bool}
    (idle : ∀ lexeme, lexeme.isReadable = false → test lexeme = false) :
    (edit.cursor cursor).rest.takeWhile test = cursor.rest.takeWhile test
      ∧ (edit.cursor cursor).skipWhile test = edit.cursor (cursor.skipWhile test) := by
  have stops := trims.test (covered.skipWhile test) lined test idle
  rw [look, look, settle_of_lined lined, settle_of_lined lined, test_current_skipWhile
    (idle _ (isReadable_eq_false_iff.mpr (.inr covered.marked)))] at stops
  have kept : (cursor.rest.takeWhile test).filter edit.keeps = cursor.rest.takeWhile test := by
    refine List.filter_eq_self.mpr fun lexeme member => ?_
    refine edit.kept lexeme (isLineBreak_of_isReadable ?_)
    by_contra unreadable
    have fails := idle lexeme (by simpa using unreadable)
    rw [List.mem_takeWhile_imp member] at fails
    cases fails
  have moved := edit.moves (moves_skipWhile test cursor)
  rw [kept] at moved
  refine moved.skipWhile (fun lexeme member => List.mem_takeWhile_imp member) fun lexeme head => ?_
  obtain ⟨tail, shape⟩ := List.head?_eq_some_iff.mp head
  rwa [Cursor.current, shape] at stops

/-- **Recovery passes over the same tokens.** -/
theorem Trims.boundary :
    Grammar.lineRest mode (edit.cursor cursor) = Grammar.lineRest mode cursor
      ∧ Grammar.boundary mode (edit.cursor cursor) = edit.cursor (Grammar.boundary mode cursor) :=
  trims.skipWhile covered lined fun lexeme unreadable => by
    rcases isReadable_eq_false_iff.mp unreadable with kind | kind <;>
      simp [isBoundary, kind, lined]

/-- A statement is separated from the next one alike. -/
theorem Trims.isSeparated (tree : Tree) :
    Grammar.isSeparated mode tree (edit.cursor cursor)
      = Grammar.isSeparated mode tree cursor := by
  rw [Grammar.isSeparated, Grammar.isSeparated]
  cases readable : (look mode cursor).isReadable with
  | true =>
    have same := edit.agrees_of_isReadable covered.marked readable
    have passed := trims.filter_passed covered (exists_of_isReadable covered.marked readable)
    have before : (edit.cursor cursor).previous? = cursor.previous? := by
      rw [Cursor.previous?, Edit.cursor, passed]
      rfl
    rw [same.look, before]
  | false =>
    have ends (lexeme : Lexeme) (unreadable : lexeme.isReadable = false) :
        endsStatement lexeme = true := by
      by_contra goesOn
      rw [isReadable_of_endsStatement (Bool.eq_false_iff.mpr goesOn)] at unreadable
      cases unreadable
    rw [trims.test covered lined endsStatement ends, ends _ readable, Bool.or_true, Bool.or_true]

end Trims

end Edit

/-! ### Flat tokens -/

/-- No bracket opens, no keyword stands here, and behind an operator there is another token. -/
structure IsFlat (items : List Lexeme) : Prop where
  plain : ∀ lexeme ∈ items,
    lexeme.kind.isOpening = false ∧ lexeme.kind ≠ .keyword ∧ lexeme.kind ≠ .endOfStream
  followed : ∀ lexeme behind, lexeme :: behind <:+ items → lexeme.kind = .operator →
    ∃ other ∈ behind, isLineBreak other = false

section Flat

variable {items : List Lexeme} {mode : Mode} {cursor : Cursor Lexeme} (flat : IsFlat items)
  (covered : IsOver items cursor)
include flat covered

/-- The grammar never looks at an opening bracket or a keyword. -/
theorem IsFlat.plain_of_look {kind : TokenKind} (found : (look mode cursor).kind = kind) :
    kind.isOpening = false ∧ kind ≠ .keyword := by
  subst found
  cases readable : (look mode cursor).isReadable with
  | true =>
    have member := Edit.mem_rest_of_isReadable covered.marked readable
    obtain ⟨closed, plain, _⟩ := flat.plain _ (covered.suffix.subset member)
    exact ⟨closed, plain⟩
  | false =>
    rcases isReadable_eq_false_iff.mp readable with kind | kind <;>
      simp [kind, TokenKind.isOpening]

/-- Behind an operator there is a token that is no line break. -/
theorem IsFlat.further (operator : (look mode cursor).kind = .operator) :
    ∃ lexeme ∈ (past mode cursor).rest, isLineBreak lexeme = false := by
  obtain ⟨rest, shape⟩ := Edit.rest_of_isReadable (by rw [settle_mark]; exact covered.marked)
    (isReadable_of_kind operator rfl)
  have suffix := (covered.settle mode).suffix
  rw [shape] at suffix
  obtain ⟨other, member, token⟩ := flat.followed _ rest suffix operator
  refine ⟨other, ?_, token⟩
  rw [past_rest, shape]
  exact member

/-- So the operand begins with a token. -/
theorem IsFlat.isReadable_beyond
    (further : ∃ lexeme ∈ cursor.rest, isLineBreak lexeme = false) :
    (look mode (beyond cursor)).isReadable = true := by
  obtain ⟨lexeme, tail, behind, token⟩ := Edit.exists_dropWhile further
  have shape : (beyond cursor).rest = lexeme :: tail := behind
  have found : lexeme ∈ items := covered.beyond.suffix.subset (by simp [shape])
  rw [look, settle_beyond, Cursor.current, shape, List.headD_cons, Lexeme.isReadable,
    Bool.and_eq_true, bne_iff_ne, bne_iff_ne]
  exact ⟨beq_eq_false_iff_ne.mp token, (flat.plain lexeme found).2.2⟩

end Flat

/-! ### The induction -/

namespace Grammar

/-- In front of a statement the edited tokens show the same token. -/
theorem agrees_pastSeparators (edit : Edit) {terminator : Option TokenKind} {mode : Mode}
    {cursor : Cursor Lexeme} (marked : cursor.mark.kind = .endOfStream)
    (goesOn : endsBlock terminator (look mode (pastSeparators cursor)) = false) :
    edit.Agrees mode (pastSeparators cursor)
      ∧ pastSeparators (edit.cursor cursor) = edit.cursor (pastSeparators cursor) := by
  have readable := isReadable_of_endsBlock marked goesOn
  have behind : (pastSeparators cursor).mark.kind = .endOfStream := marked
  exact ⟨edit.agrees_of_isReadable behind readable, edited_pastSeparators edit marked readable⟩

/-- Where a phrase may begin among flat tokens. A phrase with a bracket or a keyword in front begins
nowhere. -/
def Phrase.Begins (mode : Mode) (first : Cursor Lexeme) : Phrase → Prop
  | expected _ _ _ => ∃ lexeme ∈ first.rest, isLineBreak lexeme = false
  | optional accepts _ => ∀ lexeme : Lexeme, lexeme.isReadable = false → accepts lexeme = false
  | operand _ _ _ => (look mode first).isReadable = true
  | expression _ _ _ | chain _ _ _ | leading _ _ | postfixed _ _ | suffixed _ _ | primary _ _
  | statement _ _ | listing _ _ => True
  | _ => False

/-- **What is read from flat tokens is read alike from the trimmed ones**, problems included. -/
theorem Derives.carried {edit : Edit} {items : List Lexeme} (trims : edit.Trims items)
    (flat : IsFlat items) {phrase : Phrase} {mode : Mode} {first last : Cursor Lexeme}
    {parts : List Part} (run : Derives phrase mode first parts last)
    (covered : IsOver items first) (lined : mode.lineBreaksIgnored = false)
    (begins : phrase.Begins mode first) :
    Derives phrase mode (edit.cursor first) parts (edit.cursor last) := by
  induction run with
  | found accepted readable =>
    have same := edit.agrees_of_isReadable covered.marked readable
    rw [← same.past, ← same.leafAt]
    exact .found (by rwa [same.look]) (by rwa [same.look])
  | @missing _ _ _ mode first refused =>
    -- Behind an accessor the next token may be a line break, but it is one that stays.
    have same : look mode (edit.cursor first) = look mode first := by
      rw [look, look, settle_of_lined lined, settle_of_lined lined]
      exact trims.current_of_further covered begins
    rw [← Edit.settle_cursor_of_lined lined, ← same]
    exact .missing (by rwa [same])
  | present accepted readable =>
    have same := edit.agrees_of_isReadable covered.marked readable
    rw [← same.past, ← same.leafAt]
    exact .present (by rwa [same.look]) (by rwa [same.look])
  | @absent _ _ mode first refused =>
    have same := trims.test covered lined _ begins
    rw [← Edit.settle_cursor_of_lined lined]
    exact .absent (by rwa [same])
  | @cutNothing _ _ mode first ends =>
    have same : endsNesting (look mode (edit.cursor first)).kind
        = endsNesting (look mode first).kind :=
      trims.test covered lined (endsNesting ·.kind) fun lexeme unreadable => by
        by_contra goesOn
        rw [isReadable_of_endsNesting (Bool.eq_false_iff.mpr goesOn)] at unreadable
        cases unreadable
    rw [← Edit.settle_cursor_of_lined lined]
    exact .cutNothing (by rwa [same])
  | cutBracket _ opens =>
    rw [(flat.plain_of_look covered rfl).1] at opens
    cases opens
  | cutToken goesOn plain =>
    have same := edit.agrees_of_isReadable covered.marked (isReadable_of_endsNesting goesOn)
    rw [← same.past, ← same.look]
    exact .cutToken (by rwa [same.look]) (by rwa [same.look])
  | noExpression _ previous => exact .noExpression (previous covered lined trivial)
  | @expression _ minimum _ _ _ last _ inner ends previous =>
    have same := trims.test (inner.isOver covered) lined (infixAt? minimum)
      fun lexeme unreadable => Lexeme.IsIdle.infixAt? (.inl unreadable) minimum
    rw [← Edit.settle_cursor_of_lined lined]
    exact .expression (previous covered lined trivial) (by rwa [same])
  | chainStart _ previous => exact .chainStart (previous covered lined trivial)
  | @chainMore _ _ _ mode _ _ _ _ _ _ inLeft found _ left right =>
    have second := inLeft.isOver covered
    have same := edit.agrees_of_isReadable second.marked (isReadable_of_infixAt? found)
    have further := flat.further second (kind_of_infixOf? (infixAt?_eq_some_iff.mp found).1)
    rw [← same.leafAt]
    refine .chainMore (left covered lined trivial) (by rwa [same.look]) ?_
    rw [same.past, Edit.beyond_cursor further]
    exact right (second.past mode).beyond lined
      (flat.isReadable_beyond (second.past mode) further)
  | operand _ previous => exact .operand (previous covered lined trivial)
  | @noOperand _ _ _ mode first last inner previous =>
    obtain rfl := inner.stays rfl rfl
    have same := edit.agrees_of_isReadable (inner.isOver covered).marked
      (by rw [look_settle]; exact begins)
    rw [← same.settle, ← same.look]
    exact .noOperand (previous covered lined trivial)
  | @sign _ _ mode _ _ _ _ found _ right =>
    have same := edit.agrees_of_isReadable covered.marked (isReadable_of_leadingOf? found)
    have further := flat.further covered (kind_of_leadingOf? found)
    rw [← same.leafAt]
    refine .sign (by rwa [same.look]) ?_
    rw [same.past, Edit.beyond_cursor further]
    exact right (covered.past mode).beyond lined
      (flat.isReadable_beyond (covered.past mode) further)
  | @unsigned _ _ mode first _ _ unfound _ previous =>
    have same := trims.test covered lined leadingOf? fun lexeme unreadable =>
      Lexeme.IsIdle.leadingOf? (.inl unreadable)
    refine .unsigned (by rwa [same]) ?_
    rw [Edit.settle_cursor_of_lined lined]
    exact previous (covered.settle mode) lined trivial
  | noPostfixed _ previous => exact .noPostfixed (previous covered lined trivial)
  | @postfixed _ _ _ _ last _ inner ends previous =>
    have same := trims.test (inner.isOver covered) lined extendsExpression
      fun lexeme unreadable => Lexeme.IsIdle.extendsExpression (.inl unreadable)
    rw [← Edit.settle_cursor_of_lined lined]
    exact .postfixed (previous covered lined trivial) (by rwa [same])
  | suffixedStart _ previous => exact .suffixedStart (previous covered lined trivial)
  | call inFunction opened =>
    have closed := (flat.plain_of_look (inFunction.isOver covered) opened).1
    cases closed
  | index inTarget square opened =>
    have closed := (flat.plain_of_look (inTarget.isOver covered) opened).1
    rcases square with rfl | rfl <;> cases closed
  | @access _ _ mode _ _ _ _ _ _ inTarget found _ target right =>
    have second := inTarget.isOver covered
    have same := edit.agrees_of_isReadable second.marked (isReadable_of_accessorOf? found)
    have sign := kind_of_infixOf? (accessorOf?_eq_some_iff.mp found).1
    rw [← same.leafAt]
    refine .access (target covered lined trivial) (by rwa [same.look]) ?_
    rw [same.past]
    exact right (second.past mode) lined (flat.further second sign)
  | @noPrimary _ _ mode first none noWord =>
    have same := trims.test covered lined beginsPrimary fun lexeme unreadable =>
      Lexeme.IsIdle.beginsPrimary (.inl unreadable)
    have plain : (look mode (edit.cursor first)).kind ≠ .keyword := fun word => by
      rcases trims.agrees_or covered lined with same | ⟨_, unreadable⟩
      · rw [same.look] at word
        exact (flat.plain_of_look covered rfl).2 word
      · rw [isReadable_of_kind word rfl] at unreadable
        cases unreadable
    rw [← Edit.settle_cursor_of_lined lined]
    exact .noPrimary (by rwa [same]) fun word => absurd word plain
  | atom atom =>
    have same := edit.agrees_of_isReadable covered.marked (isReadable_of_isAtom atom)
    rw [← same.past, ← same.leafAt]
    exact .atom (by rwa [same.look])
  | group opened | blockPrimary opened =>
    have closed := (flat.plain_of_look covered opened).1
    cases closed
  | constructPrimary keyword => exact absurd rfl (flat.plain_of_look covered keyword).2
  | noStatement _ previous => exact .noStatement (previous covered lined trivial)
  | statement inExpression _ expression semicolon =>
    refine .statement (expression covered lined trivial)
      (semicolon (inExpression.isOver covered) lined fun lexeme unreadable => ?_)
    exact Lexeme.IsIdle.isSemicolon (.inl unreadable)
  | listingStart => exact .listingStart
  | @stray _ _ mode _ last _ inListing goesOn closed listing =>
    have behind := inListing.isOver covered
    obtain ⟨same, separators⟩ := agrees_pastSeparators edit behind.marked goesOn
    rw [← same.past, ← same.look, ← separators]
    exact .stray (listing covered lined trivial) (by rwa [separators, same.look])
      (by rwa [separators, same.look])
  | @unreadable _ _ mode _ second last _ inListing goesOn noBrace inStatement listing
      statement =>
    have behind := inListing.isOver covered
    obtain ⟨same, separators⟩ := agrees_pastSeparators edit behind.marked goesOn
    have start := behind.pastSeparators.settle mode
    have ended := inStatement.isOver start
    have readable : (look mode last).isReadable = true := by
      rw [inStatement.stays rfl rfl, settle_settle, look_settle]
      exact isReadable_of_endsBlock behind.marked goesOn
    have first := edit.agrees_of_isReadable ended.marked readable
    obtain ⟨passed, stops⟩ := trims.boundary (ended.past mode) lined
    rw [← same.look, ← first.look, ← passed, ← stops, ← first.past, ← separators]
    refine .unreadable (listing covered lined trivial) (by rwa [separators, same.look])
      (by rwa [separators, same.look]) ?_
    rw [separators, same.settle]
    exact statement start lined trivial
  | @listed _ _ mode _ second last _ tree inListing goesOn noBrace inStatement separated listing
      statement =>
    have behind := inListing.isOver covered
    obtain ⟨same, separators⟩ := agrees_pastSeparators edit behind.marked goesOn
    have start := behind.pastSeparators.settle mode
    have ended := inStatement.isOver start
    rw [← Edit.settle_cursor_of_lined lined]
    refine .listed (listing covered lined trivial) (by rwa [separators, same.look])
      (by rwa [separators, same.look]) ?_ (by rwa [trims.isSeparated ended lined])
    rw [separators, same.settle]
    exact statement start lined trivial
  | @crowded _ _ mode _ second last _ tree inListing goesOn noBrace inStatement crowded listing
      statement =>
    have behind := inListing.isOver covered
    obtain ⟨same, separators⟩ := agrees_pastSeparators edit behind.marked goesOn
    have start := behind.pastSeparators.settle mode
    have ended := inStatement.isOver start
    have alike := trims.isSeparated ended lined tree
    have next := crowded
    rw [Grammar.isSeparated, Bool.or_eq_false_iff] at next
    have here := edit.agrees_of_isReadable ended.marked (isReadable_of_endsStatement next.2)
    obtain ⟨passed, stops⟩ := trims.boundary (ended.settle mode) lined
    rw [← here.look, ← passed, ← stops, ← here.settle]
    refine .crowded (listing covered lined trivial) (by rwa [separators, same.look])
      (by rwa [separators, same.look]) ?_ (by rwa [alike])
    rw [separators, same.settle]
    exact statement start lined trivial
  | _ => exact begins.elim

end Grammar

end RSource
