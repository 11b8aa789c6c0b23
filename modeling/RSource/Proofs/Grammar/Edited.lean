/-
**Reading goes on alike without some line breaks.**

Main statement: `Derives.edited`, a phrase that was read without problems is read alike from the
edited tokens, when it is ready for it and its parts fit (`Edit.Ready`, `Edit.Fits`). The induction
is over the reading; the places where a phrase ends have to suit the edit (`Edit.Suits`), and a
phrase inside another one ends in front of a token that may be a leaf or where the other one ends.
-/

import RSource.Proofs.Grammar.Edit
import RSource.Proofs.Grammar.Listed
import RSource.Proofs.Leaves

namespace RSource

open Grammar Reader Cursor

namespace Grammar

/-- Between the last token kept and the end there are separators only. -/
theorem Keeps.exists_gap {consumed taken : List Lexeme} (kept : Keeps consumed taken)
    {leaf : Lexeme} (last : leaf ∈ taken.getLast?) :
    ∃ before gap, consumed = before ++ leaf :: gap ∧ ∀ lexeme ∈ gap, isSeparator lexeme = true := by
  obtain ⟨early, rfl⟩ := List.getLast?_eq_some_iff.mp last
  obtain ⟨left, right, rfl, inLeft, inRight⟩ := List.append_sublist_iff.mp kept.sublist
  obtain ⟨middle, gap, rfl⟩ := List.append_of_mem (List.singleton_sublist.mp inRight)
  refine ⟨left ++ middle, gap, by simp, ?_⟩
  have fewer := (inLeft.filter (!isSeparator ·)).length_le
  have lengths := congrArg List.length kept.complete
  have none : (gap.filter (!isSeparator ·)).length = 0 := by
    rw [← List.singleton_append (l := gap)] at lengths
    simp only [List.filter_append, List.length_append] at lengths
    omega
  intro lexeme member
  have absent := List.filter_eq_nil_iff.mp (List.length_eq_zero_iff.mp none) lexeme member
  simpa using absent

/-- An expression begins with a token that may be a leaf. -/
theorem Derives.isReadable_look {phrase : Phrase} {mode : Mode} {first last : Cursor Lexeme}
    {parts : List Part} (run : Derives phrase mode first parts last)
    (single : phrase.isExpression = true) (some : parts ≠ []) :
    (look mode first).isReadable = true := by
  induction run with
  | cutBracket goesOn _ | cutToken goesOn _ => exact isReadable_of_endsNesting goesOn
  | expression _ _ previous | chainStart _ previous | chainMore _ _ _ previous _
  | postfixed _ _ previous | suffixedStart _ previous | call _ _ _ _ previous _ _
  | index _ _ _ _ _ previous _ _ | access _ _ _ previous _ | statement _ _ previous _ =>
    exact previous rfl (List.cons_ne_nil _ _)
  | sign found _ _ => exact isReadable_of_leadingOf? found
  | unsigned _ _ previous | blockPrimary _ _ previous | constructPrimary _ _ _ previous =>
    rw [← look_settle]
    exact previous rfl some
  | atom atom => exact isReadable_of_isAtom atom
  | group opened _ _ | block opened _ _ => exact isReadable_of_kind opened rfl
  | ifElse readable _ _ _ | headed _ readable _ _ | repeatLoop readable _ | word _ readable =>
    exact readable
  | _ => first | exact absurd rfl some | exact absurd single Bool.false_ne_true

theorem isSeparator_of_endsNesting {lexeme : Lexeme} (goesOn : endsNesting lexeme.kind = false) :
    isSeparator lexeme = false := by
  obtain ⟨kind, start, text⟩ := lexeme
  revert goesOn
  cases kind <;> simp [endsNesting, isSeparator]

/-- It begins with no token that ends expressions. -/
theorem Derives.endsNesting_look {phrase : Phrase} {mode : Mode} {first last : Cursor Lexeme}
    {parts : List Part} (run : Derives phrase mode first parts last)
    (single : phrase.isExpression = true)
    (other : ∀ construct levels role, phrase ≠ .construct construct levels role)
    (some : parts ≠ []) : endsNesting (look mode first).kind = false := by
  induction run with
  | cutBracket goesOn _ | cutToken goesOn _ => exact goesOn
  | expression _ _ previous | chainStart _ previous | chainMore _ _ _ previous _
  | postfixed _ _ previous | suffixedStart _ previous | call _ _ _ _ previous _ _
  | index _ _ _ _ _ previous _ _ | access _ _ _ previous _ | statement _ _ previous _ =>
    exact previous rfl (by simp) (List.cons_ne_nil _ _)
  | sign found _ _ => rw [kind_of_leadingOf? found]; rfl
  | unsigned _ _ previous | blockPrimary _ _ previous =>
    rw [← look_settle]
    exact previous rfl (by simp) some
  | atom atom =>
    revert atom
    generalize look _ _ = lexeme
    obtain ⟨kind, start, text⟩ := lexeme
    cases kind <;> simp [isAtom, TokenKind.isLiteral, endsNesting, TokenKind.isClosing]
  | group opened _ _ | block opened _ _ => rw [opened]; rfl
  | constructPrimary keyword _ _ => rw [keyword]; rfl
  | ifElse | headed | repeatLoop | word => exact absurd rfl (other _ _ _)
  | _ => first | exact absurd rfl some | exact absurd single Bool.false_ne_true

/-- Where no expression begins there is no name. -/
theorem Derives.namesArgument_look {phrase : Phrase} {mode : Mode} {first last : Cursor Lexeme}
    {parts : List Part} (run : Derives phrase mode first parts last)
    (single : phrase.isExpression = true) (nothing : parts = []) :
    namesArgument (look mode first) = false := by
  induction run with
  | cutNothing ends =>
    revert ends
    generalize look _ _ = lexeme
    obtain ⟨kind, start, text⟩ := lexeme
    cases kind <;> simp [endsNesting, TokenKind.isClosing, namesArgument]
  | noPrimary none _ =>
    revert none
    generalize look _ _ = lexeme
    obtain ⟨kind, start, text⟩ := lexeme
    cases kind <;> simp [beginsPrimary, isAtom, TokenKind.isLiteral, namesArgument]
  | noExpression _ previous | noPostfixed _ previous | noStatement _ previous =>
    exact previous rfl rfl
  | unsigned _ _ previous | blockPrimary _ _ previous | constructPrimary _ _ _ previous =>
    rw [← look_settle]
    exact previous rfl nothing
  | _ =>
    first
    | exact absurd nothing (List.cons_ne_nil _ _)
    | exact absurd single Bool.false_ne_true

section Readable

variable {phrase : Phrase} {mode : Mode} {cursor first last : Cursor Lexeme} {parts : List Part}

theorem Derives.isReadable_first (run : Derives phrase mode first parts last)
    (single : phrase.isExpression = true)
    (nothing : parts = [] → (look mode last).isReadable = true) :
    (look mode first).isReadable = true := by
  by_cases none : parts = []
  · have here := nothing none
    rwa [run.stays single none, look_settle] at here
  · exact run.isReadable_look single none

theorem Derives.isReadable_expected {edit : Edit} {items : List Lexeme}
    {accepts : Lexeme → Bool} {role : Role} {problem : ProblemKind}
    (run : Derives (.expected accepts role problem) mode first parts last)
    (fits : ∀ part ∈ parts, edit.Fits items part) : (look mode first).isReadable = true := by
  cases run with
  | found _ readable => exact readable
  | missing _ => exact (fits _ List.mem_cons_self).elim

theorem Derives.isReadable_operand {edit : Edit} {items : List Lexeme} {levels minimum : Nat}
    {role : Role} (run : Derives (.operand levels minimum role) mode first parts last)
    (fits : ∀ part ∈ parts, edit.Fits items part) : (look mode first).isReadable = true := by
  cases run with
  | operand inner => exact inner.isReadable_look rfl (List.cons_ne_nil _ _)
  | noOperand _ => exact (fits _ List.mem_cons_self).elim

/-- Where line breaks are ignored, only the end is no leaf. -/
theorem isReadable_of_ignored (ignored : mode.lineBreaksIgnored = true)
    (marked : cursor.mark.kind = .endOfStream) (more : (look mode cursor).kind ≠ .endOfStream) :
    (look mode cursor).isReadable = true := by
  rw [← Bool.not_eq_false, isReadable_eq_false_iff, not_or]
  refine ⟨fun broken => ?_, more⟩
  have settled : settle mode cursor = cursor.skipWhile isLineBreak := by rw [settle, if_pos ignored]
  have first := List.head?_dropWhile_not isLineBreak cursor.rest
  rw [look, settled, Cursor.current] at broken
  simp only [Cursor.skipWhile] at broken
  cases shape : cursor.rest.dropWhile isLineBreak with
  | nil =>
    rw [shape, List.headD_nil, marked] at broken
    cases broken
  | cons lexeme rest =>
    rw [shape] at first broken
    simp [isLineBreak] at first
    exact first broken

end Readable

/-! ### The induction -/

section Edited

variable {edit : Edit} {items : List Lexeme} {mode : Mode} {cursor : Cursor Lexeme}

variable (edit) in
/-- In front of line breaks and a token that may be a leaf. -/
theorem edited_beyond (marked : cursor.mark.kind = .endOfStream)
    (readable : (look mode (beyond cursor)).isReadable = true) :
    beyond (edit.cursor cursor) = edit.cursor (beyond cursor) := by
  obtain ⟨lexeme, member, token⟩ : ∃ lexeme ∈ (beyond cursor).rest, isLineBreak lexeme = false :=
    Edit.exists_of_isReadable marked readable
  exact Edit.beyond_cursor ⟨lexeme, (List.dropWhile_suffix _).subset member, token⟩

variable (edit) in
/-- Behind separators and in front of a token that may be a leaf. -/
theorem edited_pastSeparators (marked : cursor.mark.kind = .endOfStream)
    (readable : (look mode (pastSeparators cursor)).isReadable = true) :
    pastSeparators (edit.cursor cursor) = edit.cursor (pastSeparators cursor) := by
  have member : look mode (pastSeparators cursor) ∈ (pastSeparators cursor).rest :=
    Edit.mem_rest_of_isReadable marked readable
  obtain ⟨lexeme, tail, shape⟩ := List.exists_cons_of_ne_nil (List.ne_nil_of_mem member)
  have behind : cursor.rest.dropWhile isSeparator = lexeme :: tail := shape
  have first := List.head?_dropWhile_not isSeparator cursor.rest
  rw [behind] at first
  refine Edit.pastSeparators_cursor ⟨lexeme, (List.dropWhile_suffix isSeparator).subset ?_, ?_⟩
  · rw [behind]
    exact List.mem_cons_self
  · simpa using first

theorem exists_of_pastSeparators (marked : cursor.mark.kind = .endOfStream)
    (readable : (look mode (pastSeparators cursor)).isReadable = true) :
    ∃ lexeme ∈ cursor.rest, isLineBreak lexeme = false := by
  obtain ⟨lexeme, member, token⟩ :
      ∃ lexeme ∈ (pastSeparators cursor).rest, isLineBreak lexeme = false :=
    Edit.exists_of_isReadable marked readable
  exact ⟨lexeme, (List.dropWhile_suffix _).subset member, token⟩

/-- The token behind the next one, where line breaks are ignored. -/
theorem look_edited_past (ignored : mode.lineBreaksIgnored = true) {lexeme : Lexeme}
    (member : lexeme ∈ (past mode cursor).rest) (token : isLineBreak lexeme = false) :
    look mode (edit.cursor (past mode cursor)) = look mode (past mode cursor) := by
  rw [look, look, settle, settle, if_pos ignored, if_pos ignored]
  exact Edit.current_beyond_cursor ⟨lexeme, member, token⟩

/-- What stands behind an expression stands behind its first token. -/
theorem Derives.mem_past_rest {phrase : Phrase} {last : Cursor Lexeme} {parts : List Part}
    (run : Derives phrase mode (settle mode cursor) parts last)
    (single : phrase.isExpression = true) (some : parts ≠ [])
    (marked : cursor.mark.kind = .endOfStream) {lexeme : Lexeme} (member : lexeme ∈ last.rest) :
    lexeme ∈ (past mode cursor).rest := by
  obtain ⟨consumed, moved, kept⟩ := run.accounts (by rwa [settle_mark])
  obtain ⟨first, others, rfl⟩ : ∃ first others, consumed = first :: others := by
    refine List.exists_cons_of_ne_nil ?_
    rintro rfl
    exact run.partsTokens_ne_nil single some (List.sublist_nil.mp kept.sublist)
  rw [past_rest, moved.rest]
  exact List.mem_append_right _ member

/-- Behind a statement of a scope the edited tokens show a line break or the end where the others
do. -/
theorem Derives.closed {levels : Nat} {role : Role} {first last : Cursor Lexeme} {tree : Tree}
    (run : Derives (.statement levels role) mode first [.child role tree] last)
    (covered : IsOver items first) (lined : mode.lineBreaksIgnored = false)
    (fits : edit.Fits items (.child role tree)) (closes : edit.Closes items tree)
    (unreadable : (look mode last).isReadable = false) :
    (look mode (edit.cursor last)).isReadable = false := by
  obtain ⟨consumed, moved, kept⟩ := run.accounts covered.marked
  have faithful := Tree.isFaithful_of_single run.faithful
  have same := Tree.leaves_eq_tokens tree faithful fits.1
  have held := run.partsTokens_ne_nil rfl (List.cons_ne_nil _ _)
  simp only [Tree.partsTokens_child, Tree.partsTokens_nil, List.append_nil] at kept held
  obtain ⟨leaf, final⟩ := Option.isSome_iff_exists.mp (List.getLast?_isSome.mpr held)
  obtain ⟨before, gap, rfl, separators⟩ := kept.exists_gap final
  have suffix : leaf :: gap ++ last.rest <:+ items := by
    refine ⟨first.passed.reverse ++ before, ?_⟩
    rw [← covered.items, Cursor.items, moved.rest]
    simp
  rw [look, settle_of_lined lined, Cursor.current] at unreadable ⊢
  have shown := closes leaf (by rwa [same]) gap last.rest suffix separators fun lexeme head => by
    obtain ⟨tail, shape⟩ := List.head?_eq_some_iff.mp head
    rwa [shape] at unreadable
  show ((edit.list last.rest).headD edit.mark).isReadable = false
  cases shape : edit.list last.rest with
  | nil => exact isReadable_eq_false_iff.mpr (.inr edit.marked)
  | cons lexeme tail =>
    rw [shape] at shown
    exact shown lexeme rfl

/-- A statement that is separated from the next one stays so. -/
theorem isSeparated_edited {tree : Tree} (separated : isSeparated mode tree cursor = true)
    (suits : edit.Suits mode cursor) (marked : cursor.mark.kind = .endOfStream)
    (closed : (look mode cursor).isReadable = false →
      (look mode (edit.cursor cursor)).isReadable = false) :
    isSeparated mode tree (edit.cursor cursor) = true := by
  rw [isSeparated, Bool.or_eq_true, Bool.or_eq_true] at separated ⊢
  refine separated.imp (Or.imp_right fun before => ?_) fun ends => ?_
  · obtain ⟨passed, rest, mark⟩ := cursor
    cases passed with
    | nil => cases before
    | cons lexeme passed =>
      have semicolon : (lexeme.kind == .semicolon) = true := before
      have token : isLineBreak lexeme = false := by rw [isLineBreak, eq_of_beq semicolon]; rfl
      rw [Cursor.previous?, Edit.cursor, List.filter_cons_of_pos (edit.kept _ token)]
      exact semicolon
  · cases readable : (look mode cursor).isReadable with
    | true => rwa [(Edit.agrees_of_isReadable marked readable).look]
    | false =>
      rcases isReadable_eq_false_iff.mp (closed readable) with kind | kind <;>
        simp [endsStatement, kind]

/-- **What is read without problems is read alike from the edited tokens.** -/
theorem Derives.edited {phrase : Phrase} {first last : Cursor Lexeme} {parts : List Part}
    (run : Derives phrase mode first parts last) (covered : IsOver items first)
    (fits : ∀ part ∈ parts, edit.Fits items part)
    (ready : edit.Ready items phrase mode parts last) :
    Derives phrase mode (edit.cursor first) parts (edit.cursor last) := by
  induction run with
  | found accepted readable =>
    have same := edit.agrees_of_isReadable covered.marked readable
    rw [← same.past, ← same.leafAt]
    exact .found (by rwa [same.look]) (by rwa [same.look])
  | present accepted readable =>
    have same := edit.agrees_of_isReadable covered.marked readable
    rw [← same.past, ← same.leafAt]
    exact .present (by rwa [same.look]) (by rwa [same.look])
  | absent refused =>
    have suits := Edit.suits_settle_iff.mp ready.1
    rw [← suits.settle covered.marked]
    exact .absent (by rwa [suits.test covered.marked ready.2])
  | cutNothing ends =>
    have readable := ready.2 rfl
    rw [look_settle] at readable
    have same := edit.agrees_of_isReadable covered.marked readable
    rw [← same.settle]
    exact .cutNothing (by rwa [same.look])
  | noExpression _ previous => exact .noExpression (previous covered fits ready)
  | expression inner ends previous =>
    have suits := Edit.suits_settle_iff.mp ready.1
    have marked := (inner.isOver covered).marked
    rw [← suits.settle marked]
    refine .expression (previous covered fits suits.ready) ?_
    rwa [suits.test marked fun lexeme idle => idle.infixAt? _]
  | chainStart _ previous => exact .chainStart (previous covered fits ready.1.ready)
  | chainMore inLeft found inRight left right =>
    have second := inLeft.isOver covered
    have readable := isReadable_of_infixAt? found
    have same := edit.agrees_of_isReadable second.marked readable
    have below := Edit.fits_below fits
    simp only [List.forall_mem_cons] at below
    have behind := edited_beyond edit (second.past _).marked
      (inRight.isReadable_operand below.2.2)
    rw [← same.leafAt]
    refine .chainMore
      (left covered (List.forall_mem_singleton.mpr below.1) (Edit.Suits.ready (.inl readable)))
      (by rwa [same.look]) ?_
    rw [same.past, behind]
    exact right (second.past _).beyond below.2.2 ready.1
  | operand _ previous => exact .operand (previous covered fits (Edit.Suits.ready ready))
  | sign found inRight right =>
    have readable := isReadable_of_leadingOf? found
    have same := edit.agrees_of_isReadable covered.marked readable
    have below := Edit.fits_below fits
    simp only [List.forall_mem_cons] at below
    have behind := edited_beyond edit (covered.past _).marked
      (inRight.isReadable_operand below.2)
    rw [← same.leafAt]
    refine .sign (by rwa [same.look]) ?_
    rw [same.past, behind]
    exact right (covered.past _).beyond below.2 ready.1
  | unsigned unfound inner previous =>
    have readable := inner.isReadable_first rfl ready.2
    rw [look_settle] at readable
    have same := edit.agrees_of_isReadable covered.marked readable
    refine .unsigned (by rwa [same.look]) ?_
    rw [same.settle]
    exact previous (covered.settle _) fits ready
  | noPostfixed _ previous => exact .noPostfixed (previous covered fits ready)
  | postfixed inner ends previous =>
    have suits := Edit.suits_settle_iff.mp ready.1
    have marked := (inner.isOver covered).marked
    rw [← suits.settle marked]
    refine .postfixed (previous covered fits suits.ready) ?_
    rwa [suits.test marked fun lexeme idle => idle.extendsExpression]
  | suffixedStart _ previous =>
    exact .suffixedStart (previous covered fits ready.1.ready)
  | @call _ _ mode _ _ _ _ _ _ _ inFunction opened inList inClose function list close =>
    have second := inFunction.isOver covered
    have readable := isReadable_of_kind opened rfl
    have same := edit.agrees_of_isReadable second.marked readable
    have third := inList.isOver (second.past mode)
    have below := Edit.fits_below fits
    simp only [List.forall_mem_cons, List.forall_mem_append] at below
    rw [← same.leafAt]
    refine .call
      (function covered (List.forall_mem_singleton.mpr below.1) (Edit.Suits.ready (.inl readable)))
      (by rwa [same.look]) ?_ (close third below.2.2.2 trivial)
    rw [same.past, same.look]
    exact list (second.past mode) below.2.2.1 ⟨rfl, inClose.isReadable_expected below.2.2.2⟩
  | @index _ _ mode _ _ _ _ _ _ _ _ inTarget delimiter opened inList inClose target list close =>
    have second := inTarget.isOver covered
    have readable : (look mode _).isReadable = true := isReadable_of_kind opened (by
      obtain rfl | rfl := delimiter <;> rfl)
    have same := edit.agrees_of_isReadable second.marked readable
    have third := inList.isOver (second.past mode)
    have below := Edit.fits_below fits
    simp only [List.forall_mem_cons, List.forall_mem_append] at below
    rw [← same.leafAt]
    refine .index
      (target covered (List.forall_mem_singleton.mpr below.1) (Edit.Suits.ready (.inl readable)))
      delimiter (by rwa [same.look]) ?_ (close third below.2.2.2 trivial)
    rw [same.past, same.look]
    exact list (second.past mode) below.2.2.1 ⟨rfl, inClose.isReadable_expected below.2.2.2⟩
  | access inTarget found inRight target right =>
    have second := inTarget.isOver covered
    have readable := isReadable_of_accessorOf? found
    have same := edit.agrees_of_isReadable second.marked readable
    have below := Edit.fits_below fits
    simp only [List.forall_mem_cons] at below
    rw [← same.leafAt]
    refine .access
      (target covered (List.forall_mem_singleton.mpr below.1) (Edit.Suits.ready (.inl readable)))
      (by rwa [same.look]) ?_
    rw [same.past]
    exact right (second.past _) below.2.2 trivial
  | noPrimary none noWord =>
    have readable := ready.2 rfl
    rw [look_settle] at readable
    have same := edit.agrees_of_isReadable covered.marked readable
    rw [← same.settle]
    exact .noPrimary (by rwa [same.look]) (by rwa [same.look])
  | atom atom =>
    have same := edit.agrees_of_isReadable covered.marked (isReadable_of_isAtom atom)
    rw [← same.past, ← same.leafAt]
    exact .atom (by rwa [same.look])
  | @group _ _ mode _ _ _ _ _ opened inInner inClose inner close =>
    have same := edit.agrees_of_isReadable covered.marked (isReadable_of_kind opened rfl)
    have second := inInner.isOver (covered.past mode)
    have below := Edit.fits_below fits
    simp only [List.forall_mem_cons, List.forall_mem_append] at below
    rw [← same.leafAt]
    refine .group (by rwa [same.look]) ?_ (close second below.2.2 trivial)
    rw [same.past]
    exact inner (covered.past mode) below.2.1 (.inl (inClose.isReadable_expected below.2.2))
  | blockPrimary opened inner previous =>
    have same := edit.agrees_of_isReadable covered.marked (isReadable_of_kind opened rfl)
    refine .blockPrimary (by rwa [same.look]) ?_
    rw [same.settle]
    exact previous (covered.settle _) fits trivial
  | constructPrimary keyword found inner previous =>
    have same := edit.agrees_of_isReadable covered.marked (isReadable_of_kind keyword rfl)
    refine .constructPrimary (by rwa [same.look]) (by rwa [same.look]) ?_
    rw [same.settle]
    exact previous (covered.settle _) fits ready
  | @ifElse _ _ mode _ second third last _ _ _ readable inHead inMain inOther top main other =>
    have same := edit.agrees_of_isReadable covered.marked readable
    have atMain := inHead.isOver (covered.past mode)
    have atOther := inMain.isOver atMain
    have below := Edit.fits_below fits
    simp only [List.forall_mem_cons, List.forall_mem_append] at below
    have suits : edit.Suits mode third := by
      cases inOther with
      | elseBranch seen _ => exact edit.suits_of_seesElse atOther.marked seen
      | noElse _ => exact ready.1
    rw [← same.leafAt]
    refine .ifElse (by rwa [same.look]) ?_ (main atMain below.2.1.2 suits)
      (other atOther below.2.2 ready.1)
    rw [same.past]
    exact top (covered.past mode) below.2.1.1 trivial
  | @headed _ _ mode _ _ _ _ _ _ headed readable inHead _ top main =>
    have same := edit.agrees_of_isReadable covered.marked readable
    have below := Edit.fits_below fits
    simp only [List.forall_mem_cons, List.forall_mem_append] at below
    rw [← same.leafAt]
    refine .headed headed (by rwa [same.look]) ?_
      (main (inHead.isOver (covered.past mode)) below.2.2 ready.1)
    rw [same.past]
    exact top (covered.past mode) below.2.1 trivial
  | repeatLoop readable _ main =>
    have same := edit.agrees_of_isReadable covered.marked readable
    have below := Edit.fits_below fits
    rw [List.forall_mem_cons] at below
    rw [← same.leafAt]
    refine .repeatLoop (by rwa [same.look]) ?_
    rw [same.past]
    exact main (covered.past _) below.2 ready.1
  | word word readable =>
    have same := edit.agrees_of_isReadable covered.marked readable
    rw [← same.leafAt, ← same.past]
    exact .word word (by rwa [same.look])
  | opened opened _ inner =>
    have same := edit.agrees_of_isReadable covered.marked (isReadable_of_kind opened rfl)
    rw [List.forall_mem_cons] at fits
    rw [← same.leafAt]
    refine .opened (by rwa [same.look]) ?_
    rw [same.past, same.look]
    exact inner (covered.past _) fits.2 rfl
  | condition tests inTested inClose tested close =>
    rw [List.forall_mem_append] at fits
    exact .condition tests
      (tested covered fits.1 (.inl (inClose.isReadable_expected fits.2)))
      (close (inTested.isOver covered) fits.2 trivial)
  | iteration inCounter inLink inRange inClose counter link range close =>
    simp only [List.forall_mem_append] at fits
    have second := inCounter.isOver covered
    have third := inLink.isOver second
    exact .iteration (counter covered fits.1.1.1 trivial) (link second fits.1.1.2 trivial)
      (range third fits.1.2 (.inl (inClose.isReadable_expected fits.2)))
      (close (inRange.isOver third) fits.2 trivial)
  | formals inList inClose list close =>
    rw [List.forall_mem_append] at fits
    exact .formals (list covered fits.1 ⟨ready, inClose.isReadable_expected fits.2⟩)
      (close (inList.isOver covered) fits.2 trivial)
  | blockBody opened _ previous =>
    have readable := isReadable_of_kind opened rfl
    have same := edit.agrees_of_isReadable covered.beyond.marked readable
    have behind := edited_beyond edit covered.marked readable
    refine .blockBody (by rwa [behind, same.look]) ?_
    rw [behind, same.settle]
    exact previous (covered.beyond.settle _) fits trivial
  | simpleBody noBrace inner previous =>
    have readable := inner.isReadable_look rfl (List.cons_ne_nil _ _)
    rw [look_settle] at readable
    have same := edit.agrees_of_isReadable covered.beyond.marked readable
    have behind := edited_beyond edit covered.marked readable
    refine .simpleBody (by rwa [behind, same.look]) ?_
    rw [behind, same.settle]
    exact previous (covered.beyond.settle _) (Edit.fits_below fits) (Edit.Suits.ready ready)
  | elseBranch seen _ other =>
    have readable := isReadable_of_isKeyword (look_beyond_of_seesElse seen)
    have same := edit.agrees_of_isReadable covered.beyond.marked readable
    have behind := edited_beyond edit covered.marked readable
    have suits := edit.suits_of_seesElse covered.marked seen
    rw [List.forall_mem_cons] at fits
    rw [← same.leafAt, ← behind]
    refine .elseBranch (by rwa [suits.seesElse covered.marked]) ?_
    rw [behind, same.past]
    exact other (covered.beyond.past _) fits.2 ready
  | noElse unseen =>
    have suits : edit.Suits _ _ := ready
    exact .noElse (by rwa [suits.seesElse covered.marked])
  | itemsStart => exact .itemsStart
  | @itemsMore _ _ _ mode _ _ _ _ _ inItems goesOn inItem comma items item =>
    have second := inItems.isOver covered
    have ended := second.settle mode
    have readable := isReadable_of_ignored ready.1 second.marked fun ended => by
      simp [endsItems, ended] at goesOn
    have start := edit.agrees_of_isReadable second.marked readable
    have same := edit.agrees_of_isReadable (inItem.isOver ended).marked
      (isReadable_of_kind comma rfl)
    rw [List.forall_mem_append] at fits
    have below := Edit.fits_below fits.2
    rw [List.forall_mem_append] at below
    rw [← same.leafAt, ← same.past]
    refine .itemsMore (items covered fits.1 ⟨ready.1, readable⟩) (by rwa [start.look]) ?_
      (by rwa [same.look])
    rw [start.settle]
    exact item ended below.1 ⟨ready.1, isReadable_of_kind comma rfl⟩
  | closedList inItems ends items =>
    have readable := ready.2
    rw [look_settle] at readable
    have same := edit.agrees_of_isReadable (inItems.isOver covered).marked readable
    rw [← same.settle]
    exact .closedList (items covered (Edit.fits_below fits) ⟨ready.1, readable⟩)
      (by rwa [same.look])
  | @lastItem _ _ _ _ _ mode _ _ _ _ _ inItems goesOn inItem noComma bare items item =>
    have second := inItems.isOver covered
    have ended := second.settle mode
    have here := isReadable_of_ignored ready.1 second.marked fun ended => by
      simp [endsItems, ended] at goesOn
    have readable := ready.2
    rw [look_settle] at readable
    have start := edit.agrees_of_isReadable second.marked here
    have same := edit.agrees_of_isReadable (inItem.isOver ended).marked readable
    have below := Edit.fits_below fits
    rw [List.forall_mem_append] at below
    rw [← same.settle]
    refine .lastItem (items covered below.1 ⟨ready.1, here⟩) (by rwa [start.look]) ?_
      (by rwa [same.look]) bare
    rw [start.settle]
    exact item ended (Edit.fits_below below.2) ⟨ready.1, readable⟩
  | @noItem _ _ _ _ _ mode _ _ _ _ _ inItems goesOn inItem noComma bare items item =>
    have second := inItems.isOver covered
    have ended := second.settle mode
    have here := isReadable_of_ignored ready.1 second.marked fun ended => by
      simp [endsItems, ended] at goesOn
    have readable := ready.2
    rw [look_settle] at readable
    have start := edit.agrees_of_isReadable second.marked here
    have same := edit.agrees_of_isReadable (inItem.isOver ended).marked readable
    have below := Edit.fits_below fits
    rw [List.forall_mem_append] at below
    rw [← same.settle]
    refine .noItem (items covered below.1 ⟨ready.1, here⟩) (by rwa [start.look]) ?_
      (by rwa [same.look]) bare
    rw [start.settle]
    exact item ended below.2 ⟨ready.1, readable⟩
  | @named _ mode _ _ _ found _ value =>
    have both := found
    rw [namesHere, Bool.and_eq_true] at both
    have same := edit.agrees_of_isReadable covered.marked (isReadable_of_namesArgument both.1)
    have next := edit.agrees_of_isReadable (covered.past mode).marked
      (isReadable_of_isOperator both.2)
    simp only [List.forall_mem_cons] at fits
    rw [← same.leafAt, ← next.leafAt, ← same.past]
    refine .named (by rwa [namesHere, same.look, same.past, next.look]) ?_
    rw [same.past, next.past]
    exact value ((covered.past mode).past mode) fits.2.2 ⟨.inl ready.2, fun _ => ready.2⟩
  | @unnamed _ mode first last _ unfound inValue value =>
    have readable := inValue.isReadable_first rfl fun _ => ready.2
    rw [look_settle] at readable
    have same := edit.agrees_of_isReadable covered.marked readable
    refine .unnamed ?_ ?_
    · cases name : namesArgument (look mode first) with
      | false => rw [namesHere, same.look, name, Bool.false_and]
      | true =>
        have some : _ ≠ [] := fun nothing => by
          have unnamed := inValue.namesArgument_look rfl nothing
          rw [look_settle, name] at unnamed
          cases unnamed
        rw [namesHere] at unfound ⊢
        rwa [same.look, same.past, look_edited_past ready.1 (inValue.mem_past_rest rfl some
          covered.marked (Edit.mem_rest_of_isReadable (inValue.isOver (covered.settle mode)).marked
            ready.2)) (isLineBreak_of_isReadable ready.2)]
    · rw [same.settle]
      exact value (covered.settle mode) fits ⟨.inl ready.2, fun _ => ready.2⟩
  | @formalDefault _ mode _ _ _ name equals _ value =>
    have same := edit.agrees_of_isReadable covered.marked (isReadable_of_kind name rfl)
    have next := edit.agrees_of_isReadable (covered.past mode).marked
      (isReadable_of_isOperator equals)
    simp only [List.forall_mem_cons] at fits
    rw [← same.leafAt, ← next.leafAt, ← same.past]
    refine .formalDefault (by rwa [same.look]) (by rwa [same.past, next.look]) ?_
    rw [same.past, next.past]
    exact value ((covered.past mode).past mode) fits.2.2 ⟨.inl ready.2, fun _ => ready.2⟩
  | @formal _ mode _ name noEquals =>
    have readable := ready.2
    rw [look_settle] at readable
    have same := edit.agrees_of_isReadable covered.marked (isReadable_of_kind name rfl)
    have next := edit.agrees_of_isReadable (covered.past mode).marked readable
    rw [← same.leafAt, ← next.settle, ← same.past]
    exact .formal (by rwa [same.look]) (by rwa [same.past, next.look])
  | @emptyFormal _ mode _ _ _ comma _ value =>
    have same := edit.agrees_of_isReadable covered.marked (isReadable_of_kind comma rfl)
    refine .emptyFormal (by rwa [same.look]) ?_
    rw [same.settle]
    exact value (covered.settle mode) fits ⟨.inl ready.2, fun _ => ready.2⟩
  | noStatement _ previous => exact .noStatement (previous covered fits ready)
  | @statement _ _ mode _ second last _ _ inExpression inSemicolon expression semicolon =>
    have atSemicolon := inExpression.isOver covered
    have suits : edit.Suits mode second := by
      cases inSemicolon with
      | present _ readable => exact .inl readable
      | absent _ => exact Edit.suits_settle_iff.mp ready.1
    have below := Edit.fits_below fits
    rw [List.forall_mem_cons] at below
    exact .statement (expression covered (List.forall_mem_singleton.mpr below.1) suits.ready)
      (semicolon atSemicolon below.2 ⟨ready.1, fun lexeme idle => idle.isSemicolon⟩)
  | @block _ _ mode _ _ _ parts _ opened inItems inClose items close =>
    have same := edit.agrees_of_isReadable covered.marked (isReadable_of_kind opened rfl)
    have second := inItems.isOver (covered.past mode)
    have closes := ((Edit.fits_node_iff _ _).mp (fits _ List.mem_cons_self)).1
    have below := Edit.fits_below fits
    simp only [List.forall_mem_cons, List.forall_mem_append] at below
    rw [← same.leafAt]
    refine .block (by rwa [same.look]) ?_ (close second below.2.2 trivial)
    rw [same.past]
    refine items (covered.past mode) below.2.1
      ⟨rfl, inClose.isReadable_expected below.2.2, fun statement listed => closes statement ?_⟩
    exact List.mem_cons_of_mem _ (List.mem_append_left _ listed)
  | @statements _ _ mode _ last _ inListing ends listing =>
    have behind := inListing.isOver covered
    have readable := ready.2.1
    rw [look_settle] at readable
    have same := edit.agrees_of_isReadable behind.pastSeparators.marked readable
    have separators := edited_pastSeparators edit behind.marked readable
    rw [← same.settle, ← separators]
    refine .statements (listing covered fits ⟨ready.1, fun _ => ?_, ready.2.2⟩)
      (by rwa [separators, same.look])
    exact exists_of_pastSeparators behind.marked readable
  | listingStart => exact .listingStart
  | @listed _ _ mode _ second last _ tree inListing goesOn noBrace inStatement separated listing
      statement =>
    have behind := inListing.isOver covered
    have readable := inStatement.isReadable_look rfl (List.cons_ne_nil _ _)
    rw [look_settle] at readable
    have same := edit.agrees_of_isReadable behind.pastSeparators.marked readable
    have separators := edited_pastSeparators edit behind.marked readable
    have start := behind.pastSeparators.settle mode
    have ended := (inStatement.isOver start).marked
    rw [List.forall_mem_append] at fits
    obtain ⟨lined, bounded, closes⟩ := ready
    have closed := inStatement.closed start lined (fits.2 _ List.mem_cons_self)
      (closes tree (List.mem_append_right _ List.mem_cons_self))
    have suits : edit.Suits mode last := by
      rw [settle_of_lined lined] at bounded
      cases here : (look mode last).isReadable with
      | true => exact .inl here
      | false => exact .inr ⟨lined, here, bounded, .inl (closed here)⟩
    rw [← suits.settle ended]
    refine .listed (listing covered fits.1 ⟨lined, fun _ => ?_, fun statement listed => ?_⟩)
      (by rwa [separators, same.look]) (by rwa [separators, same.look]) ?_
      (isSeparated_edited separated suits ended closed)
    · exact exists_of_pastSeparators behind.marked readable
    · exact closes statement (List.mem_append_left _ listed)
    · rw [separators, same.settle]
      exact statement start fits.2 suits.ready
  | missing | cutBracket | cutToken | noOperand | unopened | noBody | misplacedFormal | stray
  | unreadable | crowded => simp [or_imp, forall_and] at fits

end Edited

end Grammar

end RSource
