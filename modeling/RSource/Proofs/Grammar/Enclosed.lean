/-
**Braces around tokens change nothing in what is read from them.**

An `Enclosure` puts tokens in front of others and a closing brace behind them, and the mode inside
has one more block around it (`Mode.enclosed`). Where the grammar looks at one of the tokens between,
it sees the same one; where it looks at their end, it sees the brace, and goes on with neither
(`Enclosure.test_cursor`). The one thing that comes out differently is an `else` behind line breaks,
which is looked for inside braces only; so no phrase outside all brackets and braces may end in front
of a line break (`Phrase.EndsAlike`). Main statement: `Derives.enclosed`, whatever is read without
problems is read alike inside braces.
-/

import RSource.Proofs.Grammar.Soundness
import RSource.Proofs.Tree.Problems

namespace RSource

open Grammar Reader Cursor

/-- The mode at the same place with one more block around it. -/
def Mode.enclosed (mode : Mode) : Mode := ⟨mode.lineBreaksIgnored, mode.braceDepth + 1⟩

/-- Other tokens in front, the last of which is no semicolon, and a closing brace behind. -/
structure Enclosure where
  /-- The tokens in front, the last one first. -/
  before : List Lexeme
  closing : Lexeme
  mark : Lexeme
  plain : ∀ lexeme ∈ before.head?, lexeme.kind ≠ .semicolon
  closes : closing.kind = .closeCurlyBrace

/-- Where tokens end: at the end of all or in front of a closing brace. -/
def Lexeme.IsStop (lexeme : Lexeme) : Prop :=
  lexeme.kind = .endOfStream ∨ lexeme.kind = .closeCurlyBrace

section Stop

variable {lexeme : Lexeme} (stop : lexeme.IsStop)
include stop

theorem Lexeme.IsStop.infixAt? (minimum : Nat) : Grammar.infixAt? minimum lexeme = none := by
  rcases stop with kind | kind <;> simp [Grammar.infixAt?, infixOf?, kind]

theorem Lexeme.IsStop.extendsExpression : Grammar.extendsExpression lexeme = false := by
  rcases stop with kind | kind <;>
    simp [Grammar.extendsExpression, opensList, accessorOf?, infixOf?, kind]

theorem Lexeme.IsStop.leadingOf? : Grammar.leadingOf? lexeme = none := by
  rcases stop with kind | kind <;> simp [Grammar.leadingOf?, kind]

theorem Lexeme.IsStop.beginsPrimary : Grammar.beginsPrimary lexeme = false := by
  rcases stop with kind | kind <;>
    simp [Grammar.beginsPrimary, isAtom, TokenKind.isLiteral, kind]

theorem Lexeme.IsStop.endsNesting : Grammar.endsNesting lexeme.kind = true := by
  rcases stop with kind | kind <;> simp [Grammar.endsNesting, TokenKind.isClosing, kind]

theorem Lexeme.IsStop.namesArgument : Grammar.namesArgument lexeme = false := by
  rcases stop with kind | kind <;> simp [Grammar.namesArgument, kind]

theorem Lexeme.IsStop.isOperator (text : Text) : lexeme.isOperator text = false := by
  rcases stop with kind | kind <;> simp [Lexeme.isOperator, kind]

theorem Lexeme.IsStop.isKeyword (word : Text) : lexeme.isKeyword word = false := by
  rcases stop with kind | kind <;> simp [Lexeme.isKeyword, kind]

theorem Lexeme.IsStop.endsStatement : Grammar.endsStatement lexeme = true := by
  rcases stop with kind | kind <;> simp [Grammar.endsStatement, kind]

theorem Lexeme.IsStop.kind_ne {kind : TokenKind} (other : kind ≠ .endOfStream)
    (noBrace : kind ≠ .closeCurlyBrace) : lexeme.kind ≠ kind := by
  rcases stop with found | found <;> rw [found]
  exacts [other.symm, noBrace.symm]

theorem Lexeme.IsStop.isSemicolon : isOfKind .semicolon lexeme = false :=
  beq_eq_false_iff_ne.mpr (stop.kind_ne (by decide) (by decide))

end Stop

namespace Enclosure

variable (around : Enclosure)

/-- The cursor in front of the same token between the braces. -/
def cursor (cursor : Cursor Lexeme) : Cursor Lexeme :=
  ⟨cursor.passed ++ around.before, cursor.rest ++ [around.closing], around.mark⟩

variable {mode : Mode} {cursor : Cursor Lexeme}

theorem skipWhile_cursor {test : Lexeme → Bool} (stops : test around.closing = false) :
    (around.cursor cursor).skipWhile test = around.cursor (cursor.skipWhile test) := by
  have moved : Moves (around.cursor cursor) (around.cursor (cursor.skipWhile test))
      (cursor.rest.takeWhile test) :=
    ⟨by simp [Enclosure.cursor, Cursor.skipWhile, ← List.append_assoc],
      by simp [Enclosure.cursor, Cursor.skipWhile], rfl⟩
  refine (moved.skipWhile (fun item member => List.mem_takeWhile_imp member) fun item head => ?_).2
  -- The first item behind is the first that fails among the others, or the brace.
  have first := List.head?_dropWhile_not test cursor.rest
  simp only [Enclosure.cursor, Cursor.skipWhile] at head
  cases shape : cursor.rest.dropWhile test with
  | nil =>
    rw [shape] at head
    obtain rfl := Option.some.inj head
    exact stops
  | cons other rest =>
    rw [shape] at head first
    obtain rfl := Option.some.inj head
    simpa using first

theorem settle_cursor :
    settle mode.enclosed (around.cursor cursor) = around.cursor (settle mode cursor) := by
  unfold settle Mode.enclosed
  split
  · exact around.skipWhile_cursor (isLineBreak_of_kind around.closes (by decide))
  · rfl

theorem beyond_cursor : beyond (around.cursor cursor) = around.cursor (beyond cursor) :=
  around.skipWhile_cursor (isLineBreak_of_kind around.closes (by decide))

theorem pastSeparators_cursor :
    pastSeparators (around.cursor cursor) = around.cursor (pastSeparators cursor) :=
  around.skipWhile_cursor (by simp [isSeparator, around.closes])

/-- The first token is the same, or the end has become the brace. -/
theorem current_cursor (cursor : Cursor Lexeme) (marked : cursor.mark.kind = .endOfStream) :
    (around.cursor cursor).current = cursor.current
      ∨ (around.cursor cursor).current.IsStop ∧ cursor.current.IsStop := by
  obtain ⟨passed, rest, mark⟩ := cursor
  cases rest with
  | nil => exact .inr ⟨.inr around.closes, .inl marked⟩
  | cons lexeme rest => exact .inl rfl

/-- A test that no end of tokens passes comes out alike. -/
theorem test_cursor {α : Type} (test : Lexeme → α) {fails : α}
    (marked : cursor.mark.kind = .endOfStream) (stops : ∀ lexeme, lexeme.IsStop → test lexeme = fails) :
    test (look mode.enclosed (around.cursor cursor)) = test (look mode cursor) := by
  rw [look, look, settle_cursor]
  rcases around.current_cursor (settle mode cursor) (by rwa [settle_mark]) with
    same | ⟨brace, ended⟩
  · rw [same]
  · rw [stops _ brace, stops _ ended]

/-- Between the braces the grammar sees the token that it sees without them. -/
structure Agrees (mode : Mode) (cursor : Cursor Lexeme) : Prop where
  look : Grammar.look mode.enclosed (around.cursor cursor) = Grammar.look mode cursor
  past : Grammar.past mode.enclosed (around.cursor cursor) = around.cursor (Grammar.past mode cursor)

theorem Agrees.leafAt (same : around.Agrees mode cursor) :
    Grammar.leafAt mode.enclosed (around.cursor cursor) = Grammar.leafAt mode cursor := by
  rw [Grammar.leafAt, same.look, Grammar.leafAt]

theorem agrees_of_ne_endOfStream (marked : cursor.mark.kind = .endOfStream)
    (more : (look mode cursor).kind ≠ .endOfStream) : around.Agrees mode cursor := by
  have settled : (settle mode cursor).mark.kind = .endOfStream := by rwa [settle_mark]
  have shape : (settle mode cursor).rest = look mode cursor :: (past mode cursor).rest :=
    (moves_advance (rest_ne_nil settled more)).rest
  have here : (around.cursor (settle mode cursor)).rest
      = look mode cursor :: ((past mode cursor).rest ++ [around.closing]) := by
    rw [Enclosure.cursor, shape, List.cons_append]
  refine ⟨?_, ?_⟩
  · rw [look, settle_cursor, Cursor.current, here, List.headD_cons]
  · rw [past, settle_cursor, past, Cursor.advance, Cursor.advance, here, shape]
    rfl

theorem agrees_of_isReadable (marked : cursor.mark.kind = .endOfStream)
    (readable : (look mode cursor).isReadable = true) : around.Agrees mode cursor :=
  around.agrees_of_ne_endOfStream marked (ne_endOfStream_of_isReadable readable)

theorem namesHere_cursor (marked : cursor.mark.kind = .endOfStream) :
    namesHere mode.enclosed (around.cursor cursor) = namesHere mode cursor := by
  unfold namesHere
  rw [around.test_cursor namesArgument marked fun _ stop => stop.namesArgument]
  cases named : namesArgument (look mode cursor) with
  | false => rfl
  | true =>
    have same := around.agrees_of_isReadable marked (isReadable_of_namesArgument named)
    rw [same.past, around.test_cursor (·.isOperator ['='])
      (by rwa [past_mark]) fun _ stop => stop.isOperator _]

/-- The token in front of the others is no semicolon, and a statement may end in front of the
brace as at the end of all. -/
theorem isSeparated_cursor (tree : Tree) (marked : cursor.mark.kind = .endOfStream) :
    isSeparated mode.enclosed tree (around.cursor cursor) = isSeparated mode tree cursor := by
  have before : (around.cursor cursor).previous?.any (·.kind == .semicolon)
      = cursor.previous?.any (·.kind == .semicolon) := by
    obtain ⟨passed, rest, mark⟩ := cursor
    cases passed with
    | cons lexeme passed => rfl
    | nil =>
      show around.before.head?.any (·.kind == .semicolon) = false
      rw [Option.any_eq_false_iff_get]
      intro some
      simpa using around.plain _ (Option.get_mem some)
  rw [isSeparated, before, around.test_cursor endsStatement marked fun _ stop => stop.endsStatement]
  rfl

end Enclosure

/-! ### Where an `else` is looked for -/

namespace Grammar

/-- No line break stands here, or an `else` is looked for behind it even outside braces. -/
def Unbroken (mode : Mode) (cursor : Cursor Lexeme) : Prop :=
  mode.lineBreaksIgnored = true ∨ 0 < mode.braceDepth ∨ (look mode cursor).kind ≠ .lineBreak

section Unbroken

variable {mode : Mode} {cursor : Cursor Lexeme}

theorem unbroken_of_kind {kind : TokenKind} (found : (look mode cursor).kind = kind)
    (other : kind ≠ .lineBreak) : Unbroken mode cursor := .inr (.inr (found ▸ other))

theorem unbroken_of_isReadable (readable : (look mode cursor).isReadable = true) :
    Unbroken mode cursor := by
  rw [Lexeme.isReadable, Bool.and_eq_true, bne_iff_ne] at readable
  exact .inr (.inr readable.1)

@[simp] theorem unbroken_settle_iff : Unbroken mode (settle mode cursor) ↔ Unbroken mode cursor := by
  rw [Unbroken, look_settle, Unbroken]

/-- An `else` that is seen is seen here, or from everywhere in front of it. -/
theorem unbroken_of_seesElse (seen : seesElse mode cursor = true) : Unbroken mode cursor := by
  unfold seesElse at seen
  split at seen
  · rename_i looksBeyond
    simp only [Bool.or_eq_true, decide_eq_true_eq] at looksBeyond
    exact looksBeyond.elim (.inr ∘ .inl) .inl
  · exact unbroken_of_isReadable (isReadable_of_isKeyword seen)

theorem Unbroken.seesElse (around : Enclosure) (unbroken : Unbroken mode cursor)
    (marked : cursor.mark.kind = .endOfStream) :
    Grammar.seesElse mode.enclosed (around.cursor cursor) = Grammar.seesElse mode cursor := by
  have deep : (mode.enclosed.braceDepth > 0 || mode.enclosed.lineBreaksIgnored) = true := by
    simp [Mode.enclosed]
  have beyondAll : (beyond (around.cursor cursor)).current.isKeyword "else".toList
      = (beyond cursor).current.isKeyword "else".toList := by
    rw [around.beyond_cursor]
    rcases around.current_cursor (beyond cursor) marked with same | ⟨brace, ended⟩
    · rw [same]
    · rw [brace.isKeyword, ended.isKeyword]
  unfold Grammar.seesElse
  rw [if_pos deep, beyondAll]
  split
  · rfl
  · rename_i here
    simp only [Bool.or_eq_true, decide_eq_true_eq, not_or, Bool.not_eq_true] at here
    have other := (unbroken.resolve_left (by simp [here.2])).resolve_left here.1
    rw [look, settle_of_lined here.2] at other ⊢
    rw [beyond, skipWhile_of_current (isLineBreak_of_kind rfl other)]

end Unbroken

/-- Where a phrase that was read without problems may end in order to be read alike inside braces. -/
def Phrase.EndsAlike (mode : Mode) (last : Cursor Lexeme) : Phrase → Prop
  | expected _ _ _ | head _ _ | block _ _ => True
  | optional accepts _ => ∀ lexeme : Lexeme, lexeme.IsStop → accepts lexeme = false
  | contents _ _ _ | items _ _ _ | item _ _ => mode.lineBreaksIgnored = true
  | arguments _ _ _ _ _ => mode.lineBreaksIgnored = true ∧ (look mode last).kind ≠ .endOfStream
  | statements _ _ => 0 < mode.braceDepth ∧ (look mode last).kind ≠ .endOfStream
  | listing _ _ => 0 < mode.braceDepth
  | _ => Unbroken mode last

/-- Where a token was found, tokens go on. -/
theorem Derives.ne_endOfStream_of_expected {accepts : Lexeme → Bool} {role : Role}
    {problem : ProblemKind} {mode : Mode} {first last : Cursor Lexeme} {parts : List Part}
    (run : Derives (.expected accepts role problem) mode first parts last)
    (clean : ∀ part ∈ parts, part.IsClean) : (look mode first).kind ≠ .endOfStream := by
  cases run with
  | found _ readable => exact ne_endOfStream_of_isReadable readable
  | missing _ => simp at clean

theorem ne_endOfStream_of_endsItems {delimiter : Delimiter} {lexeme : Lexeme}
    (goesOn : endsItems delimiter lexeme = false) : lexeme.kind ≠ .endOfStream := fun ended => by
  simp [endsItems, ended] at goesOn

theorem marked_settle (mode : Mode) {cursor : Cursor Lexeme}
    (marked : cursor.mark.kind = .endOfStream) : (settle mode cursor).mark.kind = .endOfStream := by
  rwa [settle_mark]

theorem marked_past (mode : Mode) {cursor : Cursor Lexeme} (marked : cursor.mark.kind = .endOfStream) :
    (past mode cursor).mark.kind = .endOfStream := by rwa [past_mark]

/-- **What is read without problems is read alike inside braces.** -/
theorem Derives.enclosed (around : Enclosure) {phrase : Phrase} {mode : Mode}
    {first last : Cursor Lexeme} {parts : List Part} (run : Derives phrase mode first parts last)
    (marked : first.mark.kind = .endOfStream) (clean : ∀ part ∈ parts, part.IsClean)
    (ends : phrase.EndsAlike mode last) :
    Derives phrase mode.enclosed (around.cursor first) parts (around.cursor last) := by
  induction run with
  | missing | cutBracket | cutToken | noOperand | unopened | noBody | misplacedFormal =>
    simp at clean
  | stray | unreadable | crowded => simp [or_imp, forall_and] at clean
  | found accepted readable =>
    have same := around.agrees_of_isReadable marked readable
    rw [← same.past, ← same.leafAt]
    exact .found (by rwa [same.look]) (by rwa [same.look])
  | present accepted readable =>
    have same := around.agrees_of_isReadable marked readable
    rw [← same.past, ← same.leafAt]
    exact .present (by rwa [same.look]) (by rwa [same.look])
  | absent refused =>
    rw [← around.settle_cursor]
    exact .absent (by rwa [around.test_cursor _ marked ends])
  | cutNothing stops =>
    rw [← around.settle_cursor]
    refine .cutNothing ?_
    rwa [around.test_cursor (endsNesting ·.kind) marked fun _ stop => stop.endsNesting]
  | noExpression _ previous => exact .noExpression (previous marked clean ends)
  | expression inner loose previous =>
    rw [← around.settle_cursor]
    refine .expression (previous marked clean (unbroken_settle_iff.mp ends)) ?_
    rwa [around.test_cursor (infixAt? _) (inner.mark marked) fun _ stop => stop.infixAt? _]
  | chainStart _ previous => exact .chainStart (previous marked clean ends)
  | chainMore inLeft found _ left right =>
    have second := inLeft.mark marked
    have readable := isReadable_of_infixAt? found
    have same := around.agrees_of_isReadable second readable
    have below := Part.IsClean.below clean
    simp only [List.forall_mem_cons] at below
    rw [← same.leafAt]
    refine .chainMore (left marked (List.forall_mem_singleton.mpr below.1)
      (unbroken_of_isReadable readable)) (by rwa [same.look]) ?_
    rw [same.past, around.beyond_cursor]
    exact right (by simpa using second) below.2.2 ends
  | operand _ previous => exact .operand (previous marked clean ends)
  | sign found _ right =>
    have same := around.agrees_of_isReadable marked (isReadable_of_leadingOf? found)
    have below := Part.IsClean.below clean
    rw [List.forall_mem_cons] at below
    rw [← same.leafAt]
    refine .sign (by rwa [same.look]) ?_
    rw [same.past, around.beyond_cursor]
    exact right (by simpa using marked) below.2 ends
  | unsigned unfound _ previous =>
    refine .unsigned ?_ ?_
    · rwa [around.test_cursor leadingOf? marked fun _ stop => stop.leadingOf?]
    · rw [around.settle_cursor]
      exact previous (by simpa using marked) clean ends
  | noPostfixed _ previous => exact .noPostfixed (previous marked clean ends)
  | postfixed inner closed previous =>
    rw [← around.settle_cursor]
    refine .postfixed (previous marked clean (unbroken_settle_iff.mp ends)) ?_
    rwa [around.test_cursor extendsExpression (inner.mark marked)
      fun _ stop => stop.extendsExpression]
  | suffixedStart _ previous => exact .suffixedStart (previous marked clean ends)
  | @call _ _ mode _ _ _ _ _ _ _ inFunction opened inList inClose function list close =>
    have second := inFunction.mark marked
    have same := around.agrees_of_isReadable second (isReadable_of_kind opened rfl)
    have behind := marked_past mode second
    have below := Part.IsClean.below clean
    simp only [List.forall_mem_cons, List.forall_mem_append] at below
    rw [← same.leafAt]
    refine .call (function marked (List.forall_mem_singleton.mpr below.1)
      (unbroken_of_kind opened (by decide))) (by rwa [same.look]) ?_
      (close (inList.mark behind) below.2.2.2 trivial)
    rw [same.past, same.look]
    exact list behind below.2.2.1 ⟨rfl, inClose.ne_endOfStream_of_expected below.2.2.2⟩
  | @index _ _ mode _ _ _ _ _ _ _ _ inTarget bracket opened inList inClose target list close =>
    have second := inTarget.mark marked
    have readable : (look mode _).isReadable = true :=
      isReadable_of_kind opened (by rcases bracket with rfl | rfl <;> rfl)
    have same := around.agrees_of_isReadable second readable
    have behind := marked_past mode second
    have below := Part.IsClean.below clean
    simp only [List.forall_mem_cons, List.forall_mem_append] at below
    rw [← same.leafAt]
    refine .index (target marked (List.forall_mem_singleton.mpr below.1)
      (unbroken_of_isReadable readable)) bracket (by rwa [same.look]) ?_
      (close (inList.mark behind) below.2.2.2 trivial)
    rw [same.past, same.look]
    exact list behind below.2.2.1 ⟨rfl, inClose.ne_endOfStream_of_expected below.2.2.2⟩
  | @access _ _ mode _ _ _ _ _ _ inTarget found _ target right =>
    have second := inTarget.mark marked
    have readable := isReadable_of_accessorOf? found
    have same := around.agrees_of_isReadable second readable
    have below := Part.IsClean.below clean
    simp only [List.forall_mem_cons] at below
    rw [← same.leafAt]
    refine .access (target marked (List.forall_mem_singleton.mpr below.1)
      (unbroken_of_isReadable readable)) (by rwa [same.look]) ?_
    rw [same.past]
    exact right (marked_past mode second) below.2.2 trivial
  | noPrimary nothing noWord =>
    rw [← around.settle_cursor]
    refine .noPrimary ?_ ?_
    · rwa [around.test_cursor beginsPrimary marked fun _ stop => stop.beginsPrimary]
    · exact (around.test_cursor
        (fun lexeme => lexeme.kind = .keyword → Construct.ofWord? lexeme.text = none) marked
        fun _ stop => eq_true fun keyword => absurd keyword (stop.kind_ne (by decide) (by decide))).mpr noWord
  | atom atom =>
    have same := around.agrees_of_isReadable marked (isReadable_of_isAtom atom)
    rw [← same.past, ← same.leafAt]
    exact .atom (by rwa [same.look])
  | @group _ _ mode _ _ _ _ _ opened inInner inClose inner close =>
    have same := around.agrees_of_isReadable marked (isReadable_of_kind opened rfl)
    have behind := marked_past mode marked
    have below := Part.IsClean.below clean
    simp only [List.forall_mem_cons, List.forall_mem_append] at below
    rw [← same.leafAt]
    refine .group (by rwa [same.look]) ?_ (close (inInner.mark behind) below.2.2 trivial)
    rw [same.past]
    exact inner behind below.2.1 (.inl rfl)
  | @blockPrimary _ _ mode _ _ _ opened _ previous =>
    have same := around.agrees_of_isReadable marked (isReadable_of_kind opened rfl)
    refine .blockPrimary (by rwa [same.look]) ?_
    rw [around.settle_cursor]
    exact previous (marked_settle _ marked) clean trivial
  | @constructPrimary _ _ mode _ _ _ _ keyword found _ previous =>
    have same := around.agrees_of_isReadable marked (isReadable_of_kind keyword rfl)
    refine .constructPrimary (by rwa [same.look]) (by rwa [same.look]) ?_
    rw [around.settle_cursor]
    exact previous (marked_settle _ marked) clean ends
  | @ifElse _ _ mode _ _ third _ _ _ _ readable inTop inMain inOther top main other =>
    have same := around.agrees_of_isReadable marked readable
    have behind := marked_past mode marked
    have second := inTop.mark behind
    have below := Part.IsClean.below clean
    simp only [List.forall_mem_cons, List.forall_mem_append] at below
    have unbroken : Unbroken mode third := by
      cases inOther with
      | elseBranch seen _ => exact unbroken_of_seesElse seen
      | noElse _ => exact ends
    rw [← same.leafAt]
    refine .ifElse (by rwa [same.look]) ?_ (main second below.2.1.2 unbroken)
      (other (inMain.mark second) below.2.2 ends)
    rw [same.past]
    exact top behind below.2.1.1 trivial
  | @headed _ _ mode _ _ _ _ _ _ headed readable inTop _ top main =>
    have same := around.agrees_of_isReadable marked readable
    have behind := marked_past mode marked
    have below := Part.IsClean.below clean
    simp only [List.forall_mem_cons, List.forall_mem_append] at below
    rw [← same.leafAt]
    refine .headed headed (by rwa [same.look]) ?_ (main (inTop.mark behind) below.2.2 ends)
    rw [same.past]
    exact top behind below.2.1 trivial
  | @repeatLoop _ _ mode _ _ _ readable _ main =>
    have same := around.agrees_of_isReadable marked readable
    have below := Part.IsClean.below clean
    rw [List.forall_mem_cons] at below
    rw [← same.leafAt]
    refine .repeatLoop (by rwa [same.look]) ?_
    rw [same.past]
    exact main (marked_past mode marked) below.2 ends
  | word word readable =>
    have same := around.agrees_of_isReadable marked readable
    rw [← same.leafAt, ← same.past]
    exact .word word (by rwa [same.look])
  | @opened _ _ mode _ _ _ opened _ inner =>
    have same := around.agrees_of_isReadable marked (isReadable_of_kind opened rfl)
    rw [List.forall_mem_cons] at clean
    rw [← same.leafAt]
    refine .opened (by rwa [same.look]) ?_
    rw [same.past, same.look]
    exact inner (marked_past mode marked) clean.2 rfl
  | condition tests inTested _ tested close =>
    rw [List.forall_mem_append] at clean
    exact .condition tests (tested marked clean.1 (.inl ends))
      (close (inTested.mark marked) clean.2 trivial)
  | iteration inCounter inLink inRange _ counter link range close =>
    simp only [List.forall_mem_append] at clean
    have second := inCounter.mark marked
    have third := inLink.mark second
    exact .iteration (counter marked clean.1.1.1 trivial) (link second clean.1.1.2 trivial)
      (range third clean.1.2 (.inl ends)) (close (inRange.mark third) clean.2 trivial)
  | formals inList inClose list close =>
    rw [List.forall_mem_append] at clean
    exact .formals (list marked clean.1 ⟨ends, inClose.ne_endOfStream_of_expected clean.2⟩)
      (close (inList.mark marked) clean.2 trivial)
  | @blockBody _ _ mode first _ _ opened _ previous =>
    have beyondAll : (beyond first).mark.kind = .endOfStream := marked
    have same := around.agrees_of_isReadable beyondAll (isReadable_of_kind opened rfl)
    refine .blockBody (by rwa [around.beyond_cursor, same.look]) ?_
    rw [around.beyond_cursor, around.settle_cursor]
    exact previous (marked_settle _ marked) clean trivial
  | @simpleBody _ _ mode first _ _ noBrace inStatement previous =>
    have beyondAll : (beyond first).mark.kind = .endOfStream := marked
    refine .simpleBody ?_ ?_
    · rw [around.beyond_cursor]
      exact (around.test_cursor (·.kind ≠ .openCurlyBrace) beyondAll
        fun _ stop => eq_true (stop.kind_ne (by decide) (by decide))).mpr noBrace
    · rw [around.beyond_cursor, around.settle_cursor]
      exact previous (marked_settle _ marked) (Part.IsClean.below clean) ends
  | @elseBranch _ mode first _ _ seen _ other =>
    have beyondAll : (beyond first).mark.kind = .endOfStream := marked
    have same := around.agrees_of_isReadable beyondAll
      (isReadable_of_isKeyword (look_beyond_of_seesElse seen))
    rw [List.forall_mem_cons] at clean
    rw [← same.leafAt, ← around.beyond_cursor]
    refine .elseBranch (by rwa [(unbroken_of_seesElse seen).seesElse around marked]) ?_
    rw [around.beyond_cursor, same.past]
    exact other (marked_past mode beyondAll) clean.2 ends
  | noElse unseen =>
    have unbroken : Unbroken _ _ := ends
    exact .noElse (by rwa [unbroken.seesElse around marked])
  | itemsStart => exact .itemsStart
  | @itemsMore _ _ _ mode _ _ _ _ _ inItems goesOn inItem comma items item =>
    have second := inItems.mark marked
    have start := around.agrees_of_ne_endOfStream second (ne_endOfStream_of_endsItems goesOn)
    have settled := marked_settle mode second
    have same := around.agrees_of_isReadable (inItem.mark settled) (isReadable_of_kind comma rfl)
    rw [List.forall_mem_append] at clean
    have below := Part.IsClean.below clean.2
    rw [List.forall_mem_append] at below
    rw [← same.leafAt, ← same.past]
    refine .itemsMore (items marked clean.1 ends) (by rwa [start.look]) ?_ (by rwa [same.look])
    rw [around.settle_cursor]
    exact item settled below.1 ends
  | closedList inItems closed items =>
    rw [Phrase.EndsAlike, look_settle] at ends
    have same := around.agrees_of_ne_endOfStream (inItems.mark marked) ends.2
    rw [← around.settle_cursor]
    exact .closedList (items marked (Part.IsClean.below clean) ends.1) (by rwa [same.look])
  | @lastItem _ _ _ _ _ mode _ _ _ _ _ inItems goesOn inItem noComma some items item =>
    have second := inItems.mark marked
    have start := around.agrees_of_ne_endOfStream second (ne_endOfStream_of_endsItems goesOn)
    have settled := marked_settle mode second
    have below := Part.IsClean.below clean
    rw [List.forall_mem_append] at below
    rw [Phrase.EndsAlike, look_settle] at ends
    have same := around.agrees_of_ne_endOfStream (inItem.mark settled) ends.2
    rw [← around.settle_cursor]
    refine .lastItem (items marked below.1 ends.1) (by rwa [start.look]) ?_ (by rwa [same.look])
      some
    rw [around.settle_cursor]
    exact item settled (Part.IsClean.below below.2) ends.1
  | @noItem _ _ _ _ _ mode _ _ _ _ _ inItems goesOn inItem noComma none items item =>
    have second := inItems.mark marked
    have start := around.agrees_of_ne_endOfStream second (ne_endOfStream_of_endsItems goesOn)
    have settled := marked_settle mode second
    have below := Part.IsClean.below clean
    rw [List.forall_mem_append] at below
    rw [Phrase.EndsAlike, look_settle] at ends
    have same := around.agrees_of_ne_endOfStream (inItem.mark settled) ends.2
    rw [← around.settle_cursor]
    refine .noItem (items marked below.1 ends.1) (by rwa [start.look]) ?_ (by rwa [same.look]) none
    rw [around.settle_cursor]
    exact item settled below.2 ends.1
  | @named _ mode _ _ _ found _ value =>
    have both := found
    rw [namesHere, Bool.and_eq_true] at both
    have behind := marked_past mode marked
    have same := around.agrees_of_isReadable marked (isReadable_of_namesArgument both.1)
    have next := around.agrees_of_isReadable behind (isReadable_of_isOperator both.2)
    simp only [List.forall_mem_cons] at clean
    rw [← same.leafAt, ← next.leafAt, ← same.past]
    refine .named (by rwa [around.namesHere_cursor marked]) ?_
    rw [same.past, next.past]
    exact value (marked_past mode behind) clean.2.2 (.inl ends)
  | @unnamed _ mode _ _ _ unfound _ value =>
    refine .unnamed (by rwa [around.namesHere_cursor marked]) ?_
    rw [around.settle_cursor]
    exact value (marked_settle mode marked) clean (.inl ends)
  | @formalDefault _ mode _ _ _ name equals _ value =>
    have behind := marked_past mode marked
    have same := around.agrees_of_isReadable marked (isReadable_of_kind name rfl)
    have next := around.agrees_of_isReadable behind (isReadable_of_isOperator equals)
    simp only [List.forall_mem_cons] at clean
    rw [← same.leafAt, ← next.leafAt, ← same.past]
    refine .formalDefault (by rwa [same.look]) (by rwa [same.past, next.look]) ?_
    rw [same.past, next.past]
    exact value (marked_past mode behind) clean.2.2 (.inl ends)
  | @formal _ mode _ name noEquals =>
    have same := around.agrees_of_isReadable marked (isReadable_of_kind name rfl)
    rw [← same.leafAt, ← around.settle_cursor, ← same.past]
    refine .formal (by rwa [same.look]) ?_
    rwa [same.past, around.test_cursor (·.isOperator ['=']) (marked_past mode marked)
      fun _ stop => stop.isOperator _]
  | @emptyFormal _ mode _ _ _ comma _ value =>
    have same := around.agrees_of_isReadable marked (isReadable_of_kind comma rfl)
    refine .emptyFormal (by rwa [same.look]) ?_
    rw [around.settle_cursor]
    exact value (marked_settle mode marked) clean (.inl ends)
  | noStatement _ previous => exact .noStatement (previous marked clean ends)
  | @statement _ _ mode _ second last _ _ inExpression inSemicolon expression semicolon =>
    have below := Part.IsClean.below clean
    rw [List.forall_mem_cons] at below
    have unbroken : Unbroken mode second := by
      cases inSemicolon with
      | present _ readable => exact unbroken_of_isReadable readable
      | absent _ => exact unbroken_settle_iff.mp ends
    exact .statement (expression marked (List.forall_mem_singleton.mpr below.1) unbroken)
      (semicolon (inExpression.mark marked) below.2 fun _ stop => stop.isSemicolon)
  | @block _ _ mode _ _ _ _ _ opened inItems inClose items close =>
    have same := around.agrees_of_isReadable marked (isReadable_of_kind opened rfl)
    have behind := marked_past mode marked
    have below := Part.IsClean.below clean
    simp only [List.forall_mem_cons, List.forall_mem_append] at below
    rw [← same.leafAt]
    refine .block (by rwa [same.look]) ?_ (close (inItems.mark behind) below.2.2 trivial)
    rw [same.past]
    exact items behind below.2.1
      ⟨Nat.succ_pos _, inClose.ne_endOfStream_of_expected below.2.2⟩
  | @statements _ _ mode _ last _ inListing ended listing =>
    have separated : (pastSeparators last).mark.kind = .endOfStream := inListing.mark marked
    rw [Phrase.EndsAlike, look_settle] at ends
    have same := around.agrees_of_ne_endOfStream separated ends.2
    rw [← around.settle_cursor, ← around.pastSeparators_cursor]
    exact .statements (listing marked clean ends.1)
      (by rwa [around.pastSeparators_cursor, same.look])
  | listingStart => exact .listingStart
  | @listed _ _ mode _ second last _ tree inListing goesOn noBrace inStatement separated listing
      statement =>
    have apart : (pastSeparators second).mark.kind = .endOfStream := inListing.mark marked
    have same := around.agrees_of_isReadable apart
      (isReadable_of_endsBlock (inListing.mark marked) goesOn)
    have settled := marked_settle mode apart
    rw [List.forall_mem_append] at clean
    rw [← around.settle_cursor]
    refine .listed (listing marked clean.1 ends)
      (by rwa [around.pastSeparators_cursor, same.look])
      (by rwa [around.pastSeparators_cursor, same.look]) ?_
      (by rwa [around.isSeparated_cursor tree (inStatement.mark settled)])
    rw [around.pastSeparators_cursor, around.settle_cursor]
    exact statement settled clean.2 (.inr (.inl ends))

end Grammar

end RSource
