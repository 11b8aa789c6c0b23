/-
**Problems come in the order of the text.**

Going along the tokens from one cursor to another, the mark behind them included, a reader may find
any number of problems at each of them (`Met`). A problem is recorded at the token that the cursor
then looks at, before anything behind it is read; where a token was looked at earlier, nothing has
been read since (`Derives.stays`). So every phrase meets its problems on its way (`Derives.meets`).
Main statement: `Reading.problems_ordered`.
-/

import RSource.Proofs.Leaves
import RSource.Proofs.Tree.Problems

namespace RSource

/-! ### Problems along tokens -/

/-- Problems found one behind the other at these tokens, at each as many as there may be. -/
inductive Met : List Problem → List Lexeme → Prop where
  | nothing {tokens : List Lexeme} : Met [] tokens
  | here {found : Problem} {problems : List Problem} {lexeme : Lexeme} {tokens : List Lexeme} :
      found.token = lexeme.token → Met problems (lexeme :: tokens) →
      Met (found :: problems) (lexeme :: tokens)
  | further {problems : List Problem} {lexeme : Lexeme} {tokens : List Lexeme} :
      Met problems tokens → Met problems (lexeme :: tokens)

section Met

variable {problems others : List Problem} {tokens before behind : List Lexeme} {lexeme : Lexeme}

theorem Met.prepend (before : List Lexeme) (met : Met problems tokens) :
    Met problems (before ++ tokens) := by
  induction before with
  | nil => exact met
  | cons _ _ previous => exact .further previous

/-- Where there is no token there is no problem. -/
theorem Met.eq_nil (met : Met problems []) : problems = [] := by
  cases met
  rfl

/-- What is found up to a token comes before what is found from it on. -/
theorem Met.append (first : Met problems (before ++ [lexeme]))
    (second : Met others (lexeme :: behind)) :
    Met (problems ++ others) (before ++ lexeme :: behind) := by
  rw [List.append_cons]
  generalize same : before ++ [lexeme] = tokens at first ⊢
  induction first generalizing before with
  | nothing =>
    rw [← same, List.append_assoc]
    exact second.prepend before
  | here found _ previous => exact .here found (previous same)
  | further met previous =>
    cases before with
    | nil =>
      cases same
      rw [met.eq_nil]
      exact second
    | cons _ before => exact .further (previous (List.cons.inj same).2)

/-- Each problem is at one of the tokens. -/
theorem Met.mem (met : Met problems tokens) :
    ∀ found ∈ problems, ∃ lexeme ∈ tokens, found.token = lexeme.token := by
  induction met with
  | nothing => exact nofun
  | here same _ previous =>
    refine List.forall_mem_cons.mpr ⟨⟨_, List.mem_cons_self, same⟩, previous⟩
  | further _ previous =>
    intro found member
    obtain ⟨lexeme, inside, same⟩ := previous found member
    exact ⟨lexeme, List.mem_cons_of_mem _ inside, same⟩

/-- Problems along ordered tokens are ordered. -/
theorem Met.ordered (met : Met problems tokens) (ordered : tokens.Pairwise (·.start < ·.start)) :
    problems.Pairwise (·.token.start ≤ ·.token.start) := by
  induction met with
  | nothing => exact .nil
  | here same met previous =>
    refine .cons (fun found member => ?_) (previous ordered)
    obtain ⟨lexeme, inside, token⟩ := met.mem found member
    rw [same, token]
    rcases List.mem_cons.mp inside with rfl | behind
    · exact Nat.le_refl _
    · exact Nat.le_of_lt (List.rel_of_pairwise_cons ordered behind)
  | further _ previous => exact previous ordered.of_cons

end Met

/-! ### Problems of a phrase -/

namespace Grammar

open Reader Cursor

/-- From `first` to `last` these problems are met, the last ones where the cursor then stands. -/
def Meets (first : Cursor Lexeme) (problems : List Problem) (last : Cursor Lexeme) : Prop :=
  ∃ consumed, Moves first last consumed ∧ Met problems (consumed ++ [last.current])

namespace Meets

variable {first second third : Cursor Lexeme} {problems others : List Problem}

theorem refl (cursor : Cursor Lexeme) : Meets cursor [] cursor := ⟨[], .refl cursor, .nothing⟩

theorem trans (before : Meets first problems second) (after : Meets second others third) :
    Meets first (problems ++ others) third := by
  obtain ⟨consumed, moved, met⟩ := before
  obtain ⟨further, movedOn, metOn⟩ := after
  refine ⟨consumed ++ further, moved.trans movedOn, ?_⟩
  -- The token that the first half ends at is the one that the second half begins with.
  obtain ⟨behind, begins⟩ : ∃ behind, further ++ [third.current] = second.current :: behind := by
    cases further with
    | nil =>
      have still : second.current = third.current := by
        rw [Cursor.current, Cursor.current, movedOn.rest, movedOn.mark, List.nil_append]
      exact ⟨[], by rw [still]; rfl⟩
    | cons lexeme further =>
      have head : second.current = lexeme := by
        rw [Cursor.current, movedOn.rest]
        rfl
      exact ⟨further ++ [third.current], by rw [head]; rfl⟩
  rw [begins] at metOn
  rw [List.append_assoc, begins]
  exact met.append metOn

/-- Only the problems of parts count. -/
theorem congr {parts : List Part} (meets : Meets first problems second)
    (same : Tree.partsProblems parts = problems) :
    Meets first (Tree.partsProblems parts) second := by
  rwa [same]

theorem moved {consumed : List Lexeme} (moved : Moves first second consumed) :
    Meets first [] second := ⟨consumed, moved, .nothing⟩

/-- A problem at the token that the cursor looks at. -/
theorem found (kind : ProblemKind) (cursor : Cursor Lexeme) :
    Meets cursor [⟨kind, cursor.current.token⟩] cursor := by
  exact ⟨[], .refl cursor, .here rfl .nothing⟩

theorem settle (mode : Mode) (cursor : Cursor Lexeme) :
    Meets cursor [] (Reader.settle mode cursor) := by
  unfold Reader.settle
  split
  · exact moved (moves_skipWhile _ cursor)
  · exact refl cursor

theorem beyond (cursor : Cursor Lexeme) : Meets cursor [] (Grammar.beyond cursor) :=
  moved (moves_skipWhile _ cursor)

theorem pastSeparators (cursor : Cursor Lexeme) : Meets cursor [] (Grammar.pastSeparators cursor) :=
  moved (moves_skipWhile _ cursor)

theorem boundary (mode : Mode) (cursor : Cursor Lexeme) :
    Meets cursor [] (Grammar.boundary mode cursor) := moved (moves_skipWhile _ cursor)

/-- A problem at the current token, which is not taken. -/
theorem missing (kind : ProblemKind) (mode : Mode) (cursor : Cursor Lexeme) :
    Meets cursor [⟨kind, (look mode cursor).token⟩] (Reader.settle mode cursor) :=
  (settle mode cursor).trans (found kind _)

theorem past (mode : Mode) (cursor : Cursor Lexeme) :
    Meets cursor [] (Grammar.past mode cursor) := by
  refine (settle mode cursor).trans ?_
  by_cases ended : (Reader.settle mode cursor).rest = []
  · have still : Grammar.past mode cursor = Reader.settle mode cursor := by
      rw [Grammar.past, Cursor.advance, ended]
    rw [still]
    exact refl _
  · exact moved (moves_advance ended)

/-- A problem at the current token, which is taken. -/
theorem taken (kind : ProblemKind) (mode : Mode) (cursor : Cursor Lexeme) :
    Meets cursor [⟨kind, (look mode cursor).token⟩] (Grammar.past mode cursor) := by
  have token := (missing kind mode cursor).trans (past mode (Reader.settle mode cursor))
  rwa [past_settle] at token

end Meets

/-- **A phrase meets its problems on its way.** -/
theorem Derives.meets {phrase : Phrase} {mode : Mode} {first last : Cursor Lexeme}
    {parts : List Part} (run : Derives phrase mode first parts last) :
    Meets first (Tree.partsProblems parts) last := by
  induction run with
  | found _ _ | present _ _ | atom _ | word _ _ => exact (Meets.past _ _).congr (by simp [leafAt])
  | missing _ | unopened _ => exact .missing _ _ _
  | absent _ | cutNothing _ | noPrimary _ _ => exact .settle _ _
  | noElse _ | itemsStart | listingStart => exact .refl _
  | cutBracket _ _ =>
    exact (Meets.taken _ _ _).trans (.moved (moves_drop _ _))
  | cutToken _ _ => exact .taken _ _ _
  | noExpression _ previous | chainStart _ previous | operand _ previous | noPostfixed _ previous
  | suffixedStart _ previous | noStatement _ previous => exact previous
  | expression _ _ previous | postfixed _ _ previous =>
    exact (previous.trans (.settle _ _)).congr (by simp)
  | noOperand _ previous => exact previous.trans (.missing _ _ _)
  | chainMore _ _ _ left right =>
    have behind := (Meets.beyond _).trans right
    exact (left.trans ((Meets.past _ _).trans behind)).congr (by simp [leafAt])
  | sign _ _ right =>
    have behind := (Meets.beyond _).trans right
    exact ((Meets.past _ _).trans behind).congr (by simp [leafAt])
  | unsigned _ _ previous | blockPrimary _ _ previous | constructPrimary _ _ _ previous
  | unnamed _ _ previous | emptyFormal _ _ previous => exact (Meets.settle _ _).trans previous
  | call _ _ _ _ function list close | index _ _ _ _ _ function list close =>
    have behind := list.trans close
    exact (function.trans ((Meets.past _ _).trans behind)).congr (by simp [leafAt])
  | access _ _ _ target right =>
    exact (target.trans ((Meets.past _ _).trans right)).congr (by simp [leafAt])
  | group _ _ _ inner close =>
    exact ((Meets.past _ _).trans (inner.trans close)).congr (by simp [leafAt])
  | ifElse _ _ _ _ top main other =>
    exact ((Meets.past _ _).trans ((top.trans main).trans other)).congr (by simp [leafAt])
  | headed _ _ _ _ top main =>
    exact ((Meets.past _ _).trans (top.trans main)).congr (by simp [leafAt])
  | repeatLoop _ _ previous | opened _ _ previous =>
    exact ((Meets.past _ _).trans previous).congr (by simp [leafAt])
  | condition _ _ _ tested close => exact (tested.trans close).congr (by simp)
  | iteration _ _ _ _ counter link range close =>
    exact (((counter.trans link).trans range).trans close).congr (by simp)
  | formals _ _ list close => exact (list.trans close).congr (by simp)
  | blockBody _ _ previous | simpleBody _ _ previous =>
    exact ((Meets.beyond _).trans ((Meets.settle _ _).trans previous)).congr (by simp)
  | noBody _ failed _ =>
    rw [failed.stays rfl rfl, settle_settle]
    exact (Meets.beyond _).trans (.missing _ _ _)
  | elseBranch _ _ other =>
    exact ((Meets.beyond _).trans ((Meets.past _ _).trans other)).congr (by simp [leafAt])
  | itemsMore _ _ _ _ items item =>
    have more := items.trans ((Meets.settle _ _).trans item)
    exact (more.trans (.past _ _)).congr (by simp [leafAt])
  | closedList _ _ items => exact (items.trans (.settle _ _)).congr (by simp [listOf])
  | lastItem _ _ _ _ _ items item | noItem _ _ _ _ _ items item =>
    have more := items.trans ((Meets.settle _ _).trans item)
    exact (more.trans (.settle _ _)).congr (by simp [listOf])
  | named _ _ value | formalDefault _ _ _ value =>
    have behind := (Meets.past _ _).trans value
    exact ((Meets.past _ _).trans behind).congr (by simp [leafAt])
  | formal _ _ => exact ((Meets.past _ _).trans (.settle _ _)).congr (by simp [leafAt])
  | misplacedFormal _ _ _ value => exact (Meets.missing _ _ _).trans value
  | statement _ _ expression semicolon => exact (expression.trans semicolon).congr (by simp)
  | block _ _ _ items close =>
    exact ((Meets.past _ _).trans (items.trans close)).congr (by simp [leafAt])
  | statements _ _ listing =>
    exact (listing.trans ((Meets.pastSeparators _).trans (.settle _ _))).congr (by simp)
  | @stray _ _ mode _ last _ _ _ _ listing =>
    have brace := (Meets.pastSeparators last).trans (.taken .unexpectedToken mode _)
    exact (listing.trans brace).congr (by simp)
  | @unreadable _ _ mode _ second _ _ _ _ _ failed listing _ =>
    rw [failed.stays rfl rfl, settle_settle, past_settle]
    have first := (Meets.pastSeparators second).trans (.taken .unexpectedToken mode _)
    exact (listing.trans (first.trans (.boundary _ _))).congr (by simp)
  | @listed _ _ mode _ _ _ _ _ _ _ _ _ _ listing statement =>
    have more := (Meets.settle mode _).trans (statement.trans (.settle mode _))
    exact (listing.trans ((Meets.pastSeparators _).trans more)).congr (by simp)
  | @crowded _ _ mode _ _ last _ _ _ _ _ _ _ listing statement =>
    have passed := (Meets.missing .unexpectedToken mode last).trans (.boundary mode _)
    have more := (Meets.settle mode _).trans (statement.trans passed)
    exact (listing.trans ((Meets.pastSeparators _).trans more)).congr (by simp)

end Grammar

open Grammar

/-- **Problems come in the order of the text**, each at a token that the grammar reads or at the
mark behind the text. -/
theorem Reading.problems_ordered (text : Text) :
    (read text).problems.Pairwise (·.token.start ≤ ·.token.start)
    ∧ ∀ found ∈ (read text).problems,
      (found.token ∈ tokensOf text ∧ found.token.kind ≠ .whitespace ∧ found.token.kind ≠ .comment)
      ∨ found.token = ⟨.endOfStream, text.bytes, 0⟩ := by
  obtain ⟨items, last, derivation⟩ := Reading.derivation text
  obtain ⟨consumed, moved, met⟩ := derivation.derives.meets
  have all : significant text = consumed := by
    have rest := moved.rest
    rwa [derivation.rest, List.append_nil] at rest
  have mark : last.current = .endMark text.bytes := by
    rw [Cursor.current, derivation.rest]
    exact moved.mark
  have same : (read text).problems = Tree.partsProblems items := by
    rw [Reading.problems, derivation.tree, Tree.problems_node]
  rw [← all, mark] at met
  rw [same]
  constructor
  · refine met.ordered (List.pairwise_append.mpr
      ⟨significant_ordered text, List.pairwise_singleton _ _, fun lexeme read mark behind => ?_⟩)
    have isToken := (mem_significant_iff.mp read).1
    rw [List.mem_singleton.mp behind]
    exact Nat.lt_of_lt_of_le (start_lt_stop_of_mem_lexemes isToken) (stop_le_of_mem_lexemes isToken)
  · intro found member
    obtain ⟨lexeme, inside, token⟩ := met.mem found member
    rcases List.mem_append.mp inside with read | marked
    · obtain ⟨isToken, noBlank, noComment⟩ := mem_significant_iff.mp read
      rw [token]
      exact .inl ⟨List.mem_map_of_mem isToken, noBlank, noComment⟩
    · rw [token, List.mem_singleton.mp marked]
      exact .inr rfl

end RSource
