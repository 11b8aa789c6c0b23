/-
**Recovery keeps to its line.**

A text is self-contained (`IsSelfContained`) when no bracket opens in it, no keyword stands in it,
and its last token, trivia and line breaks apart, is no operator. Then nothing of it reaches beyond
a line break behind it, whatever problems it has: the other text is read as it is alone, only
further on, and its problems follow those of the first one. The tokens of a self-contained text are
flat, and the line break that comes behind them trims them (`Junction.trims`), so they are read as
before (`Derives.carried`). Main statement: `Reading.recovery_within_line`.
-/

import RSource.Proofs.Concatenation
import RSource.Proofs.Grammar.Carried

namespace RSource

open Grammar Reader Cursor

/-! ### Texts that nothing goes on behind -/

/-- No bracket opens in a text, no keyword stands in it, and an operator is not its last token. -/
structure IsSelfContained (text : Text) : Prop where
  unopened : ∀ lexeme ∈ lexemes text, lexeme.kind.isOpening = false
  wordless : ∀ lexeme ∈ lexemes text, lexeme.kind ≠ .keyword
  ended : ∀ lexeme ∈ ((lexemes text).filter fun lexeme =>
    !lexeme.kind.isTrivia && lexeme.kind != .lineBreak).getLast?, lexeme.kind ≠ .operator

/-- The grammar reads all tokens but trivia. -/
theorem filter_isTrivia (text : Text) :
    (lexemes text).filter (fun lexeme => !lexeme.kind.isTrivia && lexeme.kind != .lineBreak)
      = (significant text).filter (!isLineBreak ·) := by
  rw [significant, List.filter_filter, List.filter_filter]
  congr 1
  funext lexeme
  obtain ⟨kind, start, text⟩ := lexeme
  cases kind <;> rfl

theorem IsSelfContained.isFlat {text : Text} (alone : IsSelfContained text) :
    IsFlat (significant text) where
  plain lexeme member := by
    have found : lexeme ∈ lexemes text := List.mem_of_mem_filter (List.mem_of_mem_filter member)
    exact ⟨alone.unopened lexeme found, alone.wordless lexeme found, kind_of_mem_lexemes found⟩
  followed lexeme behind suffix operator := by
    by_contra none
    push Not at none
    obtain ⟨front, split⟩ := suffix
    have last : ((significant text).filter (!isLineBreak ·)).getLast? = some lexeme := by
      have gone : behind.filter (!isLineBreak ·) = [] := by
        refine List.filter_eq_nil_iff.mpr fun other member => ?_
        simpa using none other member
      rw [← split, List.filter_append, List.filter_cons_of_pos (by simp [isLineBreak, operator]),
        gone, List.getLast?_append_of_ne_nil _ (List.cons_ne_nil _ _)]
      rfl
    refine alone.ended lexeme ?_ operator
    rw [filter_isTrivia]
    exact last

namespace Junction

variable {before behind : Text} {kept ended : List Lexeme} {broken : Lexeme}
  (junction : Junction before behind kept ended broken)

/-- The line break between two texts trims the first one. -/
theorem trims : junction.edit.Trims (significant before) where
  ended lexeme tail suffix dropped other further := by
    have left : lexeme ∈ ended := by simpa [edit] using dropped
    have breaks := junction.breaks other
      (List.mem_cons_of_mem _ (junction.mem_ended left suffix further))
    exact beq_iff_eq.mpr breaks
  broken := ⟨broken, _, rfl, junction.breaks broken List.mem_cons_self⟩

end Junction

/-! ### Two texts -/

/-- **Recovery keeps to its line.** Behind a self-contained text, malformed or not, the statements
and the problems of another one are those that it has alone, further on. -/
theorem Reading.recovery_within_line {before behind : Text} (alone : IsSelfContained before)
    (broken : ∃ lexeme ∈ lexemes (before ++ '\n' :: behind), lexeme.kind = .lineBreak
      ∧ lexeme.start ≤ before.bytes ∧ before.bytes < lexeme.stop) :
    (read (before ++ '\n' :: behind)).document.snapshot.children
        = (read before).document.snapshot.children
          ++ (read behind).document.snapshot.children.map (·.shift (before.bytes + 1))
      ∧ (read (before ++ '\n' :: behind)).problems
        = (read before).problems
          ++ (read behind).problems.map (·.shift (before.bytes + 1)) := by
  obtain ⟨lexeme, member, kind, begins, covers⟩ := broken
  have closed : Lexer.openedBehind [] ((lexemes before).map (·.kind)) = [] :=
    Lexer.openedBehind_of_unopened (List.forall_mem_map.mpr alone.unopened)
  obtain ⟨kept, ended, broken, junction⟩ := exists_junction closed member kind begins covers
  obtain ⟨items, middle, first⟩ := Reading.derivation before
  obtain ⟨others, last, second⟩ := Reading.derivation behind
  obtain ⟨middle, listing, separators⟩ := first.exists_listing
  have front := listing.carried junction.trims alone.isFlat ⟨rfl, rfl⟩ rfl trivial
  obtain ⟨final, derives⟩ := junction.derives_of_listing front separators second
  exact derives.reads_append first second

/-- An operand is missing, and a bracket closes that none opened. The `else` of the next line has
problems of its own. -/
theorem Reading.recovery_within_line_closeBrace :
    let before : Text := "x <- )\r".toList
    let behind : Text := "else z".toList
    (read before).problems.map (·.kind) = [.operandExpected, .unexpectedToken]
      ∧ IsSelfContained before
      ∧ (∃ lexeme ∈ lexemes (before ++ '\n' :: behind), lexeme.kind = .lineBreak
        ∧ lexeme.start ≤ before.bytes ∧ before.bytes < lexeme.stop)
      ∧ (read (before ++ '\n' :: behind)).document.snapshot.children
        = (read before).document.snapshot.children
          ++ (read behind).document.snapshot.children.map (·.shift (before.bytes + 1))
      ∧ (read (before ++ '\n' :: behind)).problems
        = (read before).problems
          ++ (read behind).problems.map (·.shift (before.bytes + 1)) := by
  intro before behind
  have alone : IsSelfContained before := ⟨by decide, by decide, by decide⟩
  have broken : ∃ lexeme ∈ lexemes (before ++ '\n' :: behind), lexeme.kind = .lineBreak
      ∧ lexeme.start ≤ before.bytes ∧ before.bytes < lexeme.stop := by decide
  exact ⟨by decide, alone, broken, Reading.recovery_within_line alone broken⟩

end RSource
