/-
**What reading a text derives.**

`Reading.derivation`: the tree of every text is a global scope over statements that the productions
give for the tokens of the text, and no token is left behind them. What is shown of derivations
holds of every reading through it. The other way round, statements that the productions give for
some tokens are those that are read from them: `programOf_eq`.
-/

import RSource.Document
import RSource.Proofs.Grammar.Determinism
import RSource.Proofs.Grammar.Soundness
import RSource.Proofs.Token.Places

namespace RSource

open Grammar Reader

/-- The lexemes that the grammar reads. -/
def significant (text : Text) : List Lexeme :=
  ((lexemes text).filter (!·.isWhitespace)).filter (!·.isComment)

/-- Blanks are no comments. -/
theorem filter_isComment (lexemes : List Lexeme) :
    (lexemes.filter (!·.isWhitespace)).filter (·.isComment) = lexemes.filter (·.isComment) := by
  rw [List.filter_filter]
  refine List.filter_congr fun lexeme _ => ?_
  obtain ⟨kind, start, text⟩ := lexeme
  cases kind <;> rfl

/-- The cursor in front of a text. -/
def beginning (text : Text) : Cursor Lexeme := .ofList (significant text) (.endMark text.bytes)

theorem significant_sublist (text : Text) : (significant text).Sublist (lexemes text) :=
  List.filter_sublist.trans List.filter_sublist

theorem mem_significant_iff {text : Text} {lexeme : Lexeme} :
    lexeme ∈ significant text
      ↔ lexeme ∈ lexemes text ∧ lexeme.kind ≠ .whitespace ∧ lexeme.kind ≠ .comment := by
  simp [significant, Lexeme.isWhitespace, Lexeme.isComment, and_comm]

theorem significant_ordered (text : Text) : (significant text).Pairwise (·.start < ·.start) :=
  (lexemes_ordered text).sublist (significant_sublist text)

/-- Behind the tokens the grammar looks at the mark alone. -/
theorem rest_eq_nil_of_ended {cursor : Cursor Lexeme} {text : Text}
    (within : cursor.items = significant text) (ended : cursor.current.kind = .endOfStream) :
    cursor.rest = [] := by
  by_contra more
  have member : cursor.current ∈ significant text := by
    rw [← within]
    exact List.mem_append_right _ (Cursor.current_mem_rest more)
  exact kind_of_mem_lexemes (mem_significant_iff.mp member).1 ended

/-- The statements of a text, and the cursor behind them. -/
structure Derivation (text : Text) (items : List Part) (last : Cursor Lexeme) : Prop where
  tree : (read text).tree = .node .globalScope ⟨0, text.bytes⟩ items
  derives : Derives (.statements none maxNesting) .outermost (beginning text) items last
  rest : last.rest = []

theorem endsBlock_of_derives {terminator : Option TokenKind} {levels : Nat} {mode : Mode}
    {first last : Cursor Lexeme} {items : List Part}
    (derives : Derives (.statements terminator levels) mode first items last) :
    endsBlock terminator (look mode last) = true := by
  cases derives with
  | statements listing ends => rwa [look_settle]

theorem run_globalScope (expression : Reader (Option Tree)) (mode : Mode)
    (cursor : Cursor Lexeme) :
    (globalScope expression).run mode cursor
      = (.node .globalScope ⟨0, ((statements expression none).run mode cursor).2.mark.start⟩
          ((statements expression none).run mode cursor).1,
        ((statements expression none).run mode cursor).2) := Prod.ext rfl rfl

/-- **The statements that the productions give are those that are read.** -/
theorem programOf_eq {lexemes : List Lexeme} {size : Nat} {items : List Part} {last : Cursor Lexeme}
    (derives : Derives (.statements none maxNesting) .outermost
      (.ofList ((lexemes.filter (!·.isWhitespace)).filter (!·.isComment)) (.endMark size)) items
      last) : programOf lexemes size = .node .globalScope ⟨0, size⟩ items := by
  have run := derives_statements (obeys_expressionWithin maxNesting) none .outermost
    (.ofList ((lexemes.filter (!·.isWhitespace)).filter (!·.isComment)) (.endMark size)) rfl
  obtain ⟨consumed, moved, _⟩ := run.accounts rfl
  show ((globalScope (expressionWithin maxNesting 0)).run .outermost _).1 = _
  rw [run_globalScope, moved.mark, (run.unique_statements derives).1]
  rfl

/-- Statements that the productions give for the tokens of a text are all of its statements. -/
theorem derivation_of_derives {text : Text} {items : List Part} {last : Cursor Lexeme}
    (derives : Derives (.statements none maxNesting) .outermost (beginning text) items last) :
    Derivation text items last := by
  obtain ⟨consumed, moved, _⟩ := derives.accounts rfl
  have within : last.items = significant text := moved.items
  refine ⟨programOf_eq derives, derives, rest_eq_nil_of_ended within ?_⟩
  simpa [endsBlock, look, settle, Mode.outermost] using endsBlock_of_derives derives

/-- **Every text is read to its end.** -/
theorem Reading.derivation (text : Text) : ∃ items last, Derivation text items last :=
  ⟨_, _, derivation_of_derives (derives_statements (obeys_expressionWithin maxNesting) none
    .outermost (beginning text) rfl)⟩

end RSource
