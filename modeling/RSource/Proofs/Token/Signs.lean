/-
**Signs, and tokens of one rule.**

Commas, semicolons and brackets are written in one way only (`TokenKind.sign?`). Main statement:
`text_eq_of_sign?`, a lexeme of such a kind has the text of its kind. Other kinds come from a rule
and from nothing else (`TokenKind.isRuled`): neither from a word that turns out to be reserved nor
from half of a `]]`; the text of such a lexeme is one of that rule (`kindOf?_of_isRuled`).
-/

import RSource.Proofs.Token.Coverage
import RSource.Proofs.Token.Places

namespace RSource

open Pattern

/-- The text of the tokens that are written in one way only. -/
def TokenKind.sign? : TokenKind → Option Text
  | comma => some [',']
  | semicolon => some [';']
  | openBrace => some ['(']
  | closeBrace => some [')']
  | openCurlyBrace => some ['\x7b']
  | closeCurlyBrace => some ['\x7d']
  | openSquareBracket => some ['[']
  | closeSquareBracket => some [']']
  | openDoubleSquareBracket => some ['[', '[']
  | closeDoubleSquareBracket => some [']', ']']
  | _ => none

namespace Lexer

/-- A piece of such a kind has the text of its kind. -/
def IsSpelled (piece : Piece) : Prop := ∀ sign, piece.1.sign? = some sign → piece.2 = sign

theorem isSpelled_of_rule {rule : TokenKind × Pattern} (member : rule ∈ tokenRules) {word : Text}
    (matched : Matches rule.2 word) : IsSpelled (rule.1, word) := by
  intro sign own
  simp only [tokenRules, List.mem_cons, List.not_mem_nil, or_false] at member
  rcases member with rfl | rfl | rfl | rfl | rfl | rfl | rfl | rfl | rfl | rfl | rfl | rfl | rfl
    | rfl | rfl | rfl | rfl <;>
  first
  | cases own; done
  | exact (eq_of_matches_literal matched).trans (Option.some.inj own)

theorem isSpelled_of_mem_settle {kind : TokenKind} {word : Text} (opened : List TokenKind)
    (spelled : IsSpelled (kind, word)) :
    ∀ piece ∈ (settle kind word opened).pieces, IsSpelled piece := by
  have noSign : (classifyWord word).sign? = none :=
    classifyWord_of_reserved (·.sign? = none) rfl (by decide) word
  unfold settle
  split
  · rw [List.forall_mem_singleton]
    intro sign own
    rw [noSign] at own
    cases own
  -- The first half of a `]]` is a `]`.
  case h_5 outer =>
    rw [List.forall_mem_singleton]
    intro sign own
    rw [show word = [']', ']'] from spelled _ rfl]
    exact Option.some.inj own
  all_goals simpa using spelled

theorem isSpelled_of_mem_step (opened : List TokenKind) {text : Text} (_ : text ≠ []) :
    ∀ piece ∈ (step opened text).pieces, IsSpelled piece := by
  unfold step
  simp only
  split
  · rename_i kind count found
    obtain ⟨pattern, member, matched⟩ := exists_of_kindOf? (kindOf?_of_scan_longest found).2
    exact isSpelled_of_mem_settle opened (isSpelled_of_rule member matched)
  · intro piece member
    obtain ⟨c, _, rfl⟩ := List.mem_map.mp member
    exact nofun

end Lexer

/-- **A token that is written in one way only has the text of its kind.** -/
theorem text_eq_of_sign? {text sign : Text} {lexeme : Lexeme} (member : lexeme ∈ lexemes text)
    (own : lexeme.kind.sign? = some sign) : lexeme.text = sign :=
  Lexer.forall_mem_pieces (fun _ => nofun) Lexer.isSpelled_of_mem_step text [] text
    (lexeme.kind, lexeme.text) (Lexer.mem_of_mem_place member) sign own

/-! ### Tokens of one rule -/

/-- The kinds that are given for the texts of their own rule alone. -/
def TokenKind.isRuled : TokenKind → Bool
  | whitespace | lineBreak | comment | string | operator => true
  | _ => false

namespace Lexer

/-- A piece of such a kind has a text of its rule. -/
def IsRuled (piece : Piece) : Prop :=
  piece.1.isRuled = true → kindOf? tokenRules piece.2 = some piece.1

theorem isRuled_of_mem_settle {kind : TokenKind} {word : Text} (opened : List TokenKind)
    (found : kindOf? tokenRules word = some kind) :
    ∀ piece ∈ (settle kind word opened).pieces, IsRuled piece := by
  have reserved : (classifyWord word).isRuled = false :=
    classifyWord_of_reserved (·.isRuled = false) rfl (by decide) word
  unfold settle
  split
  · rw [List.forall_mem_singleton]
    intro ruled
    rw [reserved] at ruled
    cases ruled
  -- the first half of a `]]` is a `]`
  case h_5 outer =>
    rw [List.forall_mem_singleton]
    exact nofun
  all_goals
    rw [List.forall_mem_singleton]
    exact fun _ => found

theorem isRuled_of_mem_step (opened : List TokenKind) {text : Text} (_ : text ≠ []) :
    ∀ piece ∈ (step opened text).pieces, IsRuled piece := by
  unfold step
  simp only
  split
  · rename_i kind count found
    exact isRuled_of_mem_settle opened (kindOf?_of_scan_longest found).2
  · intro piece member
    obtain ⟨c, _, rfl⟩ := List.mem_map.mp member
    exact nofun

end Lexer

/-- **A token of such a kind has a text of its rule.** -/
theorem kindOf?_of_isRuled {text : Text} {lexeme : Lexeme} (member : lexeme ∈ lexemes text)
    (ruled : lexeme.kind.isRuled = true) :
    Lexer.kindOf? tokenRules lexeme.text = some lexeme.kind :=
  Lexer.forall_mem_pieces (fun _ => nofun) Lexer.isRuled_of_mem_step text [] text
    (lexeme.kind, lexeme.text) (Lexer.mem_of_mem_place member) ruled

end RSource
