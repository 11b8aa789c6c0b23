/-
**Text into tokens.**

At each place the lexer takes the longest text that a rule of `tokenRules` stands for. Where no rule
has any, the characters read before every rule failed become unknown tokens of one character each.
A stack of open square brackets decides whether `]]` is one token or two.

Main statement: the pieces put together are the text again (`texts_pieces`). Each lexeme begins
where the one before it ends, because `place` only adds up lengths.
-/

import RSource.Token.Rules

namespace RSource

namespace Lexer

/-- The rules that are still open after `c`. -/
def advance (c : Char) (rules : List (TokenKind × Pattern)) : List (TokenKind × Pattern) :=
  (rules.map fun rule => (rule.1, rule.2.after c)).filter fun rule => !rule.2.isNever

/-- The first kind whose pattern is complete. -/
def accepted? (rules : List (TokenKind × Pattern)) : Option TokenKind :=
  (rules.find? fun rule => rule.2.acceptsEmpty).map (·.1)

/-- How reading the rules along a text went. -/
structure Scan where
  /-- The longest complete text: its kind and its number of characters. -/
  longest : Option (TokenKind × Nat)
  /-- The number of characters read before every rule had failed. -/
  reach : Nat
  deriving Repr, DecidableEq

/-- Follows all rules along a text until none is left. -/
def scan (rules : List (TokenKind × Pattern)) : Text → Scan
  | [] => ⟨none, 0⟩
  | c :: rest =>
    let still := advance c rules
    if still.isEmpty then ⟨none, 0⟩
    else
      let further := scan still rest
      let found := match further.longest with
        | some (kind, count) => some (kind, count + 1)
        | none => (accepted? still).map (·, 1)
      ⟨found, further.reach + 1⟩

/-- A piece of text and its kind. -/
abbrev Piece := TokenKind × Text

/-- What one step of the lexer gives: the pieces cut off, the square brackets open after them, and
the number of characters they hold. -/
structure Step where
  pieces : List Piece
  opened : List TokenKind
  count : Nat

/-- One piece of the text, as its kind and the open square brackets (innermost first) have it. A
`]]` inside a single bracket closes that bracket alone. -/
def settle (kind : TokenKind) (word : Text) (opened : List TokenKind) : Step :=
  match kind, opened with
  | .identifier, _ => ⟨[(classifyWord word, word)], opened, word.length⟩
  | .openSquareBracket, _ => ⟨[(kind, word)], kind :: opened, word.length⟩
  | .openDoubleSquareBracket, _ => ⟨[(kind, word)], kind :: opened, word.length⟩
  | .closeSquareBracket, .openSquareBracket :: outer => ⟨[(kind, word)], outer, word.length⟩
  | .closeDoubleSquareBracket, .openSquareBracket :: outer =>
    ⟨[(.closeSquareBracket, word.take 1)], outer, 1⟩
  | .closeDoubleSquareBracket, .openDoubleSquareBracket :: outer =>
    ⟨[(kind, word)], outer, word.length⟩
  | _, _ => ⟨[(kind, word)], opened, word.length⟩

/-- The pieces at the front of a text that is not empty. -/
def step (opened : List TokenKind) (text : Text) : Step :=
  let found := scan tokenRules text
  match found.longest with
  | some (kind, count) => settle kind (text.take count) opened
  | none =>
    let count := max found.reach 1
    ⟨(text.take count).map fun c => (.unknown, [c]), opened, count⟩

/-- The pieces of a text. The first argument bounds the number of steps; a text is bound enough for
itself, since each step takes a character. -/
def pieces : (bound : Text) → (opened : List TokenKind) → Text → List Piece
  | _, _, [] => []
  | [], _, text => text.map fun c => (.unknown, [c])
  | _ :: bound, opened, text@(_ :: _) =>
    let front := step opened text
    front.pieces ++ pieces bound front.opened (text.drop front.count)

/-- The longest complete text is never empty. -/
theorem scan_longest_pos {rules : List (TokenKind × Pattern)} {text : Text} {kind : TokenKind}
    {count : Nat} (found : (scan rules text).longest = some (kind, count)) : 0 < count := by
  cases text with
  | nil => simp [scan] at found
  | cons c rest =>
    unfold scan at found
    simp only at found
    split at found
    · simp at found
    · simp only at found
      split at found
      · cases found
        exact Nat.succ_pos _
      · obtain ⟨other, _, same⟩ := Option.map_eq_some_iff.mp found
        cases same
        exact Nat.one_pos

/-- The texts of pieces, one behind the other. -/
def texts (pieces : List Piece) : Text := pieces.flatMap (·.2)

@[simp] theorem texts_append (first second : List Piece) :
    texts (first ++ second) = texts first ++ texts second := List.flatMap_append

theorem texts_unknown (text : Text) : texts (text.map fun c => (.unknown, [c])) = text := by
  induction text with
  | nil => rfl
  | cons c rest previous =>
    simp only [texts, List.map_cons, List.flatMap_cons, List.singleton_append, List.cons.injEq,
      true_and]
    exact previous

/-- Of a text with a word at its front, settling the word takes as much as it says. -/
theorem texts_settle (kind : TokenKind) (opened : List TokenKind) {word : Text}
    (nonempty : word ≠ []) (rest : Text) :
    texts (settle kind word opened).pieces
      = (word ++ rest).take (settle kind word opened).count := by
  obtain ⟨c, others, rfl⟩ := List.exists_cons_of_ne_nil nonempty
  unfold settle
  split <;> simp [texts]

/-- A step takes the characters in its pieces. -/
theorem texts_step (opened : List TokenKind) {text : Text} (nonempty : text ≠ []) :
    texts (step opened text).pieces = text.take (step opened text).count := by
  unfold step
  simp only
  split
  · rename_i kind count found
    have positive := scan_longest_pos found
    have shape : text.take count ≠ [] := by
      cases text with
      | nil => exact absurd rfl nonempty
      | cons c rest =>
        cases count with
        | zero => exact absurd positive (Nat.lt_irrefl 0)
        | succ count => simp
    have settled := texts_settle kind opened shape (text.drop count)
    rwa [List.take_append_drop] at settled
  · exact texts_unknown _

/-- **Nothing is lost.** -/
theorem texts_pieces (bound : Text) (opened : List TokenKind) (text : Text) :
    texts (pieces bound opened text) = text := by
  induction bound generalizing opened text with
  | nil =>
    cases text with
    | nil => rfl
    | cons c rest => exact texts_unknown (c :: rest)
  | cons _ bound previous =>
    cases text with
    | nil => rfl
    | cons c rest =>
      rw [pieces, texts_append, previous, texts_step opened (List.cons_ne_nil c rest),
        List.take_append_drop]

/-- Puts pieces one behind the other, from `start` on. -/
def place : (start : Nat) → List Piece → List Lexeme
  | _, [] => []
  | start, (kind, text) :: rest => ⟨kind, start, text⟩ :: place (start + text.bytes) rest

end Lexer

/-- The lexemes of a text that begins at offset `start`. -/
def lexemesFrom (start : Nat) (text : Text) : List Lexeme :=
  Lexer.place start (Lexer.pieces text [] text)

/-- The lexemes of a whole text. -/
def lexemes (text : Text) : List Lexeme := lexemesFrom 0 text

/-- Why a window of a text cannot be cut into tokens. -/
inductive WindowError where
  | outOfBounds (start length size : Nat)
  /-- An end of the window falls inside a character. -/
  | insideCharacter
  deriving Repr, DecidableEq

/-- The words for a window outside the text; an end inside a character has none. -/
def WindowError.message? : WindowError → Option String
  | outOfBounds start length size =>
    some s!"token window {start}+{length} is out of bounds for text of length {size}"
  | insideCharacter => none

/-- The lexemes of the `length` bytes at `start`, at their places in the whole text. -/
def windowLexemes (text : Text) (start length : Nat) : Except WindowError (List Lexeme) :=
  if text.bytes < start + length then .error (.outOfBounds start length text.bytes)
  else
    match text.slice? start (start + length) with
    | some window => .ok (lexemesFrom start window)
    | none => .error .insideCharacter

end RSource
