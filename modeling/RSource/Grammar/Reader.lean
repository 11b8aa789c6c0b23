/-
**Reading tokens.**

A reader looks at the tokens from a cursor on and moves the cursor past those it takes. What line
breaks mean is not part of the cursor: it is a `Mode`, handed inwards, so a reader inside brackets
or braces has its own and nothing needs to be set back afterwards.

Readers repeat in two ways. `untilDone` carries a value from round to round, `collect` puts the
lists of its rounds one behind the other. Both are bounded by the tokens left at the start, which
is enough for every round that takes a token.
-/

import RSource.Cursor
import RSource.Tree

namespace RSource

/-- How a reader treats line breaks. -/
structure Mode where
  /-- Inside brackets line breaks mean nothing. -/
  lineBreaksIgnored : Bool
  /-- The number of blocks in curly braces around the cursor. -/
  braceDepth : Nat
  deriving Repr, DecidableEq, Inhabited

/-- The mode outside all brackets and braces. -/
def Mode.outermost : Mode := ⟨false, 0⟩

/-- A step of reading: what it gives, and the cursor after it. -/
def Reader (α : Type) : Type := Mode → Cursor Lexeme → α × Cursor Lexeme

namespace Reader

variable {α : Type}

instance : Monad Reader where
  pure value := fun _ cursor => (value, cursor)
  bind first next := fun mode cursor => next (first mode cursor).1 mode (first mode cursor).2

/-! ### Line breaks -/

def isLineBreak (lexeme : Lexeme) : Bool := lexeme.kind == .lineBreak

/-- The cursor past the line breaks that the mode ignores. -/
def settle (mode : Mode) (cursor : Cursor Lexeme) : Cursor Lexeme :=
  if mode.lineBreaksIgnored then cursor.skipWhile isLineBreak else cursor

/-- The mode at the cursor. -/
def mode : Reader Mode := fun mode cursor => (mode, cursor)

/-- The number of bytes of the whole text. -/
def textSize : Reader Nat := fun _ cursor => (cursor.mark.start, cursor)

/-- The token before the cursor. -/
def previous? : Reader (Option Lexeme) := fun _ cursor => (cursor.previous?, cursor)

/-- The token that the grammar looks at. -/
def current : Reader Lexeme := fun mode cursor => ((settle mode cursor).current, settle mode cursor)

/-- Takes the current token. -/
def advance : Reader Lexeme := fun mode cursor => (settle mode cursor).advance

/-- The token after the current one, without moving. -/
def peekNext : Reader Lexeme := fun mode cursor =>
  let seen := fun items : List Lexeme =>
    if mode.lineBreaksIgnored then items.dropWhile isLineBreak else items
  ((seen ((seen cursor.rest).drop 1)).headD cursor.mark, cursor)

/-- The first token that is no line break, without moving. -/
def nextBeyondLineBreaks : Reader Lexeme := fun _ cursor =>
  ((cursor.rest.dropWhile isLineBreak).headD cursor.mark, cursor)

/-- Passes line breaks, whatever the mode. -/
def skipLineBreaks : Reader Unit := fun _ cursor => ((), cursor.skipWhile isLineBreak)

/-- Takes tokens as long as `test` holds of them, and gives them back. -/
def takeWhile (test : Lexeme → Bool) : Reader (List Lexeme) := fun _ cursor =>
  (cursor.rest.takeWhile test, cursor.skipWhile test)

/-- Runs a reader with line breaks ignored. -/
def ignoringLineBreaks (reader : Reader α) : Reader α := fun mode cursor =>
  reader { mode with lineBreaksIgnored := true } cursor

/-- Runs a reader in a block, where line breaks end statements again. -/
def insideBraces (reader : Reader α) : Reader α := fun mode cursor =>
  reader ⟨false, mode.braceDepth + 1⟩ cursor

/-! ### Rounds -/

/-- Repeats `round` until it says that it is done, at most once more than `bound` has tokens. -/
def untilDoneWithin (round : α → Reader (α × Bool)) : (bound : List Lexeme) → α → Reader α
  | [], start => fun mode cursor =>
    let after := round start mode cursor
    (after.1.1, after.2)
  | _ :: bound, start => fun mode cursor =>
    let after := round start mode cursor
    if after.1.2 then (after.1.1, after.2)
    else untilDoneWithin round bound after.1.1 mode after.2

/-- Repeats `round` from `start` until it says that it is done. -/
def untilDone (round : α → Reader (α × Bool)) (start : α) : Reader α := fun mode cursor =>
  untilDoneWithin round cursor.rest start mode cursor

/-- Repeats `round` and joins what it gives, at most once more than `bound` has tokens. -/
def collectWithin (round : Reader (List α × Bool)) : (bound : List Lexeme) → Reader (List α)
  | [] => fun mode cursor =>
    let after := round mode cursor
    (after.1.1, after.2)
  | _ :: bound => fun mode cursor =>
    let after := round mode cursor
    if after.1.2 then (after.1.1, after.2)
    else
      let further := collectWithin round bound mode after.2
      (after.1.1 ++ further.1, further.2)

/-- Repeats `round` until it says that it is done, and joins what it gives. -/
def collect (round : Reader (List α × Bool)) : Reader (List α) := fun mode cursor =>
  collectWithin round cursor.rest mode cursor

/-! ### Leaves -/

/-- Takes the current token as a leaf. -/
def leaf : Reader Tree := do
  return .leaf (← advance)

/-- A leaf in a role, if the current token is of this kind. -/
def leafOf (kind : TokenKind) (role : Role) : Reader (List Part) := do
  if (← current).kind == kind then
    return [.child role (← leaf)]
  else
    return []

/-- The problem of something missing at the current token. -/
def missing (kind : ProblemKind) : Reader Problem := do
  return ⟨kind, (← current).token⟩

/-- A leaf of this kind, or the problem that it is missing. -/
def expect (kind : TokenKind) (problem : ProblemKind) : Reader (Except Problem Tree) := do
  if (← current).kind == kind then
    return .ok (← leaf)
  else
    return .error (← missing problem)

/-- The token that closes `delimiter`. Where it is missing the cursor stays. -/
def closing (delimiter : Delimiter) : Reader (Except Problem Tree) :=
  expect delimiter.closer (.closerMissing delimiter)

end Reader

/-- Whether a lexeme is the operator of this text. -/
def Lexeme.isOperator (lexeme : Lexeme) (text : Text) : Bool :=
  lexeme.kind == .operator && lexeme.text == text

/-- Whether a lexeme is the keyword of this text. -/
def Lexeme.isKeyword (lexeme : Lexeme) (word : Text) : Bool :=
  lexeme.kind == .keyword && lexeme.text == word

end RSource
