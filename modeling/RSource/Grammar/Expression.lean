/-
**Expressions.**

From the loosest layer to the tightest: infix operators by precedence, operators before their
operand, then calls, indexing and accessors behind a primary expression. An infix operator is taken
when its precedence is at least the current minimum, and its right operand is read with the minimum
`Operator.rightMinimum`; an operator before its operand hands its own precedence down. Line breaks
after an operator are passed, so an expression goes on behind them.

Every expression inside another is one level deeper, and the number of levels is limited. That limit
is what the recursion runs down (`expressionWithin`). At the last level an expression is its first
token alone, together with what its bracket holds.
-/

import RSource.Grammar.Construct

namespace RSource.Grammar

open Reader

/-- How many expressions may enclose one another. -/
def maxNesting : Nat := 128

/-- Readers of an expression, by the least precedence of an infix operator in it. -/
abbrev Expression := Nat → Reader (Option Tree)

/-! ### Primary expressions -/

/-- An expression in parentheses. -/
def group (expression : Reader (Option Tree)) : Reader Tree := do
  let opening ← leaf
  ignoringLineBreaks do
    let inner ← operand expression .expression
    return .ofParts .group [.child .openBrace opening, inner, ← closeHead]

/-- A literal, a name, a group, a block or a construct. -/
def primary (expression : Reader (Option Tree)) : Reader (Option Tree) := do
  let token ← current
  if token.kind.isLiteral || token.kind == .identifier then
    return some (← leaf)
  else if token.kind == .openBrace then
    return some (← group expression)
  else if token.kind == .openCurlyBrace then
    return some (← bracedScope expression)
  else if token.kind == .keyword then
    construct expression
  else
    return none

/-! ### What follows a primary expression -/

/-- The call of a function, from its parenthesis on. -/
def call (expression : Reader (Option Tree)) (function : Tree) : Reader Tree := do
  let opening ← leaf
  ignoringLineBreaks do
    let arguments ← argumentList expression .call .brace opening.span.stop
    let close ← closing .brace
    return .ofParts .call
      [ .child .function function, .child .openBrace opening, .child .arguments arguments,
        .ofResult .closeBrace close ]

/-- The indexing of a target, from its bracket on. -/
def index (expression : Reader (Option Tree)) (delimiter : Delimiter) (target : Tree) :
    Reader Tree := do
  let opening ← leaf
  ignoringLineBreaks do
    let arguments ← argumentList expression .call delimiter opening.span.stop
    let close ← closing delimiter
    return .ofParts .index
      [ .child .target target, .child .openBracket opening, .child .arguments arguments,
        .ofResult .closeBracket close ]

/-- A member's name: an identifier or a string. -/
def member : Reader (Except Problem Tree) := do
  let token ← current
  if token.kind == .identifier || token.kind == .string then
    return .ok (← leaf)
  else
    return .error ⟨.identifierExpected, token.token⟩

/-- The access to a member of a target, from the operator on. -/
def access (operator : Operator) (target : Tree) : Reader Tree := do
  let sign ← leaf
  return .ofParts (.operator operator)
    [.child .left target, .child .operator sign, .ofResult .right (← member)]

/-- The operator that a lexeme is between two operands. -/
def infixOf? (lexeme : Lexeme) : Option Operator :=
  if lexeme.kind == .operator then Operator.ofInfixText? lexeme.text else none

/-- The operator that a lexeme is before its operand. -/
def leadingOf? (lexeme : Lexeme) : Option Operator :=
  if lexeme.kind == .operator then Operator.ofLeadingText? lexeme.text else none

/-- One call, index or access behind an expression. -/
def postfixRound (expression : Reader (Option Tree)) (tree : Tree) : Reader (Tree × Bool) := do
  let token ← current
  match token.kind with
  | .openBrace => return (← call expression tree, false)
  | .openSquareBracket => return (← index expression .squareBracket tree, false)
  | .openDoubleSquareBracket => return (← index expression .doubleSquareBracket tree, false)
  | _ =>
    match (infixOf? token).filter Operator.isAccessor with
    | some operator => return (← access operator tree, false)
    | none => return (tree, true)

/-- A primary expression with everything that follows it closely. -/
def postfixed (expression : Reader (Option Tree)) : Reader (Option Tree) := do
  match ← primary expression with
  | none => return none
  | some tree => return some (← untilDone (postfixRound expression) tree)

/-! ### Operators -/

/-- An operator and its operand, or an expression without one in front. -/
def leading (deeper : Expression) : Reader (Option Tree) := do
  match leadingOf? (← current) with
  | none => postfixed (deeper 0)
  | some operator =>
    let sign ← leaf
    skipLineBreaks
    let right ← operand (deeper operator.precedence) .right
    return some (.ofParts (.operator operator) [.child .operator sign, right])

/-- One infix operator of at least the precedence `minimum`, with its right operand. -/
def infixRound (deeper : Expression) (minimum : Nat) (left : Tree) : Reader (Tree × Bool) := do
  match (infixOf? (← current)).filter fun operator =>
      !operator.isAccessor && minimum ≤ operator.precedence with
  | none => return (left, true)
  | some operator =>
    let sign ← leaf
    skipLineBreaks
    let right ← operand (deeper operator.rightMinimum) .right
    return (.ofParts (.operator operator) [.child .left left, .child .operator sign, right], false)

/-- An expression over infix operators of at least the precedence `minimum`. -/
def infixed (deeper : Expression) (minimum : Nat) : Reader (Option Tree) := do
  match ← leading deeper with
  | none => return none
  | some tree => return some (← untilDone (infixRound deeper minimum) tree)

/-! ### Levels -/

/-- The number of tokens up to the one that closes the last of `depth` open delimiters, whatever
their kinds. -/
def closingLength : (depth : Nat) → List Lexeme → Nat
  | 0, _ => 0
  | _ + 1, [] => 0
  | depth + 1, lexeme :: rest =>
    let after :=
      if lexeme.kind.isOpening then depth + 2
      else if lexeme.kind.isClosing then depth
      else depth + 1
    closingLength after rest + 1

/-- Takes the tokens up to the one that closes an open delimiter. -/
def skipToClosing : Reader (List Lexeme) := fun _ cursor =>
  let count := closingLength 1 cursor.rest
  (cursor.rest.take count, cursor.drop count)

/-- Whether no expression begins with a token of this kind, however deep. -/
def endsNesting (kind : TokenKind) : Bool :=
  kind.isClosing || kind == .endOfStream || kind == .lineBreak || kind == .semicolon
    || kind == .comma

/-- What stands for an expression below the last level. -/
def tooDeep : Reader (Option Tree) := do
  let token ← current
  if endsNesting token.kind then
    return none
  else
    let first ← advance
    if token.kind.isOpening then
      return some (.cut first (← skipToClosing))
    else
      return some (.cut first [])

/-- An expression that may enclose `levels - 1` others. -/
def expressionWithin : (levels : Nat) → Expression
  | 0, _ => tooDeep
  | levels + 1, minimum => infixed (expressionWithin levels) minimum

end RSource.Grammar
