/-
**Statements and scopes.**

A statement is an expression with a semicolon or without one. Statements of a scope stand apart by
line breaks or semicolons. Where a statement cannot be read, or another follows it on its line, the
rest of the line is passed over and kept as a problem.

All readers here take the reader of an expression one level deeper as their argument.
-/

import RSource.Grammar.Reader

namespace RSource.Grammar

open Reader

/-- A statement, unless no expression begins here. -/
def statement (expression : Reader (Option Tree)) : Reader (Option Tree) := do
  match ← expression with
  | none => return none
  | some tree =>
    let semicolon ← leafOf .semicolon .semicolon
    return some (.ofParts .statement (.child .expression tree :: semicolon))

/-- Line breaks and semicolons separate statements. -/
def isSeparator (lexeme : Lexeme) : Bool :=
  lexeme.kind == .lineBreak || lexeme.kind == .semicolon

/-- Whether passing over a line in search of the next statement stops here. -/
def isBoundary (mode : Mode) (lexeme : Lexeme) : Bool :=
  (lexeme.kind == .lineBreak && !mode.lineBreaksIgnored) || lexeme.kind == .semicolon
    || lexeme.kind == .endOfStream || lexeme.kind.isScopeBoundary

/-- Passes over what is left of a line. -/
def skipToBoundary : Reader (List Lexeme) := do
  let mode ← mode
  takeWhile fun lexeme => !isBoundary mode lexeme

/-- Whether a statement may end in front of this token. -/
def endsStatement (lexeme : Lexeme) : Bool :=
  lexeme.kind == .lineBreak || lexeme.kind == .endOfStream || lexeme.kind == .closeCurlyBrace

/-- What follows a statement on its line: nothing, or a problem over the rest of the line. A body
without braces keeps its semicolon, so the last token taken counts, not the statement's own. -/
def separation (ownSemicolon : Bool) : Reader (List Part) := do
  let previous ← previous?
  let next ← current
  if ownSemicolon || previous.any (·.kind == .semicolon) || endsStatement next then
    return []
  else
    return [.problem ⟨.unexpectedToken, next.token⟩ (← skipToBoundary)]

/-- Whether a statement has a semicolon of its own. -/
def hasSemicolon : Tree → Bool
  | .node _ _ parts => parts.any (Part.isChildIn .semicolon)
  | _ => false

/-- One round of reading statements: the separators, then a statement or a problem. -/
def statementRound (expression : Reader (Option Tree)) (terminator : Option TokenKind) :
    Reader (List Part × Bool) := do
  let _ ← takeWhile isSeparator
  let token ← current
  if token.kind == .endOfStream || some token.kind == terminator then
    return ([], true)
  else if token.kind == .closeCurlyBrace then
    let stray ← advance
    return ([.problem ⟨.unexpectedToken, token.token⟩ [stray]], false)
  else
    match ← statement expression with
    | none =>
      let first ← advance
      let others ← skipToBoundary
      return ([.problem ⟨.unexpectedToken, token.token⟩ (first :: others)], false)
    | some tree =>
      let after ← separation (hasSemicolon tree)
      return (.child .statements tree :: after, false)

/-- Statements up to a token of the kind `terminator`, which is left, or up to the end. -/
def statements (expression : Reader (Option Tree)) (terminator : Option TokenKind) :
    Reader (List Part) :=
  collect (statementRound expression terminator)

/-- Statements between curly braces, the first of which is the current token. -/
def bracedScope (expression : Reader (Option Tree)) : Reader Tree := do
  let opening ← leaf
  insideBraces do
    let items ← statements expression (some .closeCurlyBrace)
    let close ← closing .curlyBrace
    return .ofParts .scope (.child .openCurly opening :: items ++ [.ofResult .closeCurly close])

/-- The body of a construct: a block or, where the construct allows it, one statement. Line breaks
in front of it are passed. -/
def scope (expression : Reader (Option Tree)) (allowsSimple : Bool) :
    Reader (Except Problem Tree) := do
  skipLineBreaks
  let token ← current
  if token.kind == .openCurlyBrace then
    return .ok (← bracedScope expression)
  else if !allowsSimple then
    return .error ⟨.openCurlyBraceExpected, token.token⟩
  else
    match ← statement expression with
    | some tree => return .ok (.ofParts .simpleScope [.child .statement tree])
    | none => return .error ⟨.statementExpected, token.token⟩

/-- All statements up to the end of the text. -/
def globalScope (expression : Reader (Option Tree)) : Reader Tree := do
  let items ← statements expression none
  return .node .globalScope ⟨0, ← textSize⟩ items

end RSource.Grammar
