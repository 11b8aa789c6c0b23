/-
**Problems found while reading.**

A problem never stops the reading. It is kept where it was found, with the token found there.
-/

import RSource.Token
import RSource.Text.Lines

namespace RSource

inductive ProblemKind where
  | openBraceExpected
  | closeBraceExpected
  | openCurlyBraceExpected
  | closeSquareBracketExpected
  | closeDoubleSquareBracketExpected
  | operandExpected
  | identifierExpected
  | inKeywordExpected
  /-- A body that should hold one statement holds none. -/
  | statementExpected
  | unexpectedToken
  | nestingTooDeep
  deriving Repr, DecidableEq, Inhabited

namespace ProblemKind

def all : List ProblemKind :=
  [openBraceExpected, closeBraceExpected, openCurlyBraceExpected, closeSquareBracketExpected,
    closeDoubleSquareBracketExpected, operandExpected, identifierExpected, inKeywordExpected,
    statementExpected, unexpectedToken, nestingTooDeep]

def name : ProblemKind → String
  | openBraceExpected => "OpenBraceExpected"
  | closeBraceExpected => "CloseBraceExpected"
  | openCurlyBraceExpected => "OpenCurlyBraceExpected"
  | closeSquareBracketExpected => "CloseSquareBracketExpected"
  | closeDoubleSquareBracketExpected => "CloseDoubleSquareBracketExpected"
  | operandExpected => "OperandExpected"
  | identifierExpected => "IdentifierExpected"
  | inKeywordExpected => "InKeywordExpected"
  | statementExpected => "StatementExpected"
  | unexpectedToken => "UnexpectedToken"
  | nestingTooDeep => "NestingTooDeep"

/-- The kind of this name. -/
def ofName? (name : String) : Option ProblemKind := all.find? (·.name == name)

def message : ProblemKind → String
  | openBraceExpected => "expected '('"
  | closeBraceExpected => "expected closing brace"
  | openCurlyBraceExpected => "expected '\x7b'"
  | closeSquareBracketExpected => "expected ']'"
  | closeDoubleSquareBracketExpected => "expected ']]'"
  | operandExpected => "expected an operand"
  | identifierExpected => "expected an identifier"
  | inKeywordExpected => "expected 'in'"
  | statementExpected => "expected a statement"
  | unexpectedToken => "unexpected token"
  | nestingTooDeep => "expression nested too deeply"

/-- The problem of a missing closing delimiter. -/
def closerMissing : Delimiter → ProblemKind
  | .brace => closeBraceExpected
  | .curlyBrace => closeBraceExpected
  | .squareBracket => closeSquareBracketExpected
  | .doubleSquareBracket => closeDoubleSquareBracketExpected

end ProblemKind

/-- A kind of problem and the token where it was noticed. -/
structure Problem where
  kind : ProblemKind
  token : Token
  deriving Repr, DecidableEq, Inhabited

namespace Problem

def span (problem : Problem) : Span := problem.token.span

/-- The problem with the bytes where it was noticed. -/
def text (problem : Problem) : String :=
  s!"{problem.kind.message} at {problem.span.text} (found {problem.token.kind.description})"

/-- The problem with its line and column, both counted from one. -/
def textAt (problem : Problem) (lines : LineTable) : String :=
  let position := lines.positionOf problem.token.start
  s!"{position.line + 1}:{position.column + 1}: {problem.kind.message} "
    ++ s!"(found {problem.token.kind.description})"

end Problem

end RSource
