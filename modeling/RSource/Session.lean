/-
**Reading by hand.**

A session is a cursor into a text's tokens with everything that reading from it has produced so
far. Each of its steps runs one reader of the grammar and keeps the tree and the problems it
gives. A step that asks for something its place cannot give ends with a `Violation`; the session
is then as the step had left it.
-/

import RSource.Document

namespace RSource

/-- A use of a step that its place does not allow. -/
inductive Violation where
  | keywordExpected (span : Span) (found : TokenKind)
  | notOpening (kind : TokenKind)
  deriving Repr, DecidableEq

def Violation.message : Violation → String
  | keywordExpected span found =>
    s!"expected a keyword at {span.text}, found {found.description}"
  | notOpening kind => s!"{kind.description} is not an opening delimiter"

/-- The delimiter that a token of this kind opens. -/
def Delimiter.ofOpener (kind : TokenKind) : Except Violation Delimiter :=
  match ofOpener? kind with
  | some delimiter => .ok delimiter
  | none => .error (.notOpening kind)

/-- A cursor and what has been read so far. -/
structure Session where
  cursor : Cursor Lexeme
  mode : Mode
  /-- The number of expressions around the cursor. -/
  nesting : Nat
  problems : List Problem
  /-- Comments taken out of the tokens and not yet handed over. -/
  comments : List Token
  document : Document

namespace Session

/-- A session at the first of these lexemes of a text. Blanks are left out; comments stay. -/
def start (text : Text) (lexemes : List Lexeme) : Session where
  cursor := .ofList (lexemes.filter (!·.isWhitespace)) (.endMark text.bytes)
  mode := .outermost
  nesting := 0
  problems := []
  comments := []
  document := .blank text

/-- Runs a reader and keeps nothing but the cursor. -/
def run {α : Type} (session : Session) (reader : Reader α) : α × Session :=
  let result := reader session.mode session.cursor
  (result.1, { session with cursor := result.2 })

/-- Records problems. -/
def report (session : Session) (found : List Problem) : Session :=
  { session with problems := session.problems ++ found }

/-- Keeps a tree and its problems; the number of its node. -/
def keep (session : Session) (tree : Tree) : NodeId × Session :=
  let nodes := Arena.store tree session.document.nodes
  (nodes.size - 1,
    { session with document := { session.document with nodes } }.report tree.problems)

/-- Runs the reader of a tree and keeps the tree. -/
def build (session : Session) (reader : Reader Tree) : NodeId × Session :=
  let result := session.run reader
  result.2.keep result.1

/-- Runs the reader of a tree that may not be there. -/
def build? (session : Session) (reader : Reader (Option Tree)) : Option NodeId × Session :=
  match session.run reader with
  | (some tree, session) =>
    let kept := session.keep tree
    (some kept.1, kept.2)
  | (none, session) => (none, session)

/-- Runs the reader of a tree in whose place there may be a problem. -/
def buildOrReport (session : Session) (reader : Reader (Except Problem Tree)) :
    Option NodeId × Session :=
  match session.run reader with
  | (.ok tree, session) =>
    let kept := session.keep tree
    (some kept.1, kept.2)
  | (.error found, session) => (none, session.report [found])

/-! ### Looking at tokens -/

def current (session : Session) : Lexeme × Session := session.run Reader.current

def advance (session : Session) : Lexeme × Session := session.run Reader.advance

def peekNext (session : Session) : Lexeme := (session.run Reader.peekNext).1

def nextBeyondLineBreaks (session : Session) : Lexeme :=
  (session.run Reader.nextBeyondLineBreaks).1

def skipLineBreaks (session : Session) : Session := (session.run Reader.skipLineBreaks).2

/-- Whether no further expression may open around the cursor. -/
def nestingLimitReached (session : Session) : Bool := Grammar.maxNesting ≤ session.nesting

/-- Records a problem of this kind at the current token. -/
def addProblem (session : Session) (kind : ProblemKind) : Session :=
  let result := session.run (Reader.missing kind)
  result.2.report [result.1]

/-- Takes all comments out of the tokens and goes back to the first token. -/
def removeComments (session : Session) : Session :=
  let items := session.cursor.items
  { session with
    cursor := .ofList (items.filter (!·.isComment)) session.cursor.mark
    comments := session.comments ++ (items.filter (·.isComment)).map (·.token) }

/-- Hands over the comments taken out so far. -/
def takeComments (session : Session) : List Token × Session :=
  (session.comments, { session with comments := [] })

/-! ### Inner sections -/

/-- Runs steps with line breaks ignored or not. -/
def withLineBreaksIgnored {α : Type} (session : Session) (ignored : Bool)
    (steps : Session → α × Session) : α × Session :=
  let result := steps
    { session with mode := { session.mode with lineBreaksIgnored := ignored } }
  (result.1, { result.2 with mode := session.mode })

/-- Runs steps inside curly braces. -/
def withBraces {α : Type} (session : Session) (steps : Session → α × Session) : α × Session :=
  let result := steps { session with mode := ⟨false, session.mode.braceDepth + 1⟩ }
  (result.1, { result.2 with mode := session.mode })

/-- Runs steps with `levels` more expressions around them. -/
def withNesting {α : Type} (session : Session) (levels : Nat) (steps : Session → α × Session) :
    α × Session :=
  let result := steps { session with nesting := session.nesting + levels }
  (result.1, { result.2 with nesting := session.nesting })

/-! ### Steps of the grammar -/

/-- The reader of an expression inside those around the cursor. -/
def deeper (session : Session) : Reader (Option Tree) :=
  Grammar.expressionWithin (Grammar.maxNesting - session.nesting) 0

/-- Takes the current token, which has to be a keyword. -/
def keyword (session : Session) : Except Violation NodeId × Session :=
  let looked := session.current
  if looked.1.kind == .keyword then
    let built := looked.2.build Reader.leaf
    (.ok built.1, built.2)
  else (.error (.keywordExpected looked.1.span looked.1.kind), looked.2)

/-- Takes the current token, whatever it is. -/
def token (session : Session) : NodeId × Session := session.build Reader.leaf

/-- Takes a keyword and the parenthesis that should follow it. -/
def openSequence (session : Session) : Except Violation (NodeId × Option NodeId) × Session :=
  match session.keyword with
  | (.error violation, session) => (.error violation, session)
  | (.ok keyword, session) =>
    let result := session.buildOrReport (Reader.expect .openBrace .openBraceExpected)
    (.ok (keyword, result.1), result.2)

/-- Takes the token that closes what a token of this kind opens. -/
def close (session : Session) (opener : TokenKind) :
    Except Violation (Option NodeId) × Session :=
  match Delimiter.ofOpener opener with
  | .error violation => (.error violation, session)
  | .ok delimiter =>
    let result := session.buildOrReport (Reader.closing delimiter)
    (.ok result.1, result.2)

/-- Takes the parenthesis that closes a head. -/
def closeSequence (session : Session) : Option NodeId × Session :=
  session.buildOrReport (Reader.closing .brace)

def scope (session : Session) (allowsSimple : Bool) : Option NodeId × Session :=
  session.buildOrReport (Grammar.scope session.deeper allowsSimple)

def globalScope (session : Session) : NodeId × Session :=
  session.build (Grammar.globalScope session.deeper)

def statement (session : Session) : Option NodeId × Session :=
  session.build? (Grammar.statement session.deeper)

def expression (session : Session) : Option NodeId × Session := session.build? session.deeper

def construct (session : Session) : Option NodeId × Session :=
  session.build? (Grammar.construct session.deeper)

/-- Takes an argument list up to the closer of what a token of this kind opens. -/
def arguments (session : Session) (style : Grammar.ArgumentStyle) (opener : TokenKind)
    (anchor : Nat) : Except Violation NodeId × Session :=
  match Delimiter.ofOpener opener with
  | .error violation => (.error violation, session)
  | .ok delimiter =>
    let result := session.build (Grammar.argumentList session.deeper style delimiter anchor)
    (.ok result.1, result.2)

/-- Reads the whole program from the first token on, and ties the tree together. -/
def readAll (session : Session) : Session :=
  let cleared := session.removeComments
  let built := cleared.globalScope
  let (comments, done) := built.2.takeComments
  { done with document := done.document.finish done.document.nodes built.1 comments }

end Session

end RSource
