/-
**Tokens of R source text.**

A token is a kind and a place. A lexeme is a token together with its text; its length is the length
of that text, so the two never disagree.
-/

import RSource.Text.Span
import RSource.Text.Bytes

namespace RSource

/-- What a token is. -/
inductive TokenKind where
  | whitespace
  | lineBreak
  | comment
  | identifier
  | keyword
  | logical
  | null
  | missing
  | number
  | string
  | operator
  | comma
  | semicolon
  | openBrace
  | closeBrace
  | openCurlyBrace
  | closeCurlyBrace
  | openSquareBracket
  | closeSquareBracket
  | openDoubleSquareBracket
  | closeDoubleSquareBracket
  /-- One character that begins no other token. -/
  | unknown
  /-- The mark behind the last token. -/
  | endOfStream
  deriving Repr, DecidableEq, Inhabited

namespace TokenKind

/-- Every kind, in the order of the definition. -/
def all : List TokenKind :=
  [whitespace, lineBreak, comment, identifier, keyword, logical, null, missing, number, string,
    operator, comma, semicolon, openBrace, closeBrace, openCurlyBrace, closeCurlyBrace,
    openSquareBracket, closeSquareBracket, openDoubleSquareBracket, closeDoubleSquareBracket,
    unknown, endOfStream]

/-- The name of a kind in listings. -/
def name : TokenKind → String
  | whitespace => "Whitespace"
  | lineBreak => "LineBreak"
  | comment => "Comment"
  | identifier => "Identifier"
  | keyword => "Keyword"
  | logical => "Logical"
  | null => "Null"
  | missing => "Missing"
  | number => "Number"
  | string => "String"
  | operator => "Operator"
  | comma => "Comma"
  | semicolon => "Semicolon"
  | openBrace => "OpenBrace"
  | closeBrace => "CloseBrace"
  | openCurlyBrace => "OpenCurlyBrace"
  | closeCurlyBrace => "CloseCurlyBrace"
  | openSquareBracket => "OpenSquareBracket"
  | closeSquareBracket => "CloseSquareBracket"
  | openDoubleSquareBracket => "OpenDoubleSquareBracket"
  | closeDoubleSquareBracket => "CloseDoubleSquareBracket"
  | unknown => "Unknown"
  | endOfStream => "EndOfStream"

/-- The kind of this name. -/
def ofName? (name : String) : Option TokenKind := all.find? (·.name == name)

/-- The words for a kind in messages. -/
def description : TokenKind → String
  | whitespace => "whitespace"
  | lineBreak => "line break"
  | comment => "comment"
  | identifier => "identifier"
  | keyword => "keyword"
  | logical => "logical constant"
  | null => "NULL"
  | missing => "missing value"
  | number => "number"
  | string => "string"
  | operator => "operator"
  | comma => "','"
  | semicolon => "';'"
  | openBrace => "'('"
  | closeBrace => "')'"
  | openCurlyBrace => "'\x7b'"
  | closeCurlyBrace => "'\x7d'"
  | openSquareBracket => "'['"
  | closeSquareBracket => "']'"
  | openDoubleSquareBracket => "'[['"
  | closeDoubleSquareBracket => "']]'"
  | unknown => "unknown character"
  | endOfStream => "end of input"

/-- Tokens that the grammar never reads. -/
def isTrivia : TokenKind → Bool
  | whitespace | comment => true
  | _ => false

/-- Tokens that stand for a constant. -/
def isLiteral : TokenKind → Bool
  | number | string | logical | null | missing => true
  | _ => false

def isOpening : TokenKind → Bool
  | openBrace | openCurlyBrace | openSquareBracket | openDoubleSquareBracket => true
  | _ => false

def isClosing : TokenKind → Bool
  | closeBrace | closeCurlyBrace | closeSquareBracket | closeDoubleSquareBracket => true
  | _ => false

/-- Curly braces bound a scope; recovery never passes one. -/
def isScopeBoundary : TokenKind → Bool
  | openCurlyBrace | closeCurlyBrace => true
  | _ => false

end TokenKind

/-- A pair of brackets. -/
inductive Delimiter where
  | brace
  | curlyBrace
  | squareBracket
  | doubleSquareBracket
  deriving Repr, DecidableEq, Inhabited

namespace Delimiter

/-- The kind of the opening token. -/
def opener : Delimiter → TokenKind
  | brace => .openBrace
  | curlyBrace => .openCurlyBrace
  | squareBracket => .openSquareBracket
  | doubleSquareBracket => .openDoubleSquareBracket

/-- The kind of the closing token. -/
def closer : Delimiter → TokenKind
  | brace => .closeBrace
  | curlyBrace => .closeCurlyBrace
  | squareBracket => .closeSquareBracket
  | doubleSquareBracket => .closeDoubleSquareBracket

/-- The pair that a token of this kind opens. -/
def ofOpener? : TokenKind → Option Delimiter
  | .openBrace => some brace
  | .openCurlyBrace => some curlyBrace
  | .openSquareBracket => some squareBracket
  | .openDoubleSquareBracket => some doubleSquareBracket
  | _ => none

theorem ofOpener?_eq_some_iff {kind : TokenKind} {delimiter : Delimiter} :
    ofOpener? kind = some delimiter ↔ kind = delimiter.opener := by
  cases kind <;> cases delimiter <;> simp [ofOpener?, opener]

end Delimiter

/-- A kind and a place in a text. -/
structure Token where
  kind : TokenKind
  start : Nat
  length : Nat
  deriving Repr, DecidableEq, Inhabited

namespace Token

def stop (token : Token) : Nat := token.start + token.length

def span (token : Token) : Span := .ofLength token.start token.length

/-- The part of `text` that the token covers, if its ends lie between characters. -/
def slice? (token : Token) (text : Text) : Option Text := text.slice? token.start token.stop

end Token

/-- A kind, a place and the text found there. -/
structure Lexeme where
  kind : TokenKind
  start : Nat
  text : Text
  deriving Repr, DecidableEq, Inhabited

namespace Lexeme

def token (lexeme : Lexeme) : Token := ⟨lexeme.kind, lexeme.start, lexeme.text.bytes⟩

def stop (lexeme : Lexeme) : Nat := lexeme.start + lexeme.text.bytes

def span (lexeme : Lexeme) : Span := ⟨lexeme.start, lexeme.stop⟩

/-- The mark behind the last token of a text of `size` bytes. -/
def endMark (size : Nat) : Lexeme := ⟨.endOfStream, size, []⟩

end Lexeme

end RSource
