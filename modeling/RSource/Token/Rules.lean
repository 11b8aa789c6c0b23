/-
**The patterns of R's tokens.**

`tokenRules` pairs each kind of token with the texts it may have. Words have one pattern;
`classifyWord` tells the reserved ones apart afterwards.
-/

import RSource.Pattern
import RSource.Token

namespace RSource

namespace TokenRules

open Pattern

def isLetter (c : Char) : Bool := ('a' ≤ c && c ≤ 'z') || ('A' ≤ c && c ≤ 'Z')

def isDigit (c : Char) : Bool := '0' ≤ c && c ≤ '9'

def isHexDigit (c : Char) : Bool := isDigit c || ('a' ≤ c && c ≤ 'f') || ('A' ≤ c && c ≤ 'F')

/-- The characters that may continue a word. -/
def isWordTail (c : Char) : Bool := isLetter c || isDigit c || c == '.' || c == '_'

/-- The characters that may follow the dot a word begins with. -/
def isDotTail (c : Char) : Bool := isLetter c || c == '.' || c == '_'

/-- A line feed or a carriage return. -/
def isLineEnd (c : Char) : Bool := c == '\n' || c == '\r'

/-- A blank, a tab or a form feed. -/
def isBlank (c : Char) : Bool := c == ' ' || c == '\t' || c == '\x0c'

def whitespace : Pattern := many (.char isBlank)

def lineBreak : Pattern := oneOf [literal ['\r', '\n'], literal ['\n'], literal ['\r']]

/-- A comment ends before the end of its line. -/
def comment : Pattern := sequence [literal ['#'], .star (.char (!isLineEnd ·))]

/-- A word, a lone dot, or a name between backticks that may lack the second one. -/
def identifier : Pattern :=
  oneOf
    [ sequence [.char isLetter, .star (.char isWordTail)],
      sequence [literal ['.'], .char isDotTail, .star (.char isWordTail)],
      literal ['.'],
      sequence [literal ['`'], .star (.char (· != '`')), optional (literal ['`'])] ]

def digits : Pattern := many (.char isDigit)

def exponent : Pattern :=
  sequence [.char (fun c => c == 'e' || c == 'E'), optional (.char (fun c => c == '+' || c == '-')),
    digits]

/-- The letter that makes a number an integer or imaginary. -/
def numberMark : Pattern := optional (.char (fun c => c == 'L' || c == 'i'))

def number : Pattern :=
  oneOf
    [ sequence [digits, optional (sequence [literal ['.'], .star (.char isDigit)]),
        optional exponent, numberMark],
      sequence [literal ['.'], digits, optional exponent, numberMark],
      sequence [literal ['0'], .char (fun c => c == 'x' || c == 'X'), many (.char isHexDigit),
        numberMark] ]

/-- A string between two `quote`s, the second of which may be missing. A backslash takes the next
character with it. -/
def quoted (quote : Char) : Pattern :=
  sequence
    [ literal [quote],
      .star (.alt (.char (fun c => c != quote && c != '\\'))
        (sequence [literal ['\\'], .char (fun _ => true)])),
      optional (literal [quote]) ]

def string : Pattern := oneOf [quoted '"', quoted '\'']

/-- An operator between two percent signs on one line. -/
def percentOperator : Pattern :=
  sequence [literal ['%'], .star (.char (fun c => c != '%' && !isLineEnd c)), literal ['%']]

/-- The operators written in one way only. -/
def operatorTexts : List Text :=
  [ ['+'], ['-'], ['*'], ['/'], ['^'], ['*', '*'], ['<'], ['>'], ['<', '='], ['>', '='],
    ['=', '='], ['!', '='], ['!'], ['&'], ['&', '&'], ['|'], ['|', '|'], ['|', '>'], ['~'], ['?'],
    [':'], [':', ':'], [':', ':', ':'], ['$'], ['@'], ['='], ['<', '-'], ['<', '<', '-'],
    ['-', '>'], ['-', '>', '>'] ]

def operator : Pattern := merge (oneOf (operatorTexts.map literal)) percentOperator

end TokenRules

open TokenRules in
/-- The kinds of tokens that text is cut into, with the texts each may have. -/
def tokenRules : List (TokenKind × Pattern) :=
  [ (.whitespace, whitespace),
    (.lineBreak, lineBreak),
    (.comment, comment),
    (.identifier, identifier),
    (.number, number),
    (.string, string),
    (.operator, operator),
    (.comma, .literal [',']),
    (.semicolon, .literal [';']),
    (.openBrace, .literal ['(']),
    (.closeBrace, .literal [')']),
    (.openCurlyBrace, .literal ['\x7b']),
    (.closeCurlyBrace, .literal ['\x7d']),
    (.openSquareBracket, .literal ['[']),
    (.closeSquareBracket, .literal [']']),
    (.openDoubleSquareBracket, .literal ['[', '[']),
    (.closeDoubleSquareBracket, .literal [']', ']']) ]

/-- The words that are not names, with what they are. -/
def reservedWords : List (Text × TokenKind) :=
  [ ("if".toList, .keyword), ("else".toList, .keyword), ("repeat".toList, .keyword),
    ("while".toList, .keyword), ("function".toList, .keyword), ("for".toList, .keyword),
    ("in".toList, .keyword), ("next".toList, .keyword), ("break".toList, .keyword),
    ("TRUE".toList, .logical), ("FALSE".toList, .logical), ("NULL".toList, .null),
    ("NA".toList, .missing), ("NA_integer_".toList, .missing), ("NA_real_".toList, .missing),
    ("NA_character_".toList, .missing), ("NA_complex_".toList, .missing),
    ("Inf".toList, .number), ("NaN".toList, .number) ]

/-- What a word is: the kind of a reserved word, otherwise a name. -/
def classifyWord (word : Text) : TokenKind := (reservedWords.lookup word).getD .identifier

end RSource
