/-
**Reading TOML.**

`Toml.read?` reads a document: lines with a key and a value or with the header of a table. It
knows strings on one line, integers, decimals, booleans, lists and tables between braces. A
document with a fault anywhere is no document at all.
-/

import RSource.Toml
import RSource.Decimal.Text

namespace RSource.Toml

/-- Reads something off the front of a text and leaves the rest. -/
abbrev Scanner (α : Type) := Text → Option (α × Text)

/-! ### Blanks and line ends -/

def isBlank (c : Char) : Bool := c == ' ' || c == '\t'

/-- What may stand in a comment or a string on one line. -/
def isPrintable (c : Char) : Bool := c == '\t' || ' ' ≤ c && c != '\x7f'

/-- A text without the blanks in front of it. -/
def skipBlanks (text : Text) : Text := text.dropWhile isBlank

/-- A text without the comment in front of it. -/
def skipComment (text : Text) : Text :=
  match text with
  | '#' :: rest => rest.dropWhile isPrintable
  | _ => text

/-- What follows a line end. -/
def lineEnd? : Text → Option Text
  | '\n' :: rest => some rest
  | '\r' :: '\n' :: rest => some rest
  | _ => none

/-- A text without blanks, comments and line ends in front of it, in at most `bound` rounds. -/
def skipLines : (bound : Nat) → Text → Text
  | 0, text => text
  | bound + 1, text =>
    let rest := skipComment (skipBlanks text)
    match lineEnd? rest with
    | some rest => skipLines bound rest
    | none => rest

/-! ### Strings and keys -/

def isHexDigit (c : Char) : Bool :=
  Decimal.isDigit c || 'a' ≤ c && c ≤ 'f' || 'A' ≤ c && c ≤ 'F'

def hexDigitValue (c : Char) : Nat :=
  if Decimal.isDigit c then c.toNat - '0'.toNat
  else if 'a' ≤ c then c.toNat - 'a'.toNat + 10
  else c.toNat - 'A'.toNat + 10

/-- The character with a number of `count` hexadecimal digits. -/
def numberedChar? (count : Nat) (text : Text) : Option (Char × Text) :=
  let digits := text.take count
  let number := digits.foldl (fun total c => 16 * total + hexDigitValue c) 0
  if digits.length = count ∧ digits.all isHexDigit ∧ number.isValidChar then
    some (Char.ofNat number, text.drop count)
  else none

/-- The character that an escape stands for, behind the backslash. -/
def escape? : Scanner Char
  | 'b' :: rest => some ('\x08', rest)
  | 't' :: rest => some ('\t', rest)
  | 'n' :: rest => some ('\n', rest)
  | 'f' :: rest => some ('\x0c', rest)
  | 'r' :: rest => some ('\r', rest)
  | '"' :: rest => some ('"', rest)
  | '\\' :: rest => some ('\\', rest)
  | 'u' :: rest => numberedChar? 4 rest
  | 'U' :: rest => numberedChar? 8 rest
  | _ => none

/-- A string with escapes, behind its opening quote, of at most `bound` characters. -/
def basicWithin? : (bound : Nat) → Scanner Text
  | 0, _ => none
  | _ + 1, [] => none
  | bound + 1, c :: rest =>
    if c == '"' then some ([], rest)
    else if c == '\\' then do
      let (character, rest) ← escape? rest
      let (more, rest) ← basicWithin? bound rest
      return (character :: more, rest)
    else if isPrintable c then do
      let (more, rest) ← basicWithin? bound rest
      return (c :: more, rest)
    else none

/-- A string without escapes, behind its opening quote. -/
def literal? (text : Text) : Option (Text × Text) :=
  let inner := text.takeWhile fun c => isPrintable c && c != '\''
  match text.drop inner.length with
  | '\'' :: rest => some (inner, rest)
  | _ => none

def isBareKeyChar (c : Char) : Bool :=
  Decimal.isDigit c || 'a' ≤ c && c ≤ 'z' || 'A' ≤ c && c ≤ 'Z' || c == '_' || c == '-'

/-- One part of a key. -/
def keyPart? : Scanner Text
  | '"' :: rest => basicWithin? (rest.length + 1) rest
  | '\'' :: rest => literal? rest
  | text =>
    let part := text.takeWhile isBareKeyChar
    if part.isEmpty then none else some (part, text.drop part.length)

/-- The parts of a key, with dots and blanks between them, at most `bound` of them. -/
def keyWithin? : (bound : Nat) → Scanner (List Text)
  | 0, _ => none
  | bound + 1, text => do
    let (part, rest) ← keyPart? (skipBlanks text)
    match skipBlanks rest with
    | '.' :: more =>
      let (parts, rest) ← keyWithin? bound more
      return (part :: parts, rest)
    | rest => return ([part], rest)

/-- A key: the parts in front of its last part, and that part. -/
def key? (text : Text) : Option ((List Text × Text) × Text) := do
  let (parts, rest) ← keyWithin? (text.length + 1) text
  return ((parts.dropLast, parts.getLastD []), rest)

/-! ### Numbers and words -/

/-- The characters of which numbers and words consist. -/
def isWordChar (c : Char) : Bool := isBareKeyChar c || c == '+' || c == '.'

/-- Digits without the underscores between them. -/
def digits? (isDigit : Char → Bool) (text : Text) : Option Text :=
  let parts := text.splitOn '_'
  if parts.all fun part => !part.isEmpty && part.all isDigit then some parts.flatten else none

/-- Digits that begin with a zero only if that is all. -/
def wholeDigits? (text : Text) : Option Text :=
  (digits? Decimal.isDigit text).filter fun digits => digits.length = 1 || digits.head? != some '0'

/-- The sign in front of a number, and the rest. -/
def splitSign (text : Text) : Bool × Text :=
  match text with
  | '-' :: rest => (true, rest)
  | '+' :: rest => (false, rest)
  | _ => (false, text)

/-- A number in a base. -/
def readBase? (base : Nat) (isDigit : Char → Bool) (text : Text) : Option Int :=
  (digits? isDigit text).map fun digits =>
    (digits.foldl (fun total c => base * total + hexDigitValue c) 0 : Nat)

/-- A whole number of 64 bits. -/
def integer? (word : Text) : Option Int :=
  let found := match word with
    | '0' :: 'x' :: digits => readBase? 16 isHexDigit digits
    | '0' :: 'o' :: digits => readBase? 8 (fun c => '0' ≤ c && c ≤ '7') digits
    | '0' :: 'b' :: digits => readBase? 2 (fun c => c == '0' || c == '1') digits
    | _ =>
      let (negative, digits) := splitSign word
      (wholeDigits? digits).map fun digits =>
        if negative then -(Decimal.valueOf digits : Int) else Decimal.valueOf digits
  let bound : Int := Nat.pow 2 63
  found.filter fun number => -bound ≤ number && number < bound

/-- A decimal with a fraction, an exponent or both, or the name of a special value. -/
def decimal? (word : Text) : Option Float :=
  let (negative, unsigned) := splitSign word
  let whole := unsigned.takeWhile fun c => Decimal.isDigit c || c == '_'
  let rest := unsigned.drop whole.length
  let fraction := match rest with
    | '.' :: more => more.takeWhile fun c => Decimal.isDigit c || c == '_'
    | _ => []
  let hasFraction := rest.head? == some '.'
  let rest := if hasFraction then rest.drop (fraction.length + 1) else rest
  let hasExponent := rest.head? == some 'e' || rest.head? == some 'E'
  let magnitude : Option Float :=
    if unsigned == ['i', 'n', 'f'] then some (1 / 0)
    else if unsigned == ['n', 'a', 'n'] then some (0 / 0)
    else if hasFraction || hasExponent then do
      let whole ← wholeDigits? whole
      let fraction ← if hasFraction then digits? Decimal.isDigit fraction else some []
      let exponent : Int ←
        if hasExponent then
          let (down, digits) := splitSign (rest.drop 1)
          (digits? Decimal.isDigit digits).map fun digits =>
            if down then -(Decimal.valueOf digits : Int) else Decimal.valueOf digits
        else if rest.isEmpty then some 0
        else none
      let number := Decimal.nearest (Decimal.valueOf (whole ++ fraction))
        (exponent - fraction.length)
      if number.isInf && !negative then none else some number
    else none
  magnitude.map fun number => if negative then -number else number

/-- A value that is one word. -/
def word? (word : Text) : Option Toml :=
  if word == ['t', 'r', 'u', 'e'] then some (.flag true)
  else if word == ['f', 'a', 'l', 's', 'e'] then some (.flag false)
  else match integer? word with
    | some number => some (.integer number)
    | none => (decimal? word).map .decimal

/-! ### Values -/

mutual

/-- A value, with at most `bound` values and keys in it. -/
def valueWithin? : (bound : Nat) → Scanner Toml
  | 0, _ => none
  | bound + 1, text =>
    match text with
    | '"' :: rest =>
      (basicWithin? (rest.length + 1) rest).map fun (value, rest) => (.string value, rest)
    | '\'' :: rest => (literal? rest).map fun (value, rest) => (.string value, rest)
    | '[' :: rest =>
      match skipLines (rest.length + 1) rest with
      | ']' :: rest => some (.list [], rest)
      | rest => (itemsWithin? bound rest).map fun (items, rest) => (.list items, rest)
    | '\x7b' :: rest =>
      match skipBlanks rest with
      | '\x7d' :: rest => some (.table .inline [], rest)
      | rest =>
        (pairsWithin? bound [] rest).map fun (entries, rest) => (.table .inline entries, rest)
    | _ =>
      let word := text.takeWhile isWordChar
      (word? word).map fun value => (value, text.drop word.length)

/-- The items of a list up to its end; a comma may stand behind the last. -/
def itemsWithin? : (bound : Nat) → Scanner (List Toml)
  | 0, _ => none
  | bound + 1, text => do
    let (item, rest) ← valueWithin? bound text
    match skipLines (rest.length + 1) rest with
    | ']' :: rest => return ([item], rest)
    | ',' :: rest =>
      match skipLines (rest.length + 1) rest with
      | ']' :: rest => return ([item], rest)
      | rest =>
        let (items, rest) ← itemsWithin? bound rest
        return (item :: items, rest)
    | _ => none

/-- The entries of a table between braces, behind those in `entries`, up to its end. -/
def pairsWithin? : (bound : Nat) → Entries → Scanner Entries
  | 0, _, _ => none
  | bound + 1, entries, text => do
    let ((path, key), rest) ← key? text
    match rest with
    | '=' :: rest =>
      let (value, rest) ← valueWithin? bound (skipBlanks rest)
      let entries ← addDotted? key value path entries
      match skipBlanks rest with
      | '\x7d' :: rest => return (entries, rest)
      | ',' :: rest => pairsWithin? bound entries rest
      | _ => none
    | _ => none

end

/-- A value. -/
def value? (text : Text) : Option (Toml × Text) := valueWithin? (text.length + 1) text

/-! ### Documents -/

/-- A line of a document. -/
inductive Line where
  | empty
  | header (path : List Text)
  | pair (path : List Text) (key : Text) (value : Toml)

/-- What a line says, up to the blanks in front of its end. -/
def line? (text : Text) : Option (Line × Text) :=
  match skipBlanks text with
  | '[' :: rest => do
    let ((path, key), rest) ← key? rest
    match rest with
    | ']' :: rest => return (.header (path ++ [key]), rest)
    | _ => none
  | rest =>
    if rest.isEmpty || rest.head? == some '#' || (lineEnd? rest).isSome then some (.empty, rest)
    else do
      let ((path, key), rest) ← key? rest
      match rest with
      | '=' :: rest =>
        let (value, rest) ← value? (skipBlanks rest)
        return (.pair path key value, rest)
      | _ => none

/-- What has been read: the document so far, and the path of the table that pairs go to. -/
structure Progress where
  entries : Entries
  current : List Text

/-- Goes on by a line. -/
def Progress.add? (progress : Progress) : Line → Option Progress
  | .empty => some progress
  | .header path => do
    let entries ← openTable? path progress.entries
    return ⟨entries, path⟩
  | .pair path key value => do
    let entries ← alter? (addDotted? key value path) progress.current progress.entries
    return { progress with entries }

/-- Reads at most `bound` lines, up to the end. -/
def linesWithin? : (bound : Nat) → Progress → Text → Option Entries
  | 0, _, _ => none
  | bound + 1, progress, text => do
    let (line, rest) ← line? text
    let progress ← progress.add? line
    match skipComment (skipBlanks rest) with
    | [] => return progress.entries
    | rest =>
      let rest ← lineEnd? rest
      linesWithin? bound progress rest

/-- Reads a document; a byte order mark in front of it does not count. -/
def read? (text : Text) : Option Entries :=
  let text := match text with
    | '\uFEFF' :: rest => rest
    | _ => text
  linesWithin? (text.length + 1) ⟨[], []⟩ text

end RSource.Toml
