/-
**Blank characters and lines.**

`trim` takes away the characters at both ends that Unicode counts as white space.
-/

import RSource.Text.Bytes

namespace RSource.Text

/-- The ranges of code points that Unicode counts as white space, both ends included. -/
def spaceRanges : List (Nat × Nat) :=
  [ (0x09, 0x0d), (0x20, 0x20), (0x85, 0x85), (0xa0, 0xa0), (0x1680, 0x1680), (0x2000, 0x200a),
    (0x2028, 0x2029), (0x202f, 0x202f), (0x205f, 0x205f), (0x3000, 0x3000) ]

def isSpace (c : Char) : Bool :=
  spaceRanges.any fun range => range.1 ≤ c.toNat && c.toNat ≤ range.2

/-- A text without the white space at its ends. -/
def trim (text : Text) : Text :=
  ((text.dropWhile isSpace).reverse.dropWhile isSpace).reverse

/-- The text up to its first line feed. -/
def firstLine (text : Text) : Text := text.takeWhile (· != '\n')

/-- The first `width` characters; three dots show that some are missing. -/
def shorten (width : Nat) (text : Text) : Text :=
  if width < text.length then text.take width ++ ['.', '.', '.'] else text

end RSource.Text
