/-
**Token listings.**

A listing has one line for each token: its kind, its bytes, and its text between quotes.
-/

import RSource.Token
import RSource.Text.Quoted

namespace RSource

namespace Token

/-- The line of a token, if its ends lie between characters of the text. -/
def listingLine? (text : Text) (token : Token) : Option String :=
  (token.slice? text).map fun covered =>
    s!"{token.kind.name} [{token.start}..{token.stop}] " ++ Text.quoted covered ++ "\n"

/-- The lines of tokens of a text, if all their ends lie between characters. -/
def listing? (text : Text) (tokens : List Token) : Option String :=
  (tokens.mapM (listingLine? text)).map String.join

end Token

end RSource
