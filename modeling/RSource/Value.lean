/-
**Values of R expressions.**

A value is nothing or one element. Its mode is fixed by what that element is.
-/

import RSource.Decimal.Text
import RSource.Text.Quoted

namespace RSource

/-- The kind of elements a value has. -/
inductive ValueMode where
  | null
  | numeric
  | logical
  | character
  deriving Repr, DecidableEq, Inhabited

namespace ValueMode

/-- The name of a mode in listings. -/
def name : ValueMode → String
  | null => "Null"
  | numeric => "Numeric"
  | logical => "Logical"
  | character => "Character"

/-- The word of the language for a mode. -/
def word : ValueMode → String
  | null => "NULL"
  | numeric => "numeric"
  | logical => "logical"
  | character => "character"

end ValueMode

/-- What an expression may stand for. Numbers are compared as numbers: one that is not a number
differs from itself, and the two zeros are equal. -/
inductive Value where
  | null
  | number (value : Float)
  | integer (value : Int)
  | logical (value : Bool)
  | string (value : Text)
  deriving Repr, BEq, Inhabited

namespace Value

/-- The number of elements. -/
def length : Value → Nat
  | null => 0
  | _ => 1

def mode : Value → ValueMode
  | null => .null
  | number _ => .numeric
  | integer _ => .numeric
  | logical _ => .logical
  | string _ => .character

def isNull : Value → Bool
  | null => true
  | _ => false

/-- A value with one element, as it is dumped. -/
def dumpScalar (kind element : String) : String :=
  kind ++ "(RScalar \x7b value: " ++ element ++ " \x7d)"

/-- A value, in full. -/
def dump : Value → String
  | null => "Null"
  | number value => dumpScalar "Number" (String.ofList (Decimal.dumped.write value))
  | integer value => dumpScalar "Integer" (toString value)
  | logical value => dumpScalar "Logical" (if value then "true" else "false")
  | string value => dumpScalar "String" (Text.quoted value)

end Value

end RSource
