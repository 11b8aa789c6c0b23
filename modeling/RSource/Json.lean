/-
**JSON in writing.**

A value is written over several lines: the parts of a list or an object have a line each and are
indented by two blanks more than what is around them. A list or an object without parts is two
brackets.
-/

import RSource.Decimal.Text

namespace RSource

/-- The JSON values that reports consist of. -/
inductive JsonValue where
  | number (value : Nat)
  | string (value : Text)
  | list (items : List JsonValue)
  /-- Members are written in this order. -/
  | object (members : List (String × JsonValue))
  deriving Inhabited

namespace JsonValue

/-- How one character is written in a JSON string. -/
def escapeChar (c : Char) : Text :=
  match c with
  | '"' => ['\\', '"']
  | '\\' => ['\\', '\\']
  | '\x08' => ['\\', 'b']
  | '\x0c' => ['\\', 'f']
  | '\n' => ['\\', 'n']
  | '\r' => ['\\', 'r']
  | '\t' => ['\\', 't']
  | c =>
    if c.toNat < 0x20 then
      let digits := Nat.toDigits 16 c.toNat
      ['\\', 'u'] ++ List.replicate (4 - digits.length) '0' ++ digits
    else [c]

/-- A JSON string. -/
def quote (text : Text) : Text := '"' :: text.flatMap escapeChar ++ ['"']

/-- A new line at a depth. -/
def lineBreak (depth : Nat) : Text := '\n' :: List.replicate (2 * depth) ' '

mutual

/-- A value at a depth, without a break in front of its first line. -/
def writeAt (depth : Nat) : JsonValue → Text
  | number value => Decimal.digitsOf value
  | string value => quote value
  | list [] => ['[', ']']
  | list (item :: items) =>
    '[' :: lineBreak (depth + 1) ++ writeAt (depth + 1) item ++ writeItems (depth + 1) items
      ++ lineBreak depth ++ [']']
  | object [] => ['\x7b', '\x7d']
  | object ((name, value) :: members) =>
    '\x7b' :: lineBreak (depth + 1) ++ quote name.toList ++ [':', ' '] ++ writeAt (depth + 1) value
      ++ writeMembers (depth + 1) members ++ lineBreak depth ++ ['\x7d']

/-- The items of a list behind its first. -/
def writeItems (depth : Nat) : List JsonValue → Text
  | [] => []
  | item :: items => ',' :: lineBreak depth ++ writeAt depth item ++ writeItems depth items

/-- The members of an object behind its first. -/
def writeMembers (depth : Nat) : List (String × JsonValue) → Text
  | [] => []
  | (name, value) :: members =>
    ',' :: lineBreak depth ++ quote name.toList ++ [':', ' '] ++ writeAt depth value
      ++ writeMembers depth members

end

/-- A value. -/
def write (value : JsonValue) : Text := writeAt 0 value

end JsonValue

end RSource
