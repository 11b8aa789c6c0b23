/-
**Quoted texts.**

A quoted text stands between double quotes. A double quote, a backslash and the common control
characters have a backslash and a letter; other hidden characters have their number in hexadecimal;
everything else stands for itself. So no quoted text holds a line feed or a lone quote.
-/

import RSource.Text.Hidden
import RSource.Text.Bytes

namespace RSource.Text

/-- The digits of a number in base sixteen, in lower case. -/
def hexDigits (number : Nat) : Text := Nat.toDigits 16 number

/-- How one character is written between quotes. -/
def quoteChar (c : Char) : Text :=
  match c with
  | '"' => ['\\', '"']
  | '\\' => ['\\', '\\']
  | '\t' => ['\\', 't']
  | '\r' => ['\\', 'r']
  | '\n' => ['\\', 'n']
  | '\x00' => ['\\', '0']
  | c => if isHidden c then ['\\', 'u', '\x7b'] ++ hexDigits c.toNat ++ ['\x7d'] else [c]

/-- A text between double quotes. -/
def quote (text : Text) : Text := '"' :: text.flatMap quoteChar ++ ['"']

/-- A text between double quotes. -/
def quoted (text : Text) : String := String.ofList (quote text)

end RSource.Text
