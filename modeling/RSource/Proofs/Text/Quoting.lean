/-
**Quoted texts are read back.**

A reader goes over a quoted text one character after another and keeps in mind what it is in the
middle of (`QuoteState`): a backslash takes a letter, or a `u` and a number in curly braces. Main
statements: `unquote?_quote`, a quoted text is read back whatever stands behind it;
`lineFeed_not_mem_quote`, it stands on one line.
-/

import RSource.Text.Quoted

namespace RSource.Text

/-! ### Reading a quoted text -/

/-- What the reader of a quoted text is in the middle of. -/
inductive QuoteState where
  | plain
  /-- Behind a backslash. -/
  | escape
  /-- Behind a backslash and a `u`. -/
  | number
  /-- Behind the curly brace that opens a number. -/
  | opened
  /-- Behind digits of this value. -/
  | digits (value : Nat)

/-- The character that a letter behind a backslash stands for. -/
def escaped? : Char → Option Char
  | '"' => some '"'
  | '\\' => some '\\'
  | 't' => some '\t'
  | 'r' => some '\r'
  | 'n' => some '\n'
  | '0' => some '\x00'
  | _ => none

/-- The value of a digit in base sixteen. -/
def hexValue? (c : Char) : Option Nat :=
  if '0' ≤ c ∧ c ≤ '9' then some (c.toNat - '0'.toNat)
  else if 'a' ≤ c ∧ c ≤ 'f' then some (c.toNat - 'a'.toNat + 10)
  else none

/-- Puts a character in front of what was read. -/
def withFront (c : Char) (found : Text × Text) : Text × Text := (c :: found.1, found.2)

/-- Reads a text up to its closing quote, and gives what stands behind it. -/
def readQuoted? : QuoteState → Text → Option (Text × Text)
  | _, [] => none
  | .plain, c :: rest =>
    if c = '"' then some ([], rest)
    else if c = '\\' then readQuoted? .escape rest
    else (readQuoted? .plain rest).map (withFront c)
  | .escape, c :: rest =>
    if c = 'u' then readQuoted? .number rest
    else (escaped? c).bind fun own => (readQuoted? .plain rest).map (withFront own)
  | .number, c :: rest => if c = '\x7b' then readQuoted? .opened rest else none
  | .opened, c :: rest => (hexValue? c).bind fun digit => readQuoted? (.digits digit) rest
  | .digits value, c :: rest =>
    if c = '\x7d' then
      if value.isValidChar then (readQuoted? .plain rest).map (withFront (.ofNat value)) else none
    else (hexValue? c).bind fun digit => readQuoted? (.digits (16 * value + digit)) rest

/-- The text that a quoted text stands for, and what stands behind it. -/
def unquote? : Text → Option (Text × Text)
  | '"' :: rest => readQuoted? .plain rest
  | _ => none

/-! ### Numbers -/

theorem hexValue?_digitChar {digit : Nat} (small : digit < 16) :
    hexValue? digit.digitChar = some digit ∧ digit.digitChar ≠ '\x7d' := by
  have all : ∀ digit : Fin 16,
      hexValue? digit.val.digitChar = some digit.val ∧ digit.val.digitChar ≠ '\x7d' := by decide
  exact all ⟨digit, small⟩

/-- The digits of a number are read as the number. -/
theorem readQuoted?_hexDigits (number : Nat) (rest : Text) :
    readQuoted? .opened (hexDigits number ++ rest) = readQuoted? (.digits number) rest := by
  induction number using Nat.base_induction 16 (by decide) generalizing rest with
  | single digit small =>
    rw [hexDigits, Nat.toDigits_of_lt_base small, List.singleton_append, readQuoted?,
      (hexValue?_digitChar small).1, Option.bind_some]
  | digit front digit small positive previous =>
    obtain ⟨value, notEnd⟩ := hexValue?_digitChar small
    rw [hexDigits, ← Nat.toDigits_append_toDigits (by decide) positive small,
      Nat.toDigits_of_lt_base small, List.append_assoc, List.singleton_append, ← hexDigits,
      previous, readQuoted?, if_neg notEnd, value, Option.bind_some]

theorem lineFeed_not_mem_hexDigits (number : Nat) : '\n' ∉ hexDigits number := by
  have noDigit (digit : Nat) : '\n' ∉ [digit.digitChar] := by
    rw [List.mem_singleton]
    exact (Nat.digitChar_ne '\n' (by decide)).symm
  induction number using Nat.base_induction 16 (by decide) with
  | single digit small =>
    rw [hexDigits, Nat.toDigits_of_lt_base small]
    exact noDigit digit
  | digit front digit small positive previous =>
    rw [hexDigits, ← Nat.toDigits_append_toDigits (by decide) positive small,
      Nat.toDigits_of_lt_base small, List.mem_append]
    exact not_or.mpr ⟨previous, noDigit digit⟩

/-! ### Characters -/

/-- **A character that is written between quotes is read back.** -/
theorem readQuoted?_quoteChar (c : Char) (rest : Text) :
    readQuoted? .plain (quoteChar c ++ rest) = (readQuoted? .plain rest).map (withFront c) := by
  unfold quoteChar
  split
  case h_7 noQuote noBackslash _ _ _ _ =>
    split
    · have valid : c.toNat.isValidChar := c.valid
      rw [List.append_assoc, List.append_assoc]
      show readQuoted? .opened (hexDigits c.toNat ++ '\x7d' :: rest) = _
      rw [readQuoted?_hexDigits, readQuoted?, if_pos rfl, if_pos valid, Char.ofNat_toNat]
    · rw [List.singleton_append, readQuoted?, if_neg noQuote, if_neg noBackslash]
  all_goals rfl

theorem lineFeed_not_mem_quoteChar (c : Char) : '\n' ∉ quoteChar c := by
  unfold quoteChar
  split
  case h_7 _ _ _ _ notEnd _ =>
    split
    · rw [List.mem_append, List.mem_append]
      rintro ((front | digits) | back)
      · exact absurd front (by decide)
      · exact lineFeed_not_mem_hexDigits _ digits
      · exact absurd back (by decide)
    · rw [List.mem_singleton]
      exact fun same => notEnd same.symm
  all_goals decide

/-! ### Texts -/

/-- **A quoted text is read back**, whatever stands behind it. -/
theorem unquote?_quote (text rest : Text) : unquote? (quote text ++ rest) = some (text, rest) := by
  have body : readQuoted? .plain (text.flatMap quoteChar ++ '"' :: rest) = some (text, rest) := by
    induction text with
    | nil => rfl
    | cons c text previous =>
      rw [List.flatMap_cons, List.append_assoc, readQuoted?_quoteChar, previous]
      rfl
  rw [quote, List.cons_append, List.cons_append, List.append_assoc, List.singleton_append]
  exact body

example : unquote? "\"a\\u\x7b301\x7d\" b".toList = some (['a', '\u0301'], " b".toList) := by
  decide

/-- **A quoted text stands on one line.** -/
theorem lineFeed_not_mem_quote (text : Text) : '\n' ∉ quote text := by
  rw [quote, List.cons_append, List.mem_cons, List.mem_append, List.mem_flatMap]
  rintro (opening | ⟨c, _, inside⟩ | closing)
  · exact absurd opening (by decide)
  · exact lineFeed_not_mem_quoteChar c inside
  · exact absurd closing (by decide)

end RSource.Text
