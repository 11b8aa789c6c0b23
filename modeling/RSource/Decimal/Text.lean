/-
**Decimals in writing.**

`Style` says how a decimal is written: whether a whole number shows a fraction, and from which sizes
on an exponent is used. `readNumber?` reads a decimal back.
-/

import RSource.Decimal.Shortest
import RSource.Text.Bytes

namespace RSource.Decimal

/-- The choices in writing a decimal. -/
structure Style where
  /-- Whether a whole number ends in `.0`. -/
  showsFraction : Bool
  /-- The sizes that are written without an exponent: the number of digits in front of the point is
  above the first and at most the second. Without bounds no exponent is ever used. -/
  positional : Option (Int × Int)

/-- Numbers as they are shown: never an exponent, no needless fraction. -/
def plain : Style := ⟨false, none⟩

/-- Numbers as they are shown in a dump of a value: always a fraction, or an exponent below a ten
thousandth and from ten to the sixteenth on. -/
def dumped : Style := ⟨true, some (-4, 16)⟩

def digitsOf (number : Nat) : Text := Nat.toDigits 10 number

/-- A decimal without trailing zeros in its digits, in at most `bound` steps. -/
def reduced : (bound : Nat) → Decimal → Decimal
  | 0, decimal => decimal
  | bound + 1, decimal =>
    if decimal.digits ≠ 0 ∧ decimal.digits % 10 = 0 then
      reduced bound ⟨decimal.digits / 10, decimal.exponent + 1⟩
    else decimal

/-- A decimal with its point and its zeros. -/
def writePositional (showsFraction : Bool) (decimal : Decimal) : Text :=
  let digits := digitsOf decimal.digits
  if 0 ≤ decimal.exponent then
    digits ++ List.replicate decimal.exponent.toNat '0'
      ++ (if showsFraction then ['.', '0'] else [])
  else
    let places := (-decimal.exponent).toNat
    let padded := List.replicate (places + 1 - digits.length) '0' ++ digits
    padded.take (padded.length - places) ++ '.' :: padded.drop (padded.length - places)

/-- A decimal with one digit in front of its point and an exponent. -/
def writeScientific (decimal : Decimal) : Text :=
  let digits := digitsOf decimal.digits
  let exponent := decimal.exponent + digits.length - 1
  let fraction := if digits.length ≤ 1 then [] else '.' :: digits.drop 1
  let sign := if exponent < 0 then ['-'] else []
  digits.take 1 ++ fraction ++ 'e' :: sign ++ digitsOf exponent.natAbs

def Style.writePositive (style : Style) (decimal : Decimal) : Text :=
  let reduced := reduced 20 decimal
  let size := reduced.exponent + (digitsOf reduced.digits).length
  match style.positional with
  | none => writePositional style.showsFraction reduced
  | some (low, high) =>
    if low < size ∧ size ≤ high then writePositional style.showsFraction reduced
    else writeScientific reduced

/-- A double in a style. -/
def Style.write (style : Style) (number : Float) : Text :=
  if number.isNaN then ['N', 'a', 'N']
  else
    let bits := number.toBits
    let sign := if Nat.pow 2 63 ≤ bits.toNat then ['-'] else []
    if number.isInf then sign ++ ['i', 'n', 'f']
    else
      let value := Binary.ofBits bits
      if value.significand = 0 then sign ++ '0' :: (if style.showsFraction then ['.', '0'] else [])
      else sign ++ ((value.shortest?).map style.writePositive).getD []

/-! ### Reading -/

def isDigit (c : Char) : Bool := '0' ≤ c && c ≤ '9'

/-- The number that decimal digits stand for. -/
def valueOf (digits : Text) : Nat :=
  digits.foldl (fun total c => 10 * total + (c.toNat - '0'.toNat)) 0

/-- The number that a text of one digit or more stands for. -/
def readNat? (text : Text) : Option Nat :=
  if !text.isEmpty && text.all isDigit then some (valueOf text) else none

/-- A number that fits into 64 bits, with a plus sign or without. -/
def readWord? (text : Text) : Option Nat :=
  let digits := match text with
    | '+' :: rest => rest
    | _ => text
  (readNat? digits).filter (· < Nat.pow 2 64)

/-- A whole number with a sign or without. -/
def readInt? (text : Text) : Option Int :=
  match text with
  | '-' :: digits => (readNat? digits).map fun number => -(number : Int)
  | '+' :: digits => (readNat? digits).map Int.ofNat
  | digits => (readNat? digits).map Int.ofNat

/-- Digits with a point or without, and an exponent or none: the digits as one number, and the power
of ten to multiply it with. -/
def readUnsigned? (text : Text) : Option (Nat × Int) := do
  let whole := text.takeWhile isDigit
  let rest := text.dropWhile isDigit
  let (fraction, rest) := match rest with
    | '.' :: more => (more.takeWhile isDigit, more.dropWhile isDigit)
    | _ => ([], rest)
  if whole.isEmpty && fraction.isEmpty then none
  let exponent ← match rest with
    | [] => some 0
    | mark :: more => if mark == 'e' || mark == 'E' then readInt? more else none
  return (valueOf (whole ++ fraction), exponent - fraction.length)

/-- The double nearest to `digits * 10 ^ exponent`. -/
def nearest (digits : Nat) (exponent : Int) : Float :=
  if digits = 0 then 0
  else if 400 < exponent then 1 / 0
  else if exponent + (digitsOf digits).length < -400 then 0
  else if 0 ≤ exponent then Float.ofScientific digits false exponent.toNat
  else Float.ofScientific digits true (-exponent).toNat

/-- A double without its sign: a decimal or the name of a special value. -/
def readMagnitude? (text : Text) : Option Float :=
  let word := text.map Char.toLower
  if word == "nan".toList then some (0 / 0)
  else if word == "inf".toList || word == "infinity".toList then some (1 / 0)
  else (readUnsigned? text).map fun (digits, exponent) => nearest digits exponent

/-- A double, with a sign or without. -/
def readNumber? (text : Text) : Option Float :=
  match text with
  | '-' :: rest => (readMagnitude? rest).map (- ·)
  | '+' :: rest => readMagnitude? rest
  | rest => readMagnitude? rest

end RSource.Decimal
