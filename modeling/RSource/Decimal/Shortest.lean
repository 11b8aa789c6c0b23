/-
**The shortest decimal that reads back.**

A finite double is a whole number times a power of two. The reals that round to it form an
interval, whose ends count when that whole number is even. Among the decimals in the interval
`shortest?` looks for one with the fewest digits and, of those, for the nearest; of two equally
near it takes the greater.
-/

namespace RSource

/-- The value `digits * 10 ^ exponent`. -/
structure Decimal where
  digits : Nat
  exponent : Int
  deriving Repr, DecidableEq

namespace Decimal

/-- The value `significand * 2 ^ exponent`, with the least significand of its precision marked. -/
structure Binary where
  significand : Nat
  exponent : Int
  /-- Whether the gap below the value is half as wide as the gap above. -/
  narrowBelow : Bool
  deriving Repr, DecidableEq

/-- The magnitude of a finite double, from its bits. -/
def Binary.ofBits (bits : UInt64) : Binary :=
  let fraction : Nat := bits.toNat % Nat.pow 2 52
  let field : Nat := bits.toNat / Nat.pow 2 52 % Nat.pow 2 11
  if field = 0 then ⟨fraction, -1074, false⟩
  else ⟨Nat.pow 2 52 + fraction, (field : Int) - 1075, fraction == 0 && field != 1⟩

/-- A positive fraction of two whole numbers. -/
structure Ratio where
  numerator : Nat
  denominator : Nat
  deriving Repr, DecidableEq

/-- The ratio `whole * 2 ^ twos * 10 ^ tens`. -/
def Ratio.scaled (whole : Nat) (twos tens : Int) : Ratio :=
  ⟨whole * Nat.pow 2 twos.toNat * Nat.pow 10 tens.toNat,
    Nat.pow 2 (-twos).toNat * Nat.pow 10 (-tens).toNat⟩

def Ratio.lt (left right : Ratio) : Bool :=
  left.numerator * right.denominator < right.numerator * left.denominator

def Ratio.le (left right : Ratio) : Bool :=
  left.numerator * right.denominator ≤ right.numerator * left.denominator

/-- Whether a decimal lies in the interval of the reals that round to the value. -/
def Binary.readsBack (value : Binary) (decimal : Decimal) : Bool :=
  let whole := Ratio.scaled decimal.digits 0 decimal.exponent
  let below :=
    if value.narrowBelow then Ratio.scaled (4 * value.significand - 1) (value.exponent - 2) 0
    else Ratio.scaled (2 * value.significand - 1) (value.exponent - 1) 0
  let above := Ratio.scaled (2 * value.significand + 1) (value.exponent - 1) 0
  if value.significand % 2 = 0 then below.le whole && whole.le above
  else below.lt whole && whole.lt above

/-- The number of decimal digits in front of the point of a value of at least one, or minus the
number of zeros behind it; at most `bound` steps are taken. -/
def Binary.magnitude (value : Binary) : (bound : Nat) → (guess : Int) → Int
  | 0, guess => guess
  | bound + 1, guess =>
    let here := Ratio.scaled value.significand value.exponent (-guess)
    if here.denominator ≤ here.numerator then value.magnitude bound (guess + 1)
    else if 10 * here.numerator < here.denominator then value.magnitude bound (guess - 1)
    else guess

/-- The decimal of the grid of `count` digits that reads back to the value and is nearest to it. -/
def Binary.onGrid? (value : Binary) (top : Int) (count : Nat) : Option Decimal :=
  let exponent := top - count
  let here := Ratio.scaled value.significand value.exponent (-exponent)
  let floor := here.numerator / here.denominator
  let low : Decimal := ⟨floor, exponent⟩
  let high : Decimal := ⟨floor + 1, exponent⟩
  match value.readsBack low, value.readsBack high with
  | true, true =>
    if 2 * here.numerator < (2 * floor + 1) * here.denominator then some low else some high
  | true, false => some low
  | false, true => some high
  | false, false => none

/-- The shortest decimal that reads back to a positive value. -/
def Binary.shortest? (value : Binary) : Option Decimal :=
  let top := value.magnitude 800 0
  (List.range 17).findSome? fun place => value.onGrid? top (place + 1)

end Decimal

end RSource
