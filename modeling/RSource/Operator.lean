/-
**The operators of R.**

Each operator has a fixed precedence, higher binding tighter, and a fixed association. One text can
name two operators: which one it is depends on whether it stands before its operand or between two.
-/

import RSource.Text.Bytes

namespace RSource

/-- To which side a chain of one precedence groups. -/
inductive Association where
  | left
  | right
  deriving Repr, DecidableEq, Inhabited

def Association.name : Association → String
  | left => "Left"
  | right => "Right"

inductive Operator where
  /-- Between two operands, `?`. -/
  | help
  /-- Before its operand, `?`. -/
  | unaryHelp
  | equalsAssign
  | leftAssign
  | rightAssign
  /-- Between two operands, `~`. -/
  | formula
  /-- Before its operand, `~`. -/
  | unaryFormula
  | or
  | orOr
  | and
  | andAnd
  | not
  | equal
  | notEqual
  | less
  | greater
  | lessOrEqual
  | greaterOrEqual
  | add
  | subtract
  | multiply
  | divide
  | modulo
  | integerDivide
  /-- Any other operator between percent signs. -/
  | special
  | pipe
  | sequence
  | unaryMinus
  | unaryPlus
  | exponent
  | listIndex
  | slotAccess
  | namespaceAccess
  deriving Repr, DecidableEq, Inhabited

namespace Operator

def name : Operator → String
  | help => "Help"
  | unaryHelp => "UnaryHelp"
  | equalsAssign => "EqualsAssign"
  | leftAssign => "LeftAssign"
  | rightAssign => "RightAssign"
  | formula => "Formula"
  | unaryFormula => "UnaryFormula"
  | or => "Or"
  | orOr => "OrOr"
  | and => "And"
  | andAnd => "AndAnd"
  | not => "Not"
  | equal => "Equal"
  | notEqual => "NotEqual"
  | less => "Less"
  | greater => "Greater"
  | lessOrEqual => "LessOrEqual"
  | greaterOrEqual => "GreaterOrEqual"
  | add => "Add"
  | subtract => "Subtract"
  | multiply => "Multiply"
  | divide => "Divide"
  | modulo => "Modulo"
  | integerDivide => "IntegerDivide"
  | special => "Special"
  | pipe => "Pipe"
  | sequence => "Sequence"
  | unaryMinus => "UnaryMinus"
  | unaryPlus => "UnaryPlus"
  | exponent => "Exponent"
  | listIndex => "ListIndex"
  | slotAccess => "SlotAccess"
  | namespaceAccess => "Namespace"

def precedence : Operator → Nat
  | help | unaryHelp => 10
  | equalsAssign => 20
  | leftAssign => 30
  | rightAssign => 40
  | formula | unaryFormula => 50
  | or | orOr => 60
  | and | andAnd => 70
  | not => 80
  | equal | notEqual | less | greater | lessOrEqual | greaterOrEqual => 90
  | add | subtract => 100
  | multiply | divide => 110
  | modulo | integerDivide | special | pipe => 120
  | sequence => 130
  | unaryMinus | unaryPlus => 140
  | exponent => 150
  | listIndex | slotAccess => 160
  | namespaceAccess => 170

def association : Operator → Association
  | equalsAssign | leftAssign | unaryMinus | unaryPlus | exponent => .right
  | _ => .left

/-- The operators with one operand, which stands after them. -/
def isUnary : Operator → Bool
  | unaryHelp | unaryFormula | not | unaryMinus | unaryPlus => true
  | _ => false

/-- The operators whose right side is a member's name and not an expression. -/
def isAccessor : Operator → Bool
  | listIndex | slotAccess | namespaceAccess => true
  | _ => false

/-- The least precedence of an infix operator on the right side: above its own where chains group to
the left, its own where they group to the right. -/
def rightMinimum (operator : Operator) : Nat :=
  match operator.association with
  | .left => operator.precedence + 1
  | .right => operator.precedence

/-- The operators between two operands, by their texts. -/
def infixTexts : List (Text × Operator) :=
  [ (['?'], help), (['='], equalsAssign),
    (['<', '-'], leftAssign), (['<', '<', '-'], leftAssign),
    (['-', '>'], rightAssign), (['-', '>', '>'], rightAssign),
    (['~'], formula), (['|'], or), (['|', '|'], orOr), (['&'], and), (['&', '&'], andAnd),
    (['=', '='], equal), (['!', '='], notEqual), (['<'], less), (['>'], greater),
    (['<', '='], lessOrEqual), (['>', '='], greaterOrEqual),
    (['+'], add), (['-'], subtract), (['*'], multiply), (['/'], divide),
    (['%', '%'], modulo), (['%', '/', '%'], integerDivide),
    (['|', '>'], pipe), ([':'], sequence),
    (['^'], exponent), (['*', '*'], exponent),
    (['$'], listIndex), (['@'], slotAccess),
    ([':', ':'], namespaceAccess), ([':', ':', ':'], namespaceAccess) ]

/-- Two percent signs with anything between them. -/
def isSpecialText (text : Text) : Bool :=
  2 ≤ text.length && text.head? == some '%' && text.getLast? == some '%'

/-- The operator that a text names between two operands. -/
def ofInfixText? (text : Text) : Option Operator :=
  match infixTexts.lookup text with
  | some operator => some operator
  | none => if isSpecialText text then some special else none

/-- The operators before their operand, by their texts. -/
def leadingTexts : List (Text × Operator) :=
  [ (['-'], unaryMinus), (['+'], unaryPlus), (['!'], not), (['~'], unaryFormula),
    (['?'], unaryHelp) ]

/-- The operator that a text names before its operand. -/
def ofLeadingText? (text : Text) : Option Operator := leadingTexts.lookup text

end Operator

end RSource
