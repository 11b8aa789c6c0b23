/-
**Precedence and association of operators.**

`Operator.operandMinimum` is the least precedence of an infix operator in the right operand. Main
statement: `association_eq_of_precedence_eq`, operators of one precedence group to one side.
-/

import RSource.Grammar.Expression

namespace RSource

namespace Operator

/-- The least precedence of an infix operator in the operand on the right. -/
def operandMinimum (operator : Operator) : Nat :=
  if operator.isUnary then operator.precedence else operator.rightMinimum

/-- **Operators of one precedence group to one side.** -/
theorem association_eq_of_precedence_eq {first second : Operator}
    (same : first.precedence = second.precedence) : first.association = second.association := by
  cases first <;> cases second <;> first | rfl | cases same

theorem precedence_le_of_not_isAccessor {operator : Operator}
    (plain : operator.isAccessor = false) : operator.precedence ≤ 150 := by
  revert plain
  cases operator <;> decide

theorem le_precedence_of_isAccessor {accessor : Operator} (member : accessor.isAccessor = true) :
    160 ≤ accessor.precedence := by
  revert member
  cases accessor <;> decide

/-- An accessor binds tighter than any other operator. -/
theorem precedence_lt_of_isAccessor {operator accessor : Operator}
    (plain : operator.isAccessor = false) (member : accessor.isAccessor = true) :
    operator.precedence < accessor.precedence := by
  have upper := precedence_le_of_not_isAccessor plain
  have lower := le_precedence_of_isAccessor member
  omega

theorem rightMinimum_of_left {operator : Operator} (left : operator.association = .left) :
    operator.rightMinimum = operator.precedence + 1 := by
  rw [rightMinimum, left]

theorem rightMinimum_of_right {operator : Operator} (right : operator.association = .right) :
    operator.rightMinimum = operator.precedence := by
  rw [rightMinimum, right]

/-- Which operators stand between two operands. -/
theorem isUnary_of_ofInfixText? {text : Text} {operator : Operator}
    (found : ofInfixText? text = some operator) : operator.isUnary = false := by
  unfold ofInfixText? at found
  split at found
  · rename_i other listed
    cases found
    obtain ⟨before, after, shape, absent⟩ := List.lookup_eq_some_iff.mp listed
    have member : (text, operator) ∈ infixTexts := by simp [shape]
    have all : ∀ entry ∈ infixTexts, entry.2.isUnary = false := by decide
    exact all _ member
  · split at found
    · cases found
      rfl
    · cases found

/-- Which operators stand before their operand. -/
theorem isUnary_of_ofLeadingText? {text : Text} {operator : Operator}
    (found : ofLeadingText? text = some operator) : operator.isUnary = true := by
  obtain ⟨before, after, shape, absent⟩ := List.lookup_eq_some_iff.mp found
  have member : (text, operator) ∈ leadingTexts := by simp [shape]
  have all : ∀ entry ∈ leadingTexts, entry.2.isUnary = true := by decide
  exact all _ member

theorem isAccessor_of_isUnary {operator : Operator} (unary : operator.isUnary = true) :
    operator.isAccessor = false := by
  cases operator <;> first | rfl | cases unary

end Operator

namespace Grammar

theorem isUnary_of_infixOf? {lexeme : Lexeme} {operator : Operator}
    (found : infixOf? lexeme = some operator) : operator.isUnary = false := by
  unfold infixOf? at found
  split at found
  · exact Operator.isUnary_of_ofInfixText? found
  · cases found

theorem isUnary_of_leadingOf? {lexeme : Lexeme} {operator : Operator}
    (found : leadingOf? lexeme = some operator) : operator.isUnary = true := by
  unfold leadingOf? at found
  split at found
  · exact Operator.isUnary_of_ofLeadingText? found
  · cases found

theorem isAccessor_of_leadingOf? {lexeme : Lexeme} {operator : Operator}
    (found : leadingOf? lexeme = some operator) : operator.isAccessor = false :=
  Operator.isAccessor_of_isUnary (isUnary_of_leadingOf? found)

end Grammar

end RSource
