/-
**An operator before its operand takes the whole chain of its level.**

The operand of an operator that stands before it is read with the operator's own precedence as the
least one, and not with the next higher one as behind an infix operator that groups to the left. So
where both forms share a level (`~` and `?`), the operand takes the infix operators of this level
too: `~ a ~ b` is `~ (a ~ b)`. The operators of an operand that nothing sets apart are its chain
(`InChain`), and the loosest of them is at the top (`InChain.precedence_le`). Main statement:
`Reading.leading_folds_right`.
-/

import RSource.Proofs.Grammar.Built
import RSource.Proofs.Grouping

namespace RSource

/-- Whether an operator stands between two operands and is no accessor. -/
def Operator.isInfix (operator : Operator) : Bool := !operator.isUnary && !operator.isAccessor

theorem Operator.isInfix_iff {operator : Operator} :
    operator.isInfix = true ↔ operator.isUnary = false ∧ operator.isAccessor = false := by
  simp [isInfix]

namespace Tree

/-- A tree applies an infix operator of a precedence. -/
def AppliesInfix (precedence : Nat) (tree : Tree) : Prop :=
  ∃ operator span parts, tree = .node (.operator operator) span parts ∧ operator.isInfix = true
    ∧ operator.precedence = precedence

/-- An infix operator at a tree, or in the chain of one of its operands. -/
inductive InChain (operator : Operator) : Tree → Prop where
  | here {span : Span} {parts : List Part} :
      operator.isInfix = true → InChain operator (.node (.operator operator) span parts)
  | left {other : Operator} {span : Span} {parts : List Part} {tree : Tree} :
      other.isInfix = true → .child .left tree ∈ parts → InChain operator tree →
      InChain operator (.node (.operator other) span parts)
  | right {other : Operator} {span : Span} {parts : List Part} {tree : Tree} :
      other.isInfix = true → .child .right tree ∈ parts → InChain operator tree →
      InChain operator (.node (.operator other) span parts)

/-- A tree with a chain has an infix operator at its top. -/
theorem InChain.exists_top {operator : Operator} {tree : Tree} (chain : tree.InChain operator) :
    ∃ top span parts, tree = .node (.operator top) span parts ∧ top.isInfix = true := by
  cases chain with
  | here between => exact ⟨_, _, _, rfl, between⟩
  | left between _ _ | right between _ _ => exact ⟨_, _, _, rfl, between⟩

end Tree

namespace Grammar

/-- An infix operator has an operand on its left. -/
theorem Built.exists_left {items : List Lexeme} {operator : Operator} {span : Span}
    {parts : List Part} (built : Built items (.node (.operator operator) span parts))
    (binary : operator.isUnary = false) : ∃ left, .child .left left ∈ parts := by
  generalize shape : Tree.node (.operator operator) span parts = tree at built
  cases built with
  | operation | access =>
    cases shape
    exact ⟨_, List.mem_cons_self⟩
  | sign _ found _ =>
    cases shape
    rw [isUnary_of_leadingOf? found] at binary
    cases binary
  | @construct own _ _ _ _ _ _ _ _ run =>
    obtain ⟨_, _, rfl⟩ := run.form_of_construct
    cases own <;> cases shape
  | statement _ run | list _ run | block _ run => cases run <;> cases shape
  | _ => cases shape

section Chain

variable {items : List Lexeme} {top : Operator} {span : Span} {parts : List Part}
  (grouped : (Tree.node (.operator top) span parts).All Tree.IsWellGrouped)
  (built : (Tree.node (.operator top) span parts).All (Built items)) (between : top.isInfix = true)
include grouped built between

/-- The chain of an operand is no looser than the operator it belongs to. -/
theorem precedence_le_of_operand {role : Role} {next : Operator} {inner : Span}
    {below : List Part} (side : role = .left ∨ role = .right)
    (member : .child role (.node (.operator next) inner below) ∈ parts)
    (follows : next.isInfix = true) : top.precedence ≤ next.precedence := by
  obtain ⟨binary, plain⟩ := Operator.isInfix_iff.mp between
  obtain ⟨nextBinary, nextPlain⟩ := Operator.isInfix_iff.mp follows
  have own : WellGrouped top parts := grouped _ .here plain
  rcases side with rfl | rfl
  · rcases own.left _ member next .here nextPlain with tighter | ⟨_, same, _⟩
    · exact Nat.le_of_lt tighter
    · exact Nat.le_of_eq same.symm
  · obtain ⟨left, onLeft⟩ := (built _ .here).exists_left binary
    have bound := own.right left onLeft next inner below member nextBinary
    split at bound
    · exact Nat.le_of_lt bound
    · exact bound

/-- **The loosest operator of a chain is at its top.** -/
theorem InChain.precedence_le {operator : Operator}
    (chain : (Tree.node (.operator top) span parts).InChain operator) :
    top.precedence ≤ operator.precedence := by
  generalize shape : Tree.node (.operator top) span parts = tree at chain
  induction chain generalizing top span parts with
  | here _ =>
    cases shape
    exact Nat.le_refl _
  | left _ member below previous =>
    cases shape
    obtain ⟨next, inner, under, rfl, follows⟩ := below.exists_top
    have here := precedence_le_of_operand grouped built between (.inl rfl) member follows
    exact Nat.le_trans here (previous (Tree.all_child grouped member) (Tree.all_child built member)
      follows rfl)
  | right _ member below previous =>
    cases shape
    obtain ⟨next, inner, under, rfl, follows⟩ := below.exists_top
    have here := precedence_le_of_operand grouped built between (.inr rfl) member follows
    exact Nat.le_trans here (previous (Tree.all_child grouped member) (Tree.all_child built member)
      follows rfl)

end Chain

end Grammar

open Grammar

/-- **In a text without problems an operator before its operand takes all infix operators of its
level that follow, and none of them takes it as its left operand.** -/
theorem Reading.leading_folds_right {text : Text} (clean : (read text).problems = [])
    {operator : Operator} (leading : operator.isUnary = true) :
    (∀ span parts right, (Tree.node (.operator operator) span parts).IsWithin (read text).tree →
      .child .right right ∈ parts →
        (right.AppliesInfix operator.precedence
          ↔ ∃ inner, right.InChain inner ∧ inner.precedence = operator.precedence))
    ∧ ∀ other span parts left, (Tree.node (.operator other) span parts).IsWithin (read text).tree →
      other.isInfix = true → .child .left left ∈ parts → left.OnRightSpine operator →
        other.precedence < operator.precedence := by
  have plain := Operator.isAccessor_of_isUnary leading
  have grouped := Reading.all_isWellGrouped clean
  constructor
  · intro span parts right within onRight
    constructor
    · rintro ⟨top, inner, below, rfl, between, same⟩
      exact ⟨top, .here between, same⟩
    · rintro ⟨deep, chain, same⟩
      obtain ⟨top, inner, below, rfl, between⟩ := chain.exists_top
      have here := Tree.all_child (within.all grouped) onRight
      have loosest := InChain.precedence_le here (Tree.all_child (Reading.built within nofun) onRight)
        between chain
      have reached := (grouped _ within plain).operand leading top inner below onRight
        (Operator.isInfix_iff.mp between).1
      rw [same] at loosest
      exact ⟨top, inner, below, rfl, between, Nat.le_antisymm loosest reached⟩
  · intro other span parts left within between onLeft spine
    obtain ⟨_, otherPlain⟩ := Operator.isInfix_iff.mp between
    rcases (grouped _ within otherPlain).left left onLeft operator spine plain with
      looser | ⟨binary, _⟩
    · exact looser
    · rw [leading] at binary
      cases binary

/-- In `~ a ~ b` the operand of the first `~` is `a ~ b`, with the second at the top of its chain. -/
theorem Reading.leading_folds_right_of_formula : ∃ span parts right,
    (Tree.node (.operator .unaryFormula) span parts).IsWithin (read "~ a ~ b".toList).tree
      ∧ .child .right right ∈ parts ∧ ∃ inner, right.InChain inner ∧ inner.precedence = 50 :=
  have node := Tree.IsWithin.inside List.mem_cons_self (.inside List.mem_cons_self .here)
  have onRight := List.mem_cons_of_mem _ List.mem_cons_self
  have clean : (read "~ a ~ b".toList).problems = [] := by decide
  have folds := (Reading.leading_folds_right clean rfl).1 _ _ _ node onRight
  ⟨_, _, _, node, onRight, folds.mp ⟨.formula, _, _, rfl, rfl, rfl⟩⟩

/-- Although both group to the left, the operand of the first `~` in `~ a ~ b` applies the
second. -/
theorem Reading.formula_not_to_left :
    ¬ ∀ (text : Text) (operator inner : Operator) (span lower : Span) (parts below : List Part),
      (read text).problems = [] →
      (Tree.node (.operator operator) span parts).IsWithin (read text).tree →
      operator.isUnary = true → operator.association = .left →
      .child .right (.node (.operator inner) lower below) ∈ parts → inner.isInfix = true →
      inner.precedence ≠ operator.precedence := by
  intro always
  exact always "~ a ~ b".toList .unaryFormula .formula _ _ _ _ (by decide)
    (.inside List.mem_cons_self (.inside List.mem_cons_self .here)) rfl rfl
    (List.mem_cons_of_mem _ List.mem_cons_self) rfl rfl

end RSource
