/-
**The problems of a tree, part by part.**
-/

import RSource.Proofs.Grammar.Derivation
import RSource.Proofs.Tree.Subtrees

namespace RSource

/-- Whether nothing is wrong with a part, or with what is below it. -/
def Part.IsClean (part : Part) : Prop := Tree.partProblems part = []

namespace Tree

@[simp] theorem partsProblems_nil : partsProblems [] = [] := rfl

@[simp] theorem partsProblems_child (role : Role) (tree : Tree) (rest : List Part) :
    partsProblems (.child role tree :: rest) = tree.problems ++ partsProblems rest := rfl

@[simp] theorem partsProblems_problem (found : Problem) (skipped : List Lexeme)
    (rest : List Part) :
    partsProblems (.problem found skipped :: rest) = found :: partsProblems rest := rfl

@[simp] theorem partsProblems_append (left right : List Part) :
    partsProblems (left ++ right) = partsProblems left ++ partsProblems right := by
  induction left with
  | nil => rfl
  | cons part rest previous => simp [partsProblems, previous]

@[simp] theorem problems_leaf (lexeme : Lexeme) : (leaf lexeme).problems = [] := rfl

@[simp] theorem problems_cut (lexeme : Lexeme) (skipped : List Lexeme) :
    (cut lexeme skipped).problems = [⟨.nestingTooDeep, lexeme.token⟩] := rfl

@[simp] theorem problems_node (form : Form) (span : Span) (parts : List Part) :
    (node form span parts).problems = partsProblems parts := rfl

@[simp] theorem problems_ofParts (form : Form) (parts : List Part) :
    (ofParts form parts).problems = partsProblems parts := rfl

@[simp] theorem problems_leafAt (mode : Mode) (cursor : Cursor Lexeme) :
    (Grammar.leafAt mode cursor).problems = [] := rfl

@[simp] theorem problems_listOf (anchor : Nat) (items : List Part) :
    (Grammar.listOf anchor items).problems = partsProblems items := rfl

theorem problems_of_child {parts : List Part} {role : Role} {tree : Tree}
    (clean : partsProblems parts = []) (member : .child role tree ∈ parts) :
    tree.problems = [] := by
  rw [partsProblems_eq_flatMap, List.flatMap_eq_nil_iff] at clean
  exact clean _ member

/-- In a tree without problems no node has any. -/
theorem IsWithin.problems {node tree : Tree} (within : node.IsWithin tree)
    (clean : tree.problems = []) : node.problems = [] := by
  induction within with
  | here => exact clean
  | inside member _ previous => exact previous (problems_of_child clean member)

end Tree

namespace Part

@[simp] theorem not_isClean_problem (found : Problem) (skipped : List Lexeme) :
    ¬ (problem found skipped).IsClean := List.cons_ne_nil _ _

@[simp] theorem not_isClean_cut (role : Role) (lexeme : Lexeme) (skipped : List Lexeme) :
    ¬ (child role (.cut lexeme skipped)).IsClean := List.cons_ne_nil _ _

/-- The parts of a node with which nothing is wrong. -/
theorem IsClean.below {role : Role} {form : Form} {span : Span} {parts : List Part}
    (clean : ∀ part ∈ [child role (.node form span parts)], part.IsClean) :
    ∀ part ∈ parts, part.IsClean := by
  have none : Tree.partsProblems parts = [] := clean _ List.mem_cons_self
  rwa [Tree.partsProblems_eq_flatMap, List.flatMap_eq_nil_iff] at none

end Part

end RSource
