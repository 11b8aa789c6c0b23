/-
**The leaves of a tree, part by part.**

The leaves of a node are those of its parts, one part behind the other, and they are among its
tokens in their order (`leaves_sublist`).
-/

import RSource.Proofs.Grammar.Consumption
import RSource.Proofs.Tree.Subtrees

namespace RSource

namespace Tree

@[simp] theorem partsLeaves_nil : partsLeaves [] = [] := rfl

@[simp] theorem partsLeaves_child (role : Role) (tree : Tree) (rest : List Part) :
    partsLeaves (.child role tree :: rest) = tree.leaves ++ partsLeaves rest := rfl

@[simp] theorem partsLeaves_problem (found : Problem) (skipped : List Lexeme) (rest : List Part) :
    partsLeaves (.problem found skipped :: rest) = partsLeaves rest := rfl

@[simp] theorem partsLeaves_append (left right : List Part) :
    partsLeaves (left ++ right) = partsLeaves left ++ partsLeaves right := by
  simp [partsLeaves_eq_flatMap]

@[simp] theorem leaves_leaf (lexeme : Lexeme) : (leaf lexeme).leaves = [lexeme] := rfl

@[simp] theorem leaves_node (form : Form) (span : Span) (parts : List Part) :
    (node form span parts).leaves = partsLeaves parts := rfl

@[simp] theorem leaves_ofParts (form : Form) (parts : List Part) :
    (ofParts form parts).leaves = partsLeaves parts := rfl

mutual

theorem leaves_sublist (tree : Tree) : tree.leaves.Sublist tree.tokens := by
  cases tree with
  | leaf lexeme => exact .refl _
  | cut lexeme skipped => exact (List.nil_sublist skipped).cons_cons lexeme
  | node form span parts => exact partsLeaves_sublist parts

theorem partLeaves_sublist (part : Part) : (partLeaves part).Sublist (partTokens part) := by
  cases part with
  | child role tree => exact leaves_sublist tree
  | problem found skipped => exact List.nil_sublist _

theorem partsLeaves_sublist (parts : List Part) :
    (partsLeaves parts).Sublist (partsTokens parts) := by
  cases parts with
  | nil => exact .refl _
  | cons part rest => exact (partLeaves_sublist part).append (partsLeaves_sublist rest)

end

theorem leaves_sublist_of_child {parts : List Part} {role : Role} {tree : Tree}
    (member : .child role tree ∈ parts) : tree.leaves.Sublist (partsLeaves parts) := by
  obtain ⟨before, behind, rfl⟩ := List.append_of_mem member
  rw [partsLeaves_append, partsLeaves_child]
  exact (List.sublist_append_left _ _).trans (List.sublist_append_right _ _)

theorem IsWithin.leaves_sublist {node tree : Tree} (within : node.IsWithin tree) :
    node.leaves.Sublist tree.leaves := by
  induction within with
  | here => exact .refl _
  | inside member _ previous => exact previous.trans (leaves_sublist_of_child member)

end Tree

end RSource
