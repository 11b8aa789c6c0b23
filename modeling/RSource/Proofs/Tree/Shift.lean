/-
**Trees at another place.**

Everything in a tree moves along when its text stands further on: tokens, spans and problems. The
smallest span over moved children is the moved one (`Span.hull?_shift`), so a node over children may
be moved before or after it is built (`Tree.shift_ofParts`).
-/

import RSource.Proofs.Tree.Leaves
import RSource.Proofs.Tree.Problems

namespace RSource

/-- The span `offset` bytes further on. -/
def Span.shift (offset : Nat) (span : Span) : Span := ⟨span.start + offset, span.stop + offset⟩

def Token.shift (offset : Nat) (token : Token) : Token :=
  { token with start := token.start + offset }

def Lexeme.shift (offset : Nat) (lexeme : Lexeme) : Lexeme :=
  { lexeme with start := lexeme.start + offset }

def Problem.shift (offset : Nat) (problem : Problem) : Problem :=
  { problem with token := problem.token.shift offset }

@[simp] theorem Lexeme.kind_shift (offset : Nat) (lexeme : Lexeme) :
    (lexeme.shift offset).kind = lexeme.kind := rfl

@[simp] theorem Lexeme.token_shift (offset : Nat) (lexeme : Lexeme) :
    (lexeme.shift offset).token = lexeme.token.shift offset := rfl

theorem Token.shift_shift (first second : Nat) (token : Token) :
    (token.shift first).shift second = token.shift (first + second) := by
  rw [shift, shift, shift, Nat.add_assoc]

theorem Lexeme.shift_shift (first second : Nat) (lexeme : Lexeme) :
    (lexeme.shift first).shift second = lexeme.shift (first + second) := by
  rw [shift, shift, shift, Nat.add_assoc]

theorem Problem.shift_shift (first second : Nat) (found : Problem) :
    (found.shift first).shift second = found.shift (first + second) := by
  rw [shift, shift, shift, Token.shift_shift]

theorem Lexeme.stop_shift (offset : Nat) (lexeme : Lexeme) :
    (lexeme.shift offset).stop = lexeme.stop + offset := Nat.add_right_comm _ _ _

theorem Lexeme.span_shift (offset : Nat) (lexeme : Lexeme) :
    (lexeme.shift offset).span = lexeme.span.shift offset := by
  rw [span, stop_shift]
  rfl

namespace Span

theorem shift_shift (first second : Nat) (span : Span) :
    (span.shift first).shift second = span.shift (first + second) := by
  rw [shift, shift, shift, Nat.add_assoc, Nat.add_assoc]

theorem union_shift (offset : Nat) (left right : Span) :
    (left.shift offset).union (right.shift offset) = (left.union right).shift offset := by
  simp only [union, shift, Nat.add_min_add_right, Nat.add_max_add_right]

theorem hull?_shift (offset : Nat) (spans : List Span) :
    hull? (spans.map (shift offset)) = (hull? spans).map (shift offset) := by
  cases spans with
  | nil => rfl
  | cons first rest =>
    rw [List.map_cons, hull?, hull?, Option.map_some, List.foldl_map]
    refine congrArg some ?_
    induction rest generalizing first with
    | nil => rfl
    | cons span rest previous => rw [List.foldl_cons, List.foldl_cons, union_shift, previous]

end Span

namespace Tree

mutual

/-- The tree `offset` bytes further on. -/
def shift (offset : Nat) : Tree → Tree
  | leaf lexeme => leaf (lexeme.shift offset)
  | cut lexeme skipped => cut (lexeme.shift offset) (skipped.map (·.shift offset))
  | node form span parts => node form (span.shift offset) (shiftParts offset parts)

def shiftPart (offset : Nat) : Part → Part
  | .child role tree => .child role (shift offset tree)
  | .problem found skipped => .problem (found.shift offset) (skipped.map (·.shift offset))

def shiftParts (offset : Nat) : List Part → List Part
  | [] => []
  | part :: rest => shiftPart offset part :: shiftParts offset rest

end

variable {offset : Nat}

@[simp] theorem shiftParts_nil : shiftParts offset [] = [] := rfl

@[simp] theorem shiftParts_child (role : Role) (tree : Tree) (rest : List Part) :
    shiftParts offset (.child role tree :: rest)
      = .child role (tree.shift offset) :: shiftParts offset rest := rfl

@[simp] theorem shiftParts_problem (found : Problem) (skipped : List Lexeme) (rest : List Part) :
    shiftParts offset (.problem found skipped :: rest)
      = .problem (found.shift offset) (skipped.map (·.shift offset)) ::
        shiftParts offset rest := rfl

theorem shiftParts_eq_map (parts : List Part) :
    shiftParts offset parts = parts.map (shiftPart offset) := by
  induction parts with
  | nil => rfl
  | cons part rest previous => rw [shiftParts, previous, List.map_cons]

@[simp] theorem shiftParts_append (left right : List Part) :
    shiftParts offset (left ++ right) = shiftParts offset left ++ shiftParts offset right := by
  simp only [shiftParts_eq_map, List.map_append]

@[simp] theorem shift_leaf (lexeme : Lexeme) :
    (leaf lexeme).shift offset = leaf (lexeme.shift offset) := rfl

@[simp] theorem shift_cut (lexeme : Lexeme) (skipped : List Lexeme) :
    (cut lexeme skipped).shift offset
      = cut (lexeme.shift offset) (skipped.map (·.shift offset)) := rfl

@[simp] theorem shift_node (form : Form) (span : Span) (parts : List Part) :
    (node form span parts).shift offset = node form (span.shift offset) (shiftParts offset parts) :=
  rfl

theorem span_shift (tree : Tree) : (tree.shift offset).span = tree.span.shift offset := by
  cases tree with
  | leaf lexeme | cut lexeme skipped => exact Lexeme.span_shift offset lexeme
  | node form span parts => rfl

theorem hull?_shiftParts (parts : List Part) :
    Part.hull? (shiftParts offset parts) = (Part.hull? parts).map (Span.shift offset) := by
  rw [Part.hull?, Part.hull?, ← Span.hull?_shift, shiftParts_eq_map, List.filterMap_map,
    List.map_filterMap]
  refine congrArg Span.hull? (List.filterMap_congr fun part _ => ?_)
  cases part with
  | child role tree => exact congrArg some (span_shift tree)
  | problem found skipped => rfl

theorem anyChild_shiftParts (parts : List Part) :
    Part.anyChild (shiftParts offset parts) = Part.anyChild parts := by
  rw [Part.anyChild, Part.anyChild, shiftParts_eq_map, List.any_map]
  refine List.any_congr rfl fun part => ?_
  cases part <;> rfl

/-- A node over at least one child moves with its children. -/
theorem shift_ofParts {form : Form} {parts : List Part} (some : Part.anyChild parts = true) :
    (ofParts form parts).shift offset = ofParts form (shiftParts offset parts) := by
  obtain ⟨part, member, child⟩ := List.any_eq_true.mp some
  obtain ⟨span, found⟩ := Option.isSome_iff_exists.mp child
  have inside : span ∈ parts.filterMap Part.span? := List.mem_filterMap.mpr ⟨part, member, found⟩
  obtain ⟨first, rest, shape⟩ := List.exists_cons_of_ne_nil (List.ne_nil_of_mem inside)
  rw [ofParts, ofParts, hull?_shiftParts, Part.hull?, shape]
  rfl

section Twice

variable (first second : Nat)

theorem map_shift_shift (skipped : List Lexeme) :
    (skipped.map (·.shift first)).map (·.shift second)
      = skipped.map (·.shift (first + second)) := by
  rw [List.map_map]
  exact List.map_congr_left fun lexeme _ => lexeme.shift_shift first second

mutual

theorem shift_shift (tree : Tree) :
    (tree.shift first).shift second = tree.shift (first + second) := by
  cases tree with
  | leaf lexeme => exact congrArg leaf (lexeme.shift_shift first second)
  | cut lexeme skipped =>
    rw [shift_cut, shift_cut, shift_cut, lexeme.shift_shift, map_shift_shift]
  | node form span parts =>
    rw [shift_node, shift_node, shift_node, shiftParts_shiftParts parts, Span.shift_shift]

theorem shiftPart_shiftPart (part : Part) :
    shiftPart second (shiftPart first part) = shiftPart (first + second) part := by
  cases part with
  | child role tree => exact congrArg (Part.child role) (shift_shift tree)
  | problem found skipped =>
    exact congrArg₂ Part.problem (found.shift_shift first second)
      (map_shift_shift first second skipped)

theorem shiftParts_shiftParts (parts : List Part) :
    shiftParts second (shiftParts first parts) = shiftParts (first + second) parts := by
  cases parts with
  | nil => rfl
  | cons part rest =>
    exact congrArg₂ List.cons (shiftPart_shiftPart part) (shiftParts_shiftParts rest)

end

end Twice

mutual

theorem problems_shift (tree : Tree) :
    (tree.shift offset).problems = tree.problems.map (·.shift offset) := by
  cases tree with
  | leaf lexeme => rfl
  | cut lexeme skipped => rfl
  | node form span parts => exact partsProblems_shiftParts parts

theorem partProblems_shiftPart (part : Part) :
    partProblems (shiftPart offset part) = (partProblems part).map (·.shift offset) := by
  cases part with
  | child role tree => exact problems_shift tree
  | problem found skipped => rfl

theorem partsProblems_shiftParts (parts : List Part) :
    partsProblems (shiftParts offset parts) = (partsProblems parts).map (·.shift offset) := by
  cases parts with
  | nil => rfl
  | cons part rest =>
    rw [shiftParts, partsProblems, partsProblems, List.map_append, partProblems_shiftPart part,
      partsProblems_shiftParts rest]

end

end Tree

end RSource
