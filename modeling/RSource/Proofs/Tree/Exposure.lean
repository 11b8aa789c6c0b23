/-
**Leaves outside brackets and braces.**

`Tree.exposed` lists the leaves of a tree that stand in no braced scope and between no brackets of
it, each with the leaves behind it. What stands in a group, in an argument list or in the head of a
construct is between brackets. Such a leaf is the last one of its tree when nothing is behind it
(`leaves_of_mem_exposed`).
-/

import RSource.Proofs.Tree.Leaves

namespace RSource

/-- Whether a child in this role stands between the brackets or braces of its node. -/
def Form.encloses (form : Form) (role : Role) : Bool :=
  match form, role with
  | .scope, _ | .group, .expression | _, .arguments | _, .formals | _, .condition
  | _, .loopVariable | _, .inKeyword | _, .sequence => true
  | _, _ => false

/-- Whether a child in this role is the branch of an `if` that an `else` may follow. -/
def Form.branches (form : Form) (role : Role) : Bool := form == .ifElse && role == .body

/-- A leaf outside brackets and braces. -/
structure Exposure where
  lexeme : Lexeme
  /-- The leaves behind it. -/
  behind : List Lexeme
  /-- Whether it ends the branch of an `if` that an `else` may follow. -/
  endsBranch : Bool
  deriving Repr, DecidableEq

/-- A leaf of a child as one of the node, with more leaves behind the child. -/
def Exposure.within (place : Exposure) (isBranch : Bool) (more : List Lexeme) : Exposure :=
  ⟨place.lexeme, place.behind ++ more, place.endsBranch || isBranch && place.behind.isEmpty⟩

namespace Exposure

@[simp] theorem within_nil (place : Exposure) : place.within false [] = place := by
  simp [within]

@[simp] theorem within_within (place : Exposure) (isBranch : Bool) (more further : List Lexeme) :
    (place.within isBranch more).within false further
      = place.within isBranch (more ++ further) := by
  simp [within]

end Exposure

namespace Tree

mutual

/-- The leaves outside brackets and braces, in order. -/
def exposed : Tree → List Exposure
  | leaf lexeme => [⟨lexeme, [], false⟩]
  | cut lexeme _ => [⟨lexeme, [], false⟩]
  | node form _ parts => partsExposed form parts

def partExposed (form : Form) (more : List Lexeme) : Part → List Exposure
  | .child role tree =>
    if form.encloses role then [] else tree.exposed.map (·.within (form.branches role) more)
  | .problem _ _ => []

def partsExposed (form : Form) : List Part → List Exposure
  | [] => []
  | part :: rest => partExposed form (partsLeaves rest) part ++ partsExposed form rest

end

variable {form : Form} {place : Exposure}

@[simp] theorem exposed_leaf (lexeme : Lexeme) :
    (leaf lexeme).exposed = [⟨lexeme, [], false⟩] := rfl

@[simp] theorem exposed_cut (lexeme : Lexeme) (skipped : List Lexeme) :
    (cut lexeme skipped).exposed = [⟨lexeme, [], false⟩] := rfl

@[simp] theorem exposed_ofParts (form : Form) (parts : List Part) :
    (ofParts form parts).exposed = partsExposed form parts := rfl

@[simp] theorem partsExposed_nil : partsExposed form [] = [] := rfl

@[simp] theorem mem_partExposed_child {more : List Lexeme} {role : Role} {tree : Tree} :
    place ∈ partExposed form more (.child role tree) ↔ form.encloses role = false
      ∧ ∃ inner ∈ tree.exposed, inner.within (form.branches role) more = place := by
  unfold partExposed
  cases form.encloses role <;> simp

@[simp] theorem partExposed_problem (more : List Lexeme) (found : Problem)
    (skipped : List Lexeme) : partExposed form more (.problem found skipped) = [] := rfl

@[simp] theorem partsExposed_cons (part : Part) (rest : List Part) :
    partsExposed form (part :: rest)
      = partExposed form (partsLeaves rest) part ++ partsExposed form rest := rfl

theorem mem_partExposed_append {part : Part} {more further : List Lexeme} :
    place ∈ partExposed form (more ++ further) part
      ↔ ∃ inner ∈ partExposed form more part, inner.within false further = place := by
  cases part with
  | problem => simp
  | child role tree =>
    constructor
    · rw [mem_partExposed_child]
      rintro ⟨goesIn, inner, member, rfl⟩
      exact ⟨_, mem_partExposed_child.mpr ⟨goesIn, inner, member, rfl⟩,
        Exposure.within_within _ _ _ _⟩
    · rintro ⟨inner, member, rfl⟩
      obtain ⟨goesIn, deeper, inside, rfl⟩ := mem_partExposed_child.mp member
      exact mem_partExposed_child.mpr
        ⟨goesIn, deeper, inside, (Exposure.within_within _ _ _ _).symm⟩

/-- **Of two runs of parts, the leaves of the second stand behind those of the first.** -/
@[simp] theorem mem_partsExposed_append {left right : List Part} :
    place ∈ partsExposed form (left ++ right)
      ↔ (∃ inner ∈ partsExposed form left, inner.within false (partsLeaves right) = place)
        ∨ place ∈ partsExposed form right := by
  induction left with
  | nil => simp
  | cons part rest previous =>
    rw [List.cons_append, partsExposed_cons, partsExposed_cons, List.mem_append, previous,
      partsLeaves_append, mem_partExposed_append]
    simp only [List.mem_append, or_and_right, exists_or, or_assoc]

theorem exposed_scope (parts : List Part) : (ofParts .scope parts).exposed = [] := by
  rw [exposed_ofParts]
  induction parts with
  | nil => rfl
  | cons part rest previous =>
    rw [partsExposed_cons, previous, List.append_nil]
    cases part <;> rfl

mutual

/-- **Behind an exposed leaf stand the leaves listed with it.** -/
theorem leaves_of_mem_exposed (tree : Tree) {place : Exposure} (member : place ∈ tree.exposed) :
    ∃ before, tree.leaves = before ++ place.lexeme :: place.behind := by
  cases tree with
  | leaf lexeme =>
    obtain rfl := List.mem_singleton.mp member
    exact ⟨[], rfl⟩
  | cut lexeme skipped =>
    obtain rfl := List.mem_singleton.mp member
    exact ⟨[], rfl⟩
  | node form span parts => exact partsLeaves_of_mem_partsExposed parts form member

theorem partLeaves_of_mem_partExposed (part : Part) (form : Form) (more : List Lexeme)
    {place : Exposure} (member : place ∈ partExposed form more part) :
    ∃ before, partLeaves part ++ more = before ++ place.lexeme :: place.behind := by
  cases part with
  | problem => exact absurd member List.not_mem_nil
  | child role tree =>
    obtain ⟨_, inner, inside, rfl⟩ := mem_partExposed_child.mp member
    obtain ⟨before, shape⟩ := leaves_of_mem_exposed tree inside
    refine ⟨before, ?_⟩
    rw [partLeaves, shape, List.append_assoc, List.cons_append]
    rfl

theorem partsLeaves_of_mem_partsExposed (parts : List Part) (form : Form) {place : Exposure}
    (member : place ∈ partsExposed form parts) :
    ∃ before, partsLeaves parts = before ++ place.lexeme :: place.behind := by
  cases parts with
  | nil => exact absurd member List.not_mem_nil
  | cons part rest =>
    rcases List.mem_append.mp member with here | further
    · exact partLeaves_of_mem_partExposed part form _ here
    · obtain ⟨before, shape⟩ := partsLeaves_of_mem_partsExposed rest form further
      refine ⟨partLeaves part ++ before, ?_⟩
      rw [partsLeaves, shape, List.append_assoc]

end

/-- **An exposed leaf is the last one exactly when nothing is behind it.** -/
theorem getLast?_leaves_iff {tree : Tree} {place : Exposure} (exposed : place ∈ tree.exposed)
    (once : tree.leaves.Nodup) : tree.leaves.getLast? = some place.lexeme ↔ place.behind = [] := by
  obtain ⟨before, shape⟩ := tree.leaves_of_mem_exposed exposed
  rw [shape] at once ⊢
  constructor
  · intro last
    by_contra some
    rw [List.getLast?_append_cons, List.getLast?_cons_of_ne_nil some] at last
    have inBehind : place.lexeme ∈ place.behind := List.mem_of_getLast? last
    have behindOnce : (place.lexeme :: place.behind).Nodup :=
      once.sublist (List.sublist_append_right _ _)
    exact (List.nodup_cons.mp behindOnce).1 inBehind
  · intro nothing
    rw [nothing, List.getLast?_concat]

end Tree

end RSource
