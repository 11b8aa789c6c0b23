/-
**Trees below a tree.**

`node.IsWithin tree` says that `node` is the tree or lies below it, and `tree.All` that a property
holds of every such node. A property of all nodes is shown part by part (`all_node_iff`).
-/

import RSource.Tree

namespace RSource

namespace Tree

/-- `node` is a tree or lies below it. -/
inductive IsWithin (node : Tree) : Tree → Prop where
  | here : IsWithin node node
  | inside {form : Form} {span : Span} {parts : List Part} {role : Role} {tree : Tree} :
      .child role tree ∈ parts → IsWithin node tree → IsWithin node (.node form span parts)

theorem IsWithin.trans {first second third : Tree} (inner : IsWithin first second)
    (outer : IsWithin second third) : IsWithin first third := by
  induction outer with
  | here => exact inner
  | inside member _ previous => exact .inside member previous

/-- A property holds of a tree and of everything below it. -/
def All (property : Tree → Prop) (tree : Tree) : Prop := ∀ node, IsWithin node tree → property node

end Tree

/-- A property holds of everything in a part. -/
def Part.All (property : Tree → Prop) : Part → Prop
  | .child _ tree => tree.All property
  | .problem _ _ => True

namespace Tree

variable {property : Tree → Prop}

theorem IsWithin.all {node tree : Tree} (within : node.IsWithin tree) (holds : tree.All property) :
    node.All property := fun _ inner => holds _ (inner.trans within)

@[simp] theorem partAll_child (role : Role) (tree : Tree) :
    (Part.child role tree).All property ↔ tree.All property := Iff.rfl

@[simp] theorem partAll_problem (found : Problem) (skipped : List Lexeme) :
    (Part.problem found skipped).All property ↔ True := Iff.rfl

@[simp] theorem all_leaf_iff (lexeme : Lexeme) :
    (leaf lexeme).All property ↔ property (leaf lexeme) := by
  refine ⟨fun holds => holds _ .here, fun holds node within => ?_⟩
  cases within
  exact holds

@[simp] theorem all_cut_iff (lexeme : Lexeme) (skipped : List Lexeme) :
    (cut lexeme skipped).All property ↔ property (cut lexeme skipped) := by
  refine ⟨fun holds => holds _ .here, fun holds node within => ?_⟩
  cases within
  exact holds

theorem all_node_iff (form : Form) (span : Span) (parts : List Part) :
    (node form span parts).All property
      ↔ property (node form span parts) ∧ ∀ part ∈ parts, part.All property := by
  constructor
  · refine fun holds => ⟨holds _ .here, fun part member => ?_⟩
    cases part with
    | child role tree => exact fun node within => holds node (.inside member within)
    | problem found skipped => trivial
  · rintro ⟨own, others⟩ node within
    cases within with
    | here => exact own
    | inside member inner => exact others _ member node inner

theorem all_child {form : Form} {span : Span} {parts : List Part} {role : Role} {tree : Tree}
    (holds : (node form span parts).All property) (member : .child role tree ∈ parts) :
    tree.All property := ((all_node_iff _ _ _).mp holds).2 _ member

theorem all_of_single {role : Role} {tree : Tree}
    (holds : ∀ part ∈ [Part.child role tree], part.All property) : tree.All property :=
  holds _ List.mem_cons_self

theorem all_ofParts_iff (form : Form) (parts : List Part) :
    (ofParts form parts).All property
      ↔ property (ofParts form parts) ∧ ∀ part ∈ parts, part.All property :=
  all_node_iff form _ parts

end Tree

/-- What a property of all nodes implies holds of all nodes. -/
theorem Part.All.imp {property weaker : Tree → Prop} {part : Part} (holds : part.All property)
    (implies : ∀ node, property node → weaker node) : part.All weaker := by
  cases part with
  | child role tree => exact fun node within => implies node (holds node within)
  | problem found skipped => trivial

end RSource
