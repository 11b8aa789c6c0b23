/-
**The node found at an offset is the deepest one over it.**

The way down takes the first child over the offset and never turns back. It cannot go wrong:
children lie inside their parent and do not reach into each other, so at most one child is over the
offset (`Reading.eq_of_contains`), and a node over the offset has all nodes above it over the offset
too. Hence every node over the offset is passed on the way down (`Reading.exists_nodeAt_eq`). Main
statement: `Reading.nodeAt_deepest`.
-/

import RSource.Proofs.Checked.Views

namespace RSource

namespace Document

/-- A node and one at or below it, child by child. -/
def IsOver (document : Document) : NodeId → NodeId → Prop :=
  Relation.ReflTransGen fun parent child => document.IsChildOf child parent

/-- The way down ends at or below the node it begins at. -/
theorem isOver_descend (document : Document) (offset bound : Nat) (id : NodeId) :
    document.IsOver id (document.descend offset bound id) := by
  induction bound generalizing id with
  | zero => exact .refl
  | succ bound previous =>
    rw [descend]
    split
    · rename_i child found
      exact .head (List.mem_of_find?_eq_some found) (previous child)
    · exact .refl

/-- The way down ends over the offset, if it begins over it. -/
theorem contains_descend {document : Document} {offset bound : Nat} {id : NodeId}
    (covers : (document.span id).contains offset = true) :
    (document.span (document.descend offset bound id)).contains offset = true := by
  induction bound generalizing id with
  | zero => exact covers
  | succ bound previous =>
    rw [descend]
    split
    · rename_i child found
      have here := List.find?_some found
      exact previous here
    · exact covers

end Document

namespace Reading

open Document

/-! ### Nodes over an offset -/

section Over

variable {text : Text} {offset : Nat}

/-- A node over an offset has its parent over it. -/
theorem contains_parent {child parent : NodeId}
    (listed : (read text).document.IsChildOf child parent)
    (covers : ((read text).document.span child).contains offset = true) :
    ((read text).document.span parent).contains offset = true := by
  obtain ⟨early, late⟩ := Span.contains_iff.mp covers
  obtain ⟨low, high⟩ := nested listed
  exact Span.contains_iff.mpr ⟨Nat.le_trans low early, Nat.lt_of_lt_of_le late high⟩

theorem contains_of_isOver {upper lower : NodeId} (above : (read text).document.IsOver upper lower)
    (covers : ((read text).document.span lower).contains offset = true) :
    ((read text).document.span upper).contains offset = true := by
  induction above with
  | refl => exact covers
  | tail _ listed previous => exact previous (contains_parent listed covers)

/-- **Of the children of a node at most one is over an offset.** -/
theorem eq_of_contains {first second parent : NodeId}
    (listed : (read text).document.IsChildOf first parent)
    (other : (read text).document.IsChildOf second parent)
    (covers : ((read text).document.span first).contains offset = true)
    (also : ((read text).document.span second).contains offset = true) : first = second := by
  have disjoint : ((read text).document.children parent).Pairwise fun left right =>
      ¬(((read text).document.span left).contains offset = true
        ∧ ((read text).document.span right).contains offset = true) := by
    refine (List.pairwise_map.mp (apart (parent_inside listed))).imp fun before both => ?_
    have late := (Span.contains_iff.mp both.1).2
    have early := (Span.contains_iff.mp both.2).1
    exact absurd (Nat.lt_of_lt_of_le late before) (Nat.not_lt.mpr early)
  by_contra differ
  have symmetric : Std.Symm fun left right =>
      ¬(((read text).document.span left).contains offset = true
        ∧ ((read text).document.span right).contains offset = true) :=
    ⟨fun _ _ apart both => apart both.symm⟩
  exact disjoint.forall listed other differ ⟨covers, also⟩

/-- The way down goes on to the child over the offset. -/
theorem find?_children {child parent : NodeId}
    (listed : (read text).document.IsChildOf child parent)
    (covers : ((read text).document.span child).contains offset = true) :
    (((read text).document.children parent).find? fun other =>
      ((read text).document.span other).contains offset) = some child := by
  cases found : ((read text).document.children parent).find? fun other =>
      ((read text).document.span other).contains offset with
  | none => exact absurd covers (List.find?_eq_none.mp found child listed)
  | some other =>
    have here := List.find?_some found
    rw [eq_of_contains (List.mem_of_find?_eq_some found) listed here covers]

/-- **Every node over an offset is passed on the way down**, with enough steps left to go on. -/
theorem exists_nodeAt_eq {id : NodeId} (inside : id < (read text).document.nodes.size)
    (covers : ((read text).document.span id).contains offset = true) :
    ∃ bound ≥ (read text).document.rank id,
      (read text).document.nodeAt offset = (read text).document.descend offset bound id := by
  induction (read text).reached inside with
  | refl => exact ⟨_, rank_le_size inside, rfl⟩
  | tail _ listed previous =>
    obtain ⟨bound, enough, same⟩ :=
      previous (parent_inside listed) (contains_parent listed covers)
    have less := Nat.lt_of_lt_of_le (rank_lt listed) enough
    obtain ⟨bound, rfl⟩ := Nat.exists_eq_succ_of_ne_zero (Nat.ne_zero_of_lt less)
    refine ⟨bound, Nat.le_of_lt_succ less, ?_⟩
    rw [same, descend, find?_children listed covers]

end Over

/-! ### Ways up -/

section Up

variable {reading : Reading} {id node : NodeId}

/-- At or above a node are the node and what is at or above its parent. -/
theorem isOver_iff_of_parent {parent : NodeId} (listed : reading.document.IsChildOf node parent) :
    reading.document.IsOver id node ↔ id = node ∨ reading.document.IsOver id parent := by
  constructor
  · intro above
    cases above with
    | refl => exact .inl rfl
    | tail front last =>
      have same := ((reading.parent?_of_isChildOf listed).symm.trans
        (reading.parent?_of_isChildOf last))
      cases same
      exact .inr front
  · rintro (rfl | above)
    · exact .refl
    · exact .tail above listed

/-- Nothing but the root is at or above the root. -/
theorem isOver_iff_of_root (alone : reading.document.parent? node = none) :
    reading.document.IsOver id node ↔ id = node := by
  constructor
  · intro above
    cases above with
    | refl => rfl
    | tail _ last => cases alone.symm.trans (reading.parent?_of_isChildOf last)
  · rintro rfl
    exact .refl

/-- A way up that may go far enough takes every node above. -/
theorem mem_ancestorsWithin_iff {bound : Nat} (inside : node < reading.document.nodes.size)
    (enough : reading.document.nodes.size < reading.document.rank node + bound) :
    id ∈ reading.document.ancestorsWithin bound node ↔ reading.document.IsOver id node := by
  induction bound generalizing node with
  | zero => exact absurd (rank_le_size inside) (Nat.not_le.mpr enough)
  | succ bound previous =>
    rw [ancestorsWithin, List.mem_cons]
    cases told : reading.document.parent? node with
    | none => rw [isOver_iff_of_root told, or_iff_left List.not_mem_nil]
    | some parent =>
      have listed := (reading.parent?_iff node parent).mp told
      have higher := rank_lt listed
      rw [isOver_iff_of_parent listed, previous (parent_inside listed) (by omega)]

/-- A way up that may go far enough ends at the root. -/
theorem getLast?_ancestorsWithin {bound : Nat} (inside : node < reading.document.nodes.size)
    (enough : reading.document.nodes.size < reading.document.rank node + bound) :
    (reading.document.ancestorsWithin bound node).getLast? = some root := by
  induction bound generalizing node with
  | zero => exact absurd (rank_le_size inside) (Nat.not_le.mpr enough)
  | succ bound previous =>
    rw [ancestorsWithin]
    cases told : reading.document.parent? node with
    | none =>
      obtain top | behind := Nat.eq_zero_or_pos node
      · rw [top]
        rfl
      · obtain ⟨parent, listed⟩ := reading.exists_parent behind inside
        cases told.symm.trans (reading.parent?_of_isChildOf listed)
    | some parent =>
      have listed := (reading.parent?_iff node parent).mp told
      have higher := rank_lt listed
      have ends := previous (parent_inside listed) (by omega)
      rw [List.getLast?_cons, ends]
      rfl

theorem size_lt_rank_add (reading : Reading) (id : NodeId) :
    reading.document.nodes.size < reading.document.rank id + reading.document.nodes.size :=
  Nat.lt_add_of_pos_left (reading.rank_pos id)

/-- **The path of a node holds the nodes at and above it.** -/
theorem mem_path_iff (inside : node < reading.document.nodes.size) :
    id ∈ reading.document.path node ↔ reading.document.IsOver id node :=
  mem_ancestorsWithin_iff inside (reading.size_lt_rank_add node)

/-- The path of a node ends at the root. -/
theorem getLast?_path (inside : node < reading.document.nodes.size) :
    (reading.document.path node).getLast? = some root :=
  getLast?_ancestorsWithin inside (reading.size_lt_rank_add node)

end Up

/-! ### The deepest node -/

variable (text : Text) (offset : Nat)

theorem nodeAt_inside :
    (read text).document.nodeAt offset < (read text).document.nodes.size := by
  have above : (read text).document.IsOver root ((read text).document.nodeAt offset) :=
    isOver_descend _ _ _ _
  obtain top | ⟨parent, _, listed⟩ := Relation.ReflTransGen.cases_tail above
  · rw [top]
    exact Checked.root_inside text
  · exact (child_inside listed).2

/-- **The nodes over an offset of the text are the one found there and those above it, up to the
root; behind the text the root is found.** -/
theorem nodeAt_deepest :
    (offset < text.bytes →
      (∀ id, id < (read text).document.nodes.size
          ∧ ((read text).document.span id).contains offset = true
        ↔ id ∈ (read text).document.path ((read text).document.nodeAt offset))
      ∧ ((read text).document.path ((read text).document.nodeAt offset)).getLast? = some root)
    ∧ (text.bytes ≤ offset → (read text).document.nodeAt offset = root) := by
  refine ⟨fun within => ⟨fun id => ?_, getLast?_path (nodeAt_inside text offset)⟩, fun beyond => ?_⟩
  · have whole : ((read text).document.span root).contains offset = true := by
      rw [span_root]
      exact Span.contains_iff.mpr ⟨Nat.zero_le _, within⟩
    rw [mem_path_iff (nodeAt_inside text offset)]
    constructor
    · rintro ⟨inside, covers⟩
      obtain ⟨bound, _, same⟩ := exists_nodeAt_eq inside covers
      rw [same]
      exact isOver_descend _ _ _ _
    · intro above
      refine ⟨?_, contains_of_isOver above (contains_descend whole)⟩
      obtain same | ⟨child, listed, _⟩ := Relation.ReflTransGen.cases_head above
      · exact same ▸ nodeAt_inside text offset
      · exact parent_inside listed
  · have none : ((read text).document.children root).find? (fun child =>
        ((read text).document.span child).contains offset) = none := by
      refine List.find?_eq_none.mpr fun child listed covers => ?_
      have whole := contains_parent listed covers
      rw [span_root] at whole
      exact absurd (Span.contains_iff.mp whole).2 (Nat.not_lt.mpr beyond)
    obtain ⟨bound, size⟩ := Nat.exists_eq_succ_of_ne_zero
      (Nat.ne_zero_of_lt (Checked.root_inside text))
    rw [nodeAt, size, descend, none]

/-- The argument is found inside its call; the end of the text is no place in it. -/
theorem nodeAt_deepest_argument :
    2 < Text.bytes "f(a)".toList
      ∧ (∀ id, id < (read "f(a)".toList).document.nodes.size
          ∧ ((read "f(a)".toList).document.span id).contains 2 = true
        ↔ id ∈ (read "f(a)".toList).document.path ((read "f(a)".toList).document.nodeAt 2))
      ∧ Text.bytes "f(a)".toList ≤ 4
      ∧ (read "f(a)".toList).document.nodeAt 4 = root := by
  have within : 2 < Text.bytes "f(a)".toList := by decide
  have beyond : Text.bytes "f(a)".toList ≤ 4 := by decide
  exact ⟨within, ((nodeAt_deepest "f(a)".toList 2).1 within).1, beyond,
    (nodeAt_deepest "f(a)".toList 4).2 beyond⟩

end Reading

end RSource
