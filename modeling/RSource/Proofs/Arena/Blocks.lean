/-
**A tree is stored alike wherever it is put.**

The nodes that storing a tree adds are those it would have from zero on, with the numbers of the
children moved on by the number of nodes before (`Arena.toList_store`). Main statement:
`Arena.sameBelow_store`, below the top of a tree that two documents hold they have the same nodes,
and the numbers of all of them differ alike (`Document.SameBelow`).
-/

import RSource.Proofs.Arena.Ownership

namespace RSource

namespace Content

/-- The same content with the children moved on. -/
def moved (offset : Nat) : Content → Content
  | leaf token => leaf token
  | branch form slots => branch form (slots.map fun slot => (slot.1, slot.2 + offset))

/-- Two contents are the same, but for the numbers of the children. -/
structure Alike (same : NodeId → NodeId → Prop) (content other : Content) : Prop where
  token : other.token? = content.token?
  form : other.form? = content.form?
  slots : List.Forall₂ (fun slot moved => moved.1 = slot.1 ∧ same slot.2 moved.2) content.slots
    other.slots

theorem children_moved (offset : Nat) (content : Content) :
    (content.moved offset).children = content.children.map (· + offset) := by
  cases content with
  | leaf token => rfl
  | branch form slots => simp [moved, children, Content.slots]

/-- One content at two places. -/
theorem alike_moved {same : NodeId → NodeId → Prop} {first second : Nat}
    (matched : ∀ child, same (child + first) (child + second)) (content : Content) :
    Alike same (content.moved first) (content.moved second) := by
  cases content with
  | leaf token => exact ⟨rfl, rfl, .nil⟩
  | branch form slots =>
    refine ⟨rfl, rfl, ?_⟩
    simp only [moved, Content.slots, List.forall₂_map_left_iff, List.forall₂_map_right_iff]
    exact List.forall₂_same.mpr fun slot _ => ⟨rfl, matched slot.2⟩

end Content

/-- The same node with its children moved on. -/
def Node.moved (offset : Nat) (node : Node) : Node :=
  { node with content := node.content.moved offset }

theorem Node.moved_moved (first second : Nat) (node : Node) :
    (node.moved first).moved second = node.moved (second + first) := by
  obtain ⟨content, span, parent⟩ := node
  cases content with
  | leaf token => rfl
  | branch form slots =>
    simp [Node.moved, Content.moved, Nat.add_comm second first, Nat.add_assoc]

/-- At and below the node `top` of one document and the node `other` of another there are the same
nodes: the same tokens, the same forms, the same spans. Their numbers all differ as these two do. -/
def Document.SameBelow (first second : Document) (top other : NodeId) : Prop :=
  ∀ id, Relation.ReflTransGen (fun parent child => first.IsChildOf child parent) top id →
    ∃ counterpart node mate, counterpart + top = id + other
      ∧ first.node? id = some node ∧ second.node? counterpart = some mate ∧ mate.span = node.span
      ∧ node.content.Alike (fun child moved => moved + top = child + other) mate.content

namespace Arena

@[simp] theorem toList_add (arena : Arena) (content : Content) (span : Span) :
    (arena.add content span).toList = arena.toList ++ [⟨content, span, none⟩] := Array.toList_push

mutual

/-- **The nodes of a stored tree are those it has from zero on, moved on.** -/
theorem toList_store (tree : Tree) (arena : Arena) :
    (store tree arena).toList
      = arena.toList ++ (store tree #[]).toList.map (Node.moved arena.size) := by
  cases tree with
  | leaf lexeme | cut lexeme skipped =>
    simp [store, Node.moved, Content.moved]
  | node form span parts =>
    obtain ⟨slots, nodes⟩ := storeParts_moved parts arena
    simp [store, slots, nodes, Node.moved, Content.moved]

theorem storePart_moved (part : Part) (arena : Arena) :
    (storePart part arena).1
        = (storePart part #[]).1.map (fun slot => (slot.1, slot.2 + arena.size))
      ∧ (storePart part arena).2.toList
        = arena.toList ++ (storePart part #[]).2.toList.map (Node.moved arena.size) := by
  cases part with
  | child role tree =>
    have nodes := toList_store tree arena
    have size := congrArg List.length nodes
    have positive := (extends_store tree #[]).2
    simp only [List.length_append, List.length_map, Array.length_toList] at size
    rw [Array.size_empty] at positive
    have last : (store tree arena).size - 1 = (store tree #[]).size - 1 + arena.size := by omega
    exact ⟨by simp [storePart, last], nodes⟩
  | problem found skipped => simp [storePart]

theorem storeParts_moved (parts : List Part) (arena : Arena) :
    (storeParts parts arena).1
        = (storeParts parts #[]).1.map (fun slot => (slot.1, slot.2 + arena.size))
      ∧ (storeParts parts arena).2.toList
        = arena.toList ++ (storeParts parts #[]).2.toList.map (Node.moved arena.size) := by
  cases parts with
  | nil => simp [storeParts]
  | cons part rest =>
    obtain ⟨slots, nodes⟩ := storePart_moved part arena
    have size := congrArg List.length nodes
    simp only [List.length_append, List.length_map, Array.length_toList] at size
    -- The others are stored behind the first part, here as from zero on.
    obtain ⟨slotsHere, nodesHere⟩ := storeParts_moved rest (storePart part arena).2
    obtain ⟨slotsZero, nodesZero⟩ := storeParts_moved rest (storePart part #[]).2
    rw [storeParts, storeParts]
    dsimp only
    rw [slotsHere, nodesHere, slots, nodes, slotsZero, nodesZero, size]
    simp [Function.comp_def, Node.moved_moved, Nat.add_comm arena.size, Nat.add_assoc]

end

/-- The top of a stored tree is the last of its nodes. -/
theorem size_store (tree : Tree) (arena : Arena) :
    (store tree arena).size = (store tree #[]).size + arena.size := by
  have size := congrArg List.length (toList_store tree arena)
  simpa [Nat.add_comm] using size

theorem store_ne_empty (tree : Tree) : 0 < (store tree #[]).size := (extends_store tree #[]).2

section Below

variable {document : Document} {tree : Tree} {arena : Arena}

/-- The nodes of a stored tree in a document that went on behind them. -/
theorem node?_of_store (kept : Extends (store tree arena) document.nodes) {place : Nat} {node : Node}
    (found : (store tree #[])[place]? = some node) :
    document.node? (place + arena.size) = some (node.moved arena.size) := by
  have size := size_store tree arena
  have inside := (Array.getElem?_eq_some_iff.mp found).1
  rw [Document.node?, kept.node _ (by omega), ← Array.getElem?_toList, toList_store,
    List.getElem?_append_right (by simp), List.getElem?_map]
  simp [found]

/-- Among the nodes from zero on, children come before their parents. -/
theorem child_lt_of_store {place : Nat} {node : Node}
    (found : (store tree #[])[place]? = some node) {child : NodeId}
    (listed : child ∈ node.content.children) : child < place := by
  have inside := (Array.getElem?_eq_some_iff.mp found).1
  let alone : Document := ⟨[], store tree #[], []⟩
  have agrees : Agrees alone (#[] : Arena).size (store tree #[]) := fun _ _ _ => rfl
  refine earlier_store tree #[] agrees place ?_ child ?_
  · simpa [ids, List.mem_range'_1] using inside
  · simpa [Document.children, Document.content, alone, found] using listed

/-- Below the top of a stored tree there are nodes of this tree only. -/
theorem exists_place_of_below (kept : Extends (store tree arena) document.nodes) {id : NodeId}
    (below : Relation.ReflTransGen (fun parent child => document.IsChildOf child parent)
      ((store tree arena).size - 1) id) :
    ∃ place node, id = place + arena.size ∧ (store tree #[])[place]? = some node := by
  induction below with
  | refl =>
    have size := size_store tree arena
    have some := store_ne_empty tree
    have top : (store tree arena).size - 1 = (store tree #[]).size - 1 + arena.size := by omega
    exact ⟨_, _, top, Array.getElem?_eq_getElem (Nat.sub_lt some Nat.one_pos)⟩
  | tail _ listed previous =>
    obtain ⟨place, node, rfl, found⟩ := previous
    have stored := node?_of_store kept found
    rw [Document.node?] at stored
    rw [Document.IsChildOf, Document.children, Document.content, stored] at listed
    obtain ⟨child, inNode, rfl⟩ := List.mem_map.mp (Content.children_moved _ _ ▸ listed)
    have early := child_lt_of_store found inNode
    have inside := (Array.getElem?_eq_some_iff.mp found).1
    exact ⟨child, _, rfl, Array.getElem?_eq_getElem (Nat.lt_trans early inside)⟩

end Below

/-- **A tree that two documents hold has the same nodes in both.** -/
theorem sameBelow_store {first second : Document} {tree : Tree} {left right : Arena}
    (here : Extends (store tree left) first.nodes) (there : Extends (store tree right) second.nodes) :
    first.SameBelow second ((store tree left).size - 1) ((store tree right).size - 1) := by
  intro id below
  obtain ⟨place, node, rfl, found⟩ := exists_place_of_below here below
  have shifted (place : Nat) : place + right.size + ((store tree left).size - 1)
      = place + left.size + ((store tree right).size - 1) := by
    rw [size_store tree left, size_store tree right]
    have some := store_ne_empty tree
    omega
  exact ⟨place + right.size, _, _, shifted place, node?_of_store here found,
    node?_of_store there found, rfl, node.content.alike_moved shifted⟩

end Arena

end RSource
