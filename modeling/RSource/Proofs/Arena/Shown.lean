/-
**The nodes of a document show the trees that were stored.**

`Document.Shows id tree` says that the node of a number, with everything below it, is the tree: the
same token or form, the same bytes, and its slots show the children of the tree one by one. Storing
a tree makes its nodes show it and everything below it, children before their parents
(`Arena.shows_store`). Main statement: `Reading.shows_document`, the nodes of a document behind its
root show the subtrees of the tree that was read, in this order.
-/

import RSource.Proofs.Arena.Storage
import RSource.Proofs.Tree.Subtrees
import Mathlib.Data.List.Forall2

namespace RSource

namespace Tree

mutual

/-- A tree and everything below it, children before their parents. -/
def nodes : Tree → List Tree
  | leaf lexeme => [leaf lexeme]
  | cut lexeme skipped => [cut lexeme skipped]
  | node form span parts => partsNodes parts ++ [node form span parts]

def partNodes : Part → List Tree
  | .child _ tree => nodes tree
  | .problem _ _ => []

def partsNodes : List Part → List Tree
  | [] => []
  | part :: rest => partNodes part ++ partsNodes rest

end

mutual

theorem isWithin_of_mem_nodes (tree : Tree) {node : Tree} (member : node ∈ tree.nodes) :
    node.IsWithin tree := by
  cases tree with
  | leaf lexeme | cut lexeme skipped =>
    obtain rfl := List.mem_singleton.mp member
    exact .here
  | node form span parts =>
    rw [nodes, List.mem_append, List.mem_singleton] at member
    rcases member with below | rfl
    · obtain ⟨role, tree, inside, within⟩ := exists_of_mem_partsNodes parts below
      exact .inside inside within
    · exact .here

theorem exists_of_mem_partsNodes (parts : List Part) {node : Tree}
    (member : node ∈ partsNodes parts) :
    ∃ role tree, .child role tree ∈ parts ∧ node.IsWithin tree := by
  match parts with
  | [] => exact absurd member List.not_mem_nil
  | .child role tree :: rest =>
    rw [partsNodes, List.mem_append] at member
    rcases member with here | behind
    · exact ⟨role, tree, List.mem_cons_self, isWithin_of_mem_nodes tree here⟩
    · obtain ⟨role, tree, inside, within⟩ := exists_of_mem_partsNodes rest behind
      exact ⟨role, tree, List.mem_cons_of_mem _ inside, within⟩
  | .problem found skipped :: rest =>
    obtain ⟨role, tree, inside, within⟩ := exists_of_mem_partsNodes rest member
    exact ⟨role, tree, List.mem_cons_of_mem _ inside, within⟩

end

/-- The first child in a role. -/
def childIn? (role : Role) : List Part → Option Tree
  | [] => none
  | .child own tree :: rest => if role == own then some tree else childIn? role rest
  | .problem _ _ :: rest => childIn? role rest

end Tree

namespace Document

mutual

/-- The node of a number is a tree, with everything below it. -/
def Shows (document : Document) (id : NodeId) : Tree → Prop
  | .leaf lexeme => document.content id = .leaf lexeme.token ∧ document.span id = lexeme.span
  | .cut lexeme _ => document.content id = .leaf lexeme.token ∧ document.span id = lexeme.span
  | .node form span parts => ∃ slots, document.content id = .branch form slots
      ∧ document.span id = span ∧ document.ShowsParts slots parts

/-- The first slots are a part, and others follow. -/
def ShowsPart (document : Document) (slots others : List (Role × NodeId)) : Part → Prop
  | .child role tree => ∃ id, slots = (role, id) :: others ∧ document.Shows id tree
  | .problem _ _ => slots = others

/-- Slots are the children among parts, one by one. -/
def ShowsParts (document : Document) (slots : List (Role × NodeId)) : List Part → Prop
  | [] => slots = []
  | part :: rest => ∃ others, document.ShowsPart slots others part ∧ document.ShowsParts others rest

end

theorem Shows.span {document : Document} {id : NodeId} {tree : Tree}
    (shown : document.Shows id tree) : document.span id = tree.span := by
  cases tree with
  | leaf lexeme | cut lexeme skipped => exact shown.2
  | node form span parts => exact shown.choose_spec.2.1

/-- A role is filled by the node of the child in it. -/
theorem ShowsParts.lookup {document : Document} {slots : List (Role × NodeId)} {parts : List Part}
    (shown : document.ShowsParts slots parts) (role : Role) :
    Option.Rel document.Shows (slots.lookup role) (Tree.childIn? role parts) := by
  induction parts generalizing slots with
  | nil =>
    obtain rfl : slots = [] := shown
    exact .none
  | cons part rest previous =>
    obtain ⟨others, here, behind⟩ := shown
    cases part with
    | child own tree =>
      obtain ⟨id, rfl, same⟩ := here
      rw [List.lookup_cons, Tree.childIn?]
      cases role == own with
      | true => exact .some same
      | false => exact previous behind
    | problem found skipped =>
      obtain rfl : slots = others := here
      exact previous behind

/-- Each slot is filled by the node of a child. -/
theorem ShowsParts.exists_of_slot {document : Document} {slots : List (Role × NodeId)}
    {parts : List Part} (shown : document.ShowsParts slots parts) {role : Role} {id : NodeId}
    (member : (role, id) ∈ slots) : ∃ tree, .child role tree ∈ parts ∧ document.Shows id tree := by
  induction parts generalizing slots with
  | nil =>
    obtain rfl : slots = [] := shown
    exact absurd member List.not_mem_nil
  | cons part rest previous =>
    obtain ⟨others, here, behind⟩ := shown
    have further (inOthers : (role, id) ∈ others) :
        ∃ tree, .child role tree ∈ part :: rest ∧ document.Shows id tree := by
      obtain ⟨tree, listed, same⟩ := previous behind inOthers
      exact ⟨tree, List.mem_cons_of_mem _ listed, same⟩
    cases part with
    | child own tree =>
      obtain ⟨first, rfl, same⟩ := here
      rcases List.mem_cons.mp member with filled | inOthers
      · cases filled
        exact ⟨tree, List.mem_cons_self, same⟩
      · exact further inOthers
    | problem found skipped =>
      obtain rfl : slots = others := here
      exact further member

/-- Each child has a node in a slot. -/
theorem ShowsParts.exists_of_child {document : Document} {slots : List (Role × NodeId)}
    {parts : List Part} (shown : document.ShowsParts slots parts) {role : Role} {tree : Tree}
    (member : .child role tree ∈ parts) : ∃ id, (role, id) ∈ slots ∧ document.Shows id tree := by
  induction parts generalizing slots with
  | nil => exact absurd member List.not_mem_nil
  | cons part rest previous =>
    obtain ⟨others, here, behind⟩ := shown
    rcases List.mem_cons.mp member with rfl | further
    · obtain ⟨id, rfl, same⟩ := here
      exact ⟨id, List.mem_cons_self, same⟩
    · obtain ⟨id, inOthers, same⟩ := previous behind further
      refine ⟨id, ?_, same⟩
      cases part with
      | child own first =>
        obtain ⟨_, rfl, _⟩ := here
        exact List.mem_cons_of_mem _ inOthers
      | problem found skipped =>
        obtain rfl : slots = others := here
        exact inOthers

/-- Everything below a tree that is shown is shown by some node. -/
theorem Shows.exists_of_isWithin {document : Document} {id : NodeId} {node tree : Tree}
    (shown : document.Shows id tree) (within : node.IsWithin tree) :
    ∃ inner, document.Shows inner node := by
  induction within generalizing id with
  | here => exact ⟨id, shown⟩
  | inside member _ previous =>
    obtain ⟨slots, _, _, parts⟩ := shown
    obtain ⟨child, _, same⟩ := parts.exists_of_child member
    exact previous same

theorem children_eq_nil {document : Document} {id : NodeId} {token : Token}
    (content : document.content id = .leaf token) : document.children id = [] := by
  rw [children, content]
  rfl

/-- **The nodes at and below a tree that is shown show what lies within it.** -/
theorem Shows.exists_of_mem_preorder {document : Document} {id inner : NodeId} {tree : Tree}
    (shown : document.Shows id tree) {bound : Nat}
    (member : inner ∈ document.preorderWithin bound id) :
    ∃ node : Tree, node.IsWithin tree ∧ document.Shows inner node := by
  induction bound generalizing id tree with
  | zero => exact absurd member List.not_mem_nil
  | succ bound previous =>
    rw [preorderWithin, List.mem_cons, List.mem_flatMap] at member
    rcases member with rfl | ⟨child, listed, below⟩
    · exact ⟨tree, .here, shown⟩
    · cases tree with
      | leaf lexeme | cut lexeme skipped =>
        rw [children_eq_nil shown.1] at listed
        exact absurd listed List.not_mem_nil
      | node form span parts =>
        obtain ⟨slots, content, _, filled⟩ := shown
        rw [children, content] at listed
        obtain ⟨⟨role, _⟩, slot, rfl⟩ := List.mem_map.mp listed
        obtain ⟨tree, part, same⟩ := filled.exists_of_slot slot
        obtain ⟨node, within, shows⟩ := previous same below
        exact ⟨node, .inside part within, shows⟩

end Document

namespace Arena

/-- The nodes of a document from `first` on are those of an arena, whatever their parents. -/
def Copies (document : Document) (first : NodeId) (arena : Arena) : Prop :=
  ∀ id : NodeId, first ≤ id → id < arena.size →
    (document.nodes[id]?).map Node.shown = (arena[id]?).map Node.shown

variable {document : Document}

theorem Copies.sub {first second : NodeId} {before after : Arena}
    (copies : Copies document first after) (later : first ≤ second) (more : Extends before after) :
    Copies document second before := by
  intro id behind early
  rw [copies id (Nat.le_trans later behind) (Nat.lt_of_lt_of_le early more.size),
    more.node id early]

/-- The node added last. -/
theorem Copies.last {first : NodeId} {arena : Arena} {content : Content} {span : Span}
    (copies : Copies document first (arena.add content span)) (before : first ≤ arena.size) :
    document.content arena.size = content ∧ document.span arena.size = span := by
  have shown := copies arena.size before (by simp)
  rw [add, Array.getElem?_push_size] at shown
  obtain ⟨node, found, same⟩ := Option.map_eq_some_iff.mp shown
  rw [Document.content, Document.span, found]
  exact Prod.mk.inj same

mutual

/-- **The nodes that storing adds show the subtrees, and the last of them the tree.** -/
theorem shows_store (tree : Tree) (arena : Arena)
    (copies : Copies document arena.size (store tree arena)) :
    document.Shows ((store tree arena).size - 1) tree
      ∧ List.Forall₂ document.Shows (ids arena.size (store tree arena).size) tree.nodes := by
  cases tree with
  | leaf lexeme | cut lexeme skipped =>
    have last := copies.last (Nat.le_refl _)
    have one : ids arena.size (arena.add (.leaf lexeme.token) lexeme.span).size = [arena.size] := by
      simp [ids]
    rw [store, one, size_add, Nat.add_sub_cancel]
    exact ⟨last, .cons last .nil⟩
  | node form span parts =>
    rw [store] at copies ⊢
    have more := extends_storeParts parts arena
    have inner := shows_storeParts parts arena (copies.sub (Nat.le_refl _) (extends_add _ _ _))
    have last := copies.last more.size
    have own : document.Shows (storeParts parts arena).2.size (.node form span parts) :=
      ⟨_, last.1, last.2, inner.1⟩
    simp only [size_add, Nat.add_sub_cancel, Tree.nodes]
    rw [ids_succ more.size]
    exact ⟨own, List.rel_append inner.2 (.cons own .nil)⟩

theorem shows_storePart (part : Part) (arena : Arena) (others : List (Role × NodeId))
    (copies : Copies document arena.size (storePart part arena).2) :
    document.ShowsPart ((storePart part arena).1 ++ others) others part
      ∧ List.Forall₂ document.Shows (ids arena.size (storePart part arena).2.size)
        (Tree.partNodes part) := by
  cases part with
  | child role tree =>
    have inner := shows_store tree arena copies
    exact ⟨⟨_, rfl, inner.1⟩, inner.2⟩
  | problem found skipped =>
    rw [show ids arena.size (storePart (.problem found skipped) arena).2.size = [] by
      simp [ids, storePart]]
    exact ⟨rfl, .nil⟩

theorem shows_storeParts (parts : List Part) (arena : Arena)
    (copies : Copies document arena.size (storeParts parts arena).2) :
    document.ShowsParts (storeParts parts arena).1 parts
      ∧ List.Forall₂ document.Shows (ids arena.size (storeParts parts arena).2.size)
        (Tree.partsNodes parts) := by
  cases parts with
  | nil =>
    rw [show ids arena.size (storeParts [] arena).2.size = [] by simp [ids, storeParts]]
    exact ⟨rfl, .nil⟩
  | cons part rest =>
    rw [storeParts] at copies ⊢
    simp only at copies ⊢
    have before := extends_storePart part arena
    have after := extends_storeParts rest (storePart part arena).2
    have here := shows_storePart part arena (storeParts rest (storePart part arena).2).1
      (copies.sub (Nat.le_refl _) after)
    have behind := shows_storeParts rest (storePart part arena).2
      (copies.sub before.size (.refl _))
    refine ⟨⟨_, here.1, behind.1⟩, ?_⟩
    rw [← ids_append before.size after.size]
    exact List.rel_append here.2 behind.2

end

end Arena

namespace Reading

variable (reading : Reading)

theorem copies_document : Arena.Copies reading.document 1 reading.stored := by
  intro id behind _
  show (Option.map Node.shown (Arena.link _)[id]?) = _
  rw [(Arena.sameContents_link _).shown, Array.getElem?_modify, if_neg]
  · rfl
  · rintro rfl
    exact absurd behind (by decide)

/-- **The nodes behind the root show what was read.** -/
theorem shows_document :
    reading.document.Shows (reading.stored.size - 1) reading.tree
      ∧ List.Forall₂ reading.document.Shows (Arena.ids 1 reading.stored.size) reading.tree.nodes :=
  Arena.shows_store reading.tree (Document.blank reading.text).nodes reading.copies_document

/-- Every node behind the root shows a tree that was read. -/
theorem exists_shown {id : NodeId} (behind : 0 < id) (inside : id < reading.stored.size) :
    ∃ node : Tree, node.IsWithin reading.tree ∧ reading.document.Shows id node := by
  obtain ⟨place, rfl⟩ := Nat.exists_eq_add_of_lt behind
  have shown := reading.shows_document.2
  have early : place < (Arena.ids 1 reading.stored.size).length := by
    rw [Arena.ids, List.length_range']
    exact Nat.lt_sub_of_add_lt (by rwa [Nat.zero_add] at inside)
  have late : place < reading.tree.nodes.length := shown.length_eq ▸ early
  refine ⟨reading.tree.nodes.get ⟨place, late⟩, Tree.isWithin_of_mem_nodes _ (List.get_mem _ _), ?_⟩
  simpa [Arena.ids, Nat.add_comm] using shown.get early late

/-- A node of any form but that of the root shows a tree of this form. -/
theorem exists_shown_of_form {id : NodeId} {form : Form}
    (own : (reading.document.content id).form? = some form) (notRoot : form ≠ .root) :
    ∃ span parts, (Tree.node form span parts).IsWithin reading.tree
      ∧ reading.document.Shows id (.node form span parts) := by
  have behind : 0 < id := by
    refine Nat.pos_of_ne_zero fun root => notRoot ?_
    rw [root, content_document, if_pos (show (0 : NodeId) = Document.root from rfl)] at own
    exact (Option.some.inj own).symm
  have inside : id < reading.stored.size := by
    refine Nat.lt_of_not_le fun outside => notRoot ?_
    rw [← size_document] at outside
    rw [Document.content, Array.getElem?_eq_none outside] at own
    exact (Option.some.inj own).symm
  obtain ⟨node, within, shown⟩ := reading.exists_shown behind inside
  cases node with
  | leaf lexeme | cut lexeme skipped =>
    rw [shown.1] at own
    cases own
  | node other span parts =>
    have shows := shown
    obtain ⟨slots, content, _⟩ := shown
    rw [content] at own
    cases own
    exact ⟨span, parts, within, shows⟩

end Reading

end RSource
