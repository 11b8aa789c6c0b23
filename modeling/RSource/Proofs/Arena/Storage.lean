/-
**A stored tree is met again from its last node.**

`Arena.store` puts the nodes of a tree behind the others, its own node last. Main statements:
`leafIds_preorder`, going down from that node along the children meets the leaves of the tree in the
order of their numbers; `tokens_store`, those leaves hold the tokens of the tree's leaves in order.
`Reading.leafIds_document` and `Reading.leafTokens_document` say the same of a whole document.
-/

import RSource.Document
import Mathlib.Data.List.Basic

namespace RSource

namespace Document

/-- Whether a node is one token. -/
def isLeaf (document : Document) (id : NodeId) : Bool := (document.content id).token?.isSome

/-- The nodes that are tokens, by number. -/
def leafIds (document : Document) : List NodeId :=
  (List.range document.nodes.size).filter document.isLeaf

/-- The tokens of these nodes. -/
def leafTokens (document : Document) : List Token :=
  document.nodes.toList.filterMap (·.content.token?)

end Document

/-- What a node is, whatever its parent. -/
def Node.shown (node : Node) : Content × Span := (node.content, node.span)

namespace Arena

/-! ### Stored nodes -/

@[simp] theorem size_add (arena : Arena) (content : Content) (span : Span) :
    (arena.add content span).size = arena.size + 1 := Array.size_push _

/-- The content of a node. -/
def contentAt (arena : Arena) (id : NodeId) : Content :=
  ((arena[id]?).map (·.content)).getD (.branch .root [])

theorem contentAt_add_size (arena : Arena) (content : Content) (span : Span) :
    (arena.add content span).contentAt arena.size = content := by
  rw [contentAt, add, Array.getElem?_push_size]
  rfl

/-- The nodes of `before` are the first ones of `after`. -/
structure Extends (before after : Arena) : Prop where
  size : before.size ≤ after.size
  node : ∀ id, id < before.size → after[id]? = before[id]?

theorem Extends.content {before after : Arena} (more : Extends before after) (id : NodeId)
    (early : id < before.size) : after.contentAt id = before.contentAt id := by
  rw [contentAt, contentAt, more.node id early]

theorem Extends.refl (arena : Arena) : Extends arena arena := ⟨Nat.le_refl _, fun _ _ => rfl⟩

theorem Extends.trans {first second third : Arena} (before : Extends first second)
    (after : Extends second third) : Extends first third where
  size := Nat.le_trans before.size after.size
  node id early := by
    rw [after.node id (Nat.lt_of_lt_of_le early before.size), before.node id early]

theorem extends_add (arena : Arena) (content : Content) (span : Span) :
    Extends arena (arena.add content span) where
  size := by simp
  node id early := by rw [add, Array.getElem?_push_lt early, Array.getElem?_eq_getElem early]

mutual

/-- Storing changes no node that is there, and adds at least one. -/
theorem extends_store (tree : Tree) (arena : Arena) :
    Extends arena (store tree arena) ∧ arena.size < (store tree arena).size := by
  cases tree with
  | leaf lexeme => exact ⟨extends_add _ _ _, by simp [store]⟩
  | cut lexeme skipped => exact ⟨extends_add _ _ _, by simp [store]⟩
  | node form span parts =>
    have inner := extends_storeParts parts arena
    have sizes := inner.size
    rw [store]
    exact ⟨inner.trans (extends_add _ _ _), by simp only [size_add]; omega⟩

theorem extends_storePart (part : Part) (arena : Arena) :
    Extends arena (storePart part arena).2 := by
  cases part with
  | child role tree => exact (extends_store tree arena).1
  | problem found skipped => exact .refl arena

theorem extends_storeParts (parts : List Part) (arena : Arena) :
    Extends arena (storeParts parts arena).2 := by
  cases parts with
  | nil => exact .refl arena
  | cons part rest =>
    exact (extends_storePart part arena).trans (extends_storeParts rest _)

end

/-! ### The tokens of the leaves -/

/-- The tokens among the nodes, by number. -/
def tokens (arena : Arena) : List Token := arena.toList.filterMap (·.content.token?)

theorem tokens_add (arena : Arena) (content : Content) (span : Span) :
    (arena.add content span).tokens = arena.tokens ++ content.token?.toList := by
  rw [tokens, add, Array.toList_push, List.filterMap_append]
  cases content <;> rfl

/-- The contents, number by number. -/
theorem map_content (arena : Arena) :
    arena.toList.map (·.content) = (List.range arena.size).map arena.contentAt := by
  refine List.ext_getElem (by simp) fun id inside _ => ?_
  simp only [List.length_map, Array.length_toList] at inside
  simp [contentAt, Array.getElem?_eq_getElem inside]

/-- The tokens are those of the contents, number by number. -/
theorem tokens_eq_filterMap (arena : Arena) :
    arena.tokens = (List.range arena.size).filterMap fun id => (arena.contentAt id).token? := by
  have tokens := congrArg (List.filterMap Content.token?) arena.map_content
  rwa [List.filterMap_map, List.filterMap_map] at tokens

mutual

/-- **Storing a tree adds the tokens of its leaves, in order.** -/
theorem tokens_store (tree : Tree) (arena : Arena) :
    (store tree arena).tokens = arena.tokens ++ tree.leaves.map (·.token) := by
  cases tree with
  | leaf lexeme => exact tokens_add _ _ _
  | cut lexeme skipped => exact tokens_add _ _ _
  | node form span parts =>
    rw [store, tokens_add, tokens_storeParts parts arena]
    simp [Content.token?, Tree.leaves]

theorem tokens_storePart (part : Part) (arena : Arena) :
    (storePart part arena).2.tokens = arena.tokens ++ (Tree.partLeaves part).map (·.token) := by
  cases part with
  | child role tree => exact tokens_store tree arena
  | problem found skipped => simp [storePart, Tree.partLeaves]

theorem tokens_storeParts (parts : List Part) (arena : Arena) :
    (storeParts parts arena).2.tokens = arena.tokens ++ (Tree.partsLeaves parts).map (·.token) := by
  cases parts with
  | nil => simp [storeParts, Tree.partsLeaves]
  | cons part rest =>
    rw [storeParts, tokens_storeParts rest, tokens_storePart part, Tree.partsLeaves,
      List.map_append, List.append_assoc]

end

/-! ### Going down again -/

/-- The numbers from `first` up to, but not including, `last`. -/
def ids (first last : Nat) : List NodeId := List.range' first (last - first)

theorem ids_append {first middle last : Nat} (before : first ≤ middle) (after : middle ≤ last) :
    ids first middle ++ ids middle last = ids first last := by
  have joined := List.range'_append_1 (s := first) (m := middle - first) (n := last - middle)
  have widths : middle - first + (last - middle) = last - first := by omega
  rw [Nat.add_sub_cancel' before, widths] at joined
  exact joined

theorem ids_succ {first last : Nat} (before : first ≤ last) :
    ids first (last + 1) = ids first last ++ [last] := by
  rw [← ids_append before (Nat.le_succ last)]
  simp [ids]

/-- The nodes of a document from `first` on are those of an arena. -/
def Agrees (document : Document) (first : NodeId) (arena : Arena) : Prop :=
  ∀ id, first ≤ id → id < arena.size → document.content id = arena.contentAt id

variable {document : Document}

theorem Agrees.sub {first second : NodeId} {before after : Arena}
    (agrees : Agrees document first after) (later : first ≤ second) (more : Extends before after) :
    Agrees document second before := by
  intro id behind early
  rw [agrees id (Nat.le_trans later behind) (Nat.lt_of_lt_of_le early more.size),
    more.content id early]

/-- A node that is a token has none below it. -/
theorem leafIds_token (lexeme : Lexeme) (arena : Arena) (bound : Nat)
    (agrees : Agrees document arena.size (arena.add (.leaf lexeme.token) lexeme.span))
    (enough : (arena.add (.leaf lexeme.token) lexeme.span).size ≤ arena.size + bound) :
    (document.preorderWithin bound
        ((arena.add (.leaf lexeme.token) lexeme.span).size - 1)).filter document.isLeaf
      = (ids arena.size (arena.add (.leaf lexeme.token) lexeme.span).size).filter
        document.isLeaf := by
  have shown := agrees arena.size (Nat.le_refl _) (by simp)
  rw [contentAt_add_size] at shown
  simp only [size_add, Nat.add_sub_cancel] at enough ⊢
  obtain ⟨bound, rfl⟩ := Nat.exists_eq_succ_of_ne_zero (n := bound) (by omega)
  rw [Document.preorderWithin, Document.children, shown]
  simp [ids, Content.children, Content.slots]

mutual

/-- **From the last node of a stored tree on, its leaves are met in the order of their numbers.** -/
theorem leafIds_preorder (tree : Tree) (arena : Arena) (bound : Nat)
    (agrees : Agrees document arena.size (store tree arena))
    (enough : (store tree arena).size ≤ arena.size + bound) :
    (document.preorderWithin bound ((store tree arena).size - 1)).filter document.isLeaf
      = (ids arena.size (store tree arena).size).filter document.isLeaf := by
  cases tree with
  | leaf lexeme => exact leafIds_token lexeme arena bound agrees enough
  | cut lexeme skipped => exact leafIds_token lexeme arena bound agrees enough
  | node form span parts =>
    rw [store] at agrees enough ⊢
    simp only [size_add, Nat.add_sub_cancel] at agrees enough ⊢
    have more := extends_storeParts parts arena
    have shown := agrees (storeParts parts arena).2.size more.size (by simp)
    rw [contentAt_add_size] at shown
    have leafless : document.isLeaf (storeParts parts arena).2.size = false := by
      rw [Document.isLeaf, shown]
      rfl
    obtain ⟨bound, rfl⟩ := Nat.exists_eq_succ_of_ne_zero (n := bound) (by have := more.size; omega)
    have inner := leafIds_parts parts arena bound
      (agrees.sub (Nat.le_refl _) (extends_add _ _ _)) (by omega)
    rw [Document.preorderWithin, Document.children, shown, ids_succ more.size]
    simpa [leafless, Content.children, Content.slots] using inner

theorem leafIds_part (part : Part) (arena : Arena) (bound : Nat)
    (agrees : Agrees document arena.size (storePart part arena).2)
    (enough : (storePart part arena).2.size ≤ arena.size + bound) :
    (((storePart part arena).1.map (·.2)).flatMap (document.preorderWithin bound)).filter
        document.isLeaf
      = (ids arena.size (storePart part arena).2.size).filter document.isLeaf := by
  cases part with
  | child role tree =>
    simpa [storePart] using leafIds_preorder tree arena bound agrees enough
  | problem found skipped => simp [storePart, ids]

theorem leafIds_parts (parts : List Part) (arena : Arena) (bound : Nat)
    (agrees : Agrees document arena.size (storeParts parts arena).2)
    (enough : (storeParts parts arena).2.size ≤ arena.size + bound) :
    (((storeParts parts arena).1.map (·.2)).flatMap (document.preorderWithin bound)).filter
        document.isLeaf
      = (ids arena.size (storeParts parts arena).2.size).filter document.isLeaf := by
  cases parts with
  | nil => simp [storeParts, ids]
  | cons part rest =>
    rw [storeParts] at agrees enough ⊢
    simp only at agrees enough ⊢
    have before := extends_storePart part arena
    have after := extends_storeParts rest (storePart part arena).2
    have first := leafIds_part part arena bound (agrees.sub (Nat.le_refl _) after)
      (Nat.le_trans after.size enough)
    have others := leafIds_parts rest (storePart part arena).2 bound
      (agrees.sub before.size (.refl _)) (by have := before.size; omega)
    rw [← ids_append before.size after.size, List.map_append, List.flatMap_append,
      List.filter_append, List.filter_append, first, others]

end

end Arena

/-! ### The stored document -/

namespace Arena

/-- Two arenas hold the same contents, over the same bytes. -/
structure SameContents (left right : Arena) : Prop where
  size : left.size = right.size
  shown : ∀ id : NodeId, (left[id]?).map Node.shown = (right[id]?).map Node.shown

theorem SameContents.content {left right : Arena} (same : SameContents left right) (id : NodeId) :
    left.contentAt id = right.contentAt id := by
  have contents := congrArg (Option.map Prod.fst) (same.shown id)
  rw [Option.map_map, Option.map_map] at contents
  exact congrArg (·.getD (.branch .root [])) contents

theorem SameContents.trans {first second third : Arena} (before : SameContents first second)
    (after : SameContents second third) : SameContents first third where
  size := before.size.trans after.size
  shown id := (before.shown id).trans (after.shown id)

theorem sameContents_modify_parent (arena : Arena) (child parent : NodeId) :
    SameContents (arena.modify child ({ · with parent := some parent })) arena where
  size := Array.size_modify
  shown id := by
    rw [Array.getElem?_modify]
    split
    · rw [Option.map_map]
      rfl
    · rfl

theorem sameContents_adopt (parent : NodeId) (children : List NodeId) (arena : Arena) :
    SameContents (arena.adopt parent children) arena := by
  unfold adopt
  induction children generalizing arena with
  | nil => exact ⟨rfl, fun _ => rfl⟩
  | cons child rest previous =>
    exact (previous _).trans (sameContents_modify_parent arena child parent)

theorem sameContents_linkFrom (first : NodeId) (nodes : List Node) (arena : Arena) :
    SameContents (linkFrom first nodes arena) arena := by
  induction nodes generalizing first arena with
  | nil => exact ⟨rfl, fun _ => rfl⟩
  | cons node rest previous => exact (previous _ _).trans (sameContents_adopt _ _ _)

/-- **Telling nodes their parents changes no content.** -/
theorem sameContents_link (arena : Arena) : SameContents arena.link arena :=
  sameContents_linkFrom 0 _ arena

end Arena

namespace Reading

variable (reading : Reading)

/-- The nodes of the tree, behind the root. -/
def stored : Arena := Arena.store reading.tree (Document.blank reading.text).nodes

theorem size_stored : 1 < reading.stored.size :=
  (Arena.extends_store reading.tree (Document.blank reading.text).nodes).2

theorem size_document : reading.document.nodes.size = reading.stored.size := by
  rw [document, Document.finish, (Arena.sameContents_link _).size, Array.size_modify, stored]

/-- The root of a document lists its global scope alone. -/
theorem content_document (id : NodeId) :
    reading.document.content id
      = if id = Document.root then .branch .root [(.globalScope, reading.stored.size - 1)]
        else reading.stored.contentAt id := by
  have rooted := reading.size_stored
  show Arena.contentAt (Arena.link _) id = _
  rw [(Arena.sameContents_link _).content, Arena.contentAt, Array.getElem?_modify]
  by_cases top : id = Document.root
  · subst top
    rw [if_pos rfl, if_pos rfl, ← stored,
      Array.getElem?_eq_getElem (by exact Nat.lt_of_succ_lt rooted)]
    rfl
  · rw [if_neg (Ne.symm top), if_neg top]
    rfl

theorem isLeaf_root : reading.document.isLeaf Document.root = false := by
  rw [Document.isLeaf, content_document, if_pos rfl]
  rfl

/-- **The leaves in the order of their numbers are those met on the way down from the root.** -/
theorem leafIds_document :
    reading.document.leafIds
      = (reading.document.preorder Document.root).filter reading.document.isLeaf := by
  have rooted := reading.size_stored
  have agrees : Arena.Agrees reading.document 1 reading.stored := by
    intro id behind _
    rw [content_document, if_neg (by rintro rfl; exact absurd behind (by decide))]
  obtain ⟨bound, size⟩ := Nat.exists_eq_succ_of_ne_zero (n := reading.stored.size) (by omega)
  have met : (reading.document.preorderWithin bound (reading.stored.size - 1)).filter
      reading.document.isLeaf = (Arena.ids 1 reading.stored.size).filter reading.document.isLeaf :=
    Arena.leafIds_preorder reading.tree (Document.blank reading.text).nodes bound agrees
      (show reading.stored.size ≤ 1 + bound by omega)
  have top : ¬ reading.document.isLeaf Document.root = true := by simp [isLeaf_root]
  rw [Document.leafIds, Document.preorder, size_document, size, Document.preorderWithin,
    Document.children, content_document, if_pos rfl, List.range_eq_range', List.range'_succ,
    List.filter_cons_of_neg (by exact top), List.filter_cons_of_neg top]
  simpa [Content.children, Content.slots, Arena.ids, size] using met.symm

/-- **The leaves hold the tokens of the tree's leaves, in order.** -/
theorem leafTokens_document :
    reading.document.leafTokens = reading.tree.leaves.map (·.token) := by
  have before : (Document.blank reading.text).nodes.tokens = [] := rfl
  have stored := Arena.tokens_store reading.tree (Document.blank reading.text).nodes
  rw [before, List.nil_append] at stored
  rw [← stored, Document.leafTokens]
  show reading.document.nodes.tokens = reading.stored.tokens
  rw [Arena.tokens_eq_filterMap, Arena.tokens_eq_filterMap, size_document]
  refine List.filterMap_congr fun id _ => ?_
  show (reading.document.content id).token? = _
  rw [content_document]
  split
  · rename_i top
    subst top
    have kept := (Arena.extends_store reading.tree (Document.blank reading.text).nodes).1.content
      Document.root Nat.one_pos
    rw [Reading.stored, kept]
    rfl
  · rfl

end Reading

end RSource
