/-
**The nodes of a document are a tree.**

Storing a tree makes its nodes list one another: every node but the last is a child of exactly one
of them, and comes before it (`Arena.lists_store`, `Arena.earlier_store`). Telling the children
their parents then gives each of them the one node that lists it (`Arena.parentAt_link`). So the
nodes of a document are a tree whenever a global scope was read (`Reading.isTree_document`). Main
statement: `isTree_read`, the nodes of every text are a tree below the root, whose only child is the
global scope.
-/

import RSource.Proofs.Arena.Shown
import RSource.Proofs.Program
import Mathlib.Data.List.Nodup
import Mathlib.Logic.Relation

namespace RSource

namespace Document

/-- The nodes that all nodes list, one node behind the other. -/
def listed (document : Document) : List NodeId :=
  (List.range document.nodes.size).flatMap document.children

/-- A node and one of its children. -/
def IsChildOf (document : Document) (child parent : NodeId) : Prop :=
  child ∈ document.children parent

/-- What makes the nodes of a document a tree below the root. -/
structure IsTree (document : Document) : Prop where
  /-- Every node but the root is listed exactly once. -/
  listed : document.listed.Perm (List.range' 1 (document.nodes.size - 1))
  /-- The parent of a node is the node that lists it. -/
  parent : ∀ child parent, document.parent? child = some parent ↔ document.IsChildOf child parent
  /-- Only the root has no parent. -/
  rootAlone : ∀ id < document.nodes.size, document.parent? id = none ↔ id = root
  /-- Children come before their parents, but for the child of the root. -/
  earlier : ∀ parent, parent ≠ root → ∀ child, document.IsChildOf child parent → child < parent
  /-- Every node is below the root. -/
  reached : ∀ id < document.nodes.size,
    Relation.ReflTransGen (fun parent child => document.IsChildOf child parent) root id
  /-- The child of the root is the last node. -/
  rootChildren : document.children root = [document.nodes.size - 1]
  /-- That node is the global scope. -/
  globalScope : (document.content (document.nodes.size - 1)).form? = some .globalScope

end Document

namespace Arena

/-! ### What the nodes of a stored tree list -/

variable {document : Document}

mutual

/-- **The nodes of a stored tree list all of them but the last**, each one once. -/
theorem lists_store (tree : Tree) (arena : Arena)
    (agrees : Agrees document arena.size (store tree arena)) :
    ((ids arena.size (store tree arena).size).flatMap document.children
        ++ [(store tree arena).size - 1]).Perm (ids arena.size (store tree arena).size) := by
  cases tree with
  | leaf lexeme | cut lexeme skipped =>
    have shown := agrees arena.size (Nat.le_refl _) (by simp [store])
    rw [store, contentAt_add_size] at shown
    simp [store, ids, Document.children, shown, Content.children, Content.slots]
  | node form span parts =>
    rw [store] at agrees ⊢
    have more := extends_storeParts parts arena
    have shown := agrees (storeParts parts arena).2.size more.size (by simp)
    rw [contentAt_add_size] at shown
    have inner := lists_storeParts parts arena (agrees.sub (Nat.le_refl _) (extends_add _ _ _))
    simp only [size_add, Nat.add_sub_cancel]
    rw [ids_succ more.size, List.flatMap_append, List.flatMap_singleton, Document.children, shown]
    exact inner.append_right _

theorem lists_storePart (part : Part) (arena : Arena)
    (agrees : Agrees document arena.size (storePart part arena).2) :
    ((ids arena.size (storePart part arena).2.size).flatMap document.children
        ++ (storePart part arena).1.map (·.2)).Perm
      (ids arena.size (storePart part arena).2.size) := by
  cases part with
  | child role tree => exact lists_store tree arena agrees
  | problem found skipped => simp [storePart, ids]

theorem lists_storeParts (parts : List Part) (arena : Arena)
    (agrees : Agrees document arena.size (storeParts parts arena).2) :
    ((ids arena.size (storeParts parts arena).2.size).flatMap document.children
        ++ (storeParts parts arena).1.map (·.2)).Perm
      (ids arena.size (storeParts parts arena).2.size) := by
  cases parts with
  | nil => simp [storeParts, ids]
  | cons part rest =>
    rw [storeParts] at agrees ⊢
    simp only at agrees ⊢
    have before := extends_storePart part arena
    have after := extends_storeParts rest (storePart part arena).2
    have here := lists_storePart part arena (agrees.sub (Nat.le_refl _) after)
    have behind := lists_storeParts rest (storePart part arena).2 (agrees.sub before.size (.refl _))
    rw [← ids_append before.size after.size, List.flatMap_append, List.map_append]
    refine List.Perm.trans ?_ (here.append behind)
    rw [List.append_assoc, List.append_assoc]
    exact (List.perm_append_comm_assoc _ _ _).append_left _

end

mutual

/-- **Children are stored before their parents.** -/
theorem earlier_store (tree : Tree) (arena : Arena)
    (agrees : Agrees document arena.size (store tree arena)) :
    ∀ id ∈ ids arena.size (store tree arena).size, ∀ child ∈ document.children id, child < id := by
  cases tree with
  | leaf lexeme | cut lexeme skipped =>
    have shown := agrees arena.size (Nat.le_refl _) (by simp [store])
    rw [store, contentAt_add_size] at shown
    simp [store, ids, Document.children, shown, Content.children, Content.slots]
  | node form span parts =>
    rw [store] at agrees ⊢
    have more := extends_storeParts parts arena
    have shown := agrees (storeParts parts arena).2.size more.size (by simp)
    rw [contentAt_add_size] at shown
    have within := agrees.sub (Nat.le_refl _) (extends_add _ _ _)
    rw [size_add, ids_succ more.size]
    intro id member child listed
    rcases List.mem_append.mp member with inside | last
    · exact earlier_storeParts parts arena within id inside child listed
    · obtain rfl := List.mem_singleton.mp last
      rw [Document.children, shown] at listed
      have stored := (lists_storeParts parts arena within).subset (List.mem_append_right _ listed)
      rw [ids, List.mem_range'_1, Nat.add_sub_cancel' more.size] at stored
      exact stored.2

theorem earlier_storePart (part : Part) (arena : Arena)
    (agrees : Agrees document arena.size (storePart part arena).2) :
    ∀ id ∈ ids arena.size (storePart part arena).2.size,
      ∀ child ∈ document.children id, child < id := by
  cases part with
  | child role tree => exact earlier_store tree arena agrees
  | problem found skipped => simp [storePart, ids]

theorem earlier_storeParts (parts : List Part) (arena : Arena)
    (agrees : Agrees document arena.size (storeParts parts arena).2) :
    ∀ id ∈ ids arena.size (storeParts parts arena).2.size,
      ∀ child ∈ document.children id, child < id := by
  cases parts with
  | nil => simp [storeParts, ids]
  | cons part rest =>
    rw [storeParts] at agrees ⊢
    simp only at agrees ⊢
    have before := extends_storePart part arena
    have after := extends_storeParts rest (storePart part arena).2
    rw [← ids_append before.size after.size]
    intro id member
    rcases List.mem_append.mp member with inFirst | inOthers
    · exact earlier_storePart part arena (agrees.sub (Nat.le_refl _) after) id inFirst
    · exact earlier_storeParts rest _ (agrees.sub before.size (.refl _)) id inOthers

end

/-! ### Parents -/

/-- The parent that a node has been told. -/
def parentAt (arena : Arena) (id : NodeId) : Option NodeId := (arena[id]?).bind (·.parent)

theorem size_adopt (arena : Arena) (parent : NodeId) (children : List NodeId) :
    (arena.adopt parent children).size = arena.size :=
  (sameContents_adopt parent children arena).size

/-- A node that adopts becomes the parent of its children, and of no other node. -/
theorem parentAt_adopt (arena : Arena) (parent : NodeId) (children : List NodeId) {id : NodeId}
    (inside : id < arena.size) :
    (arena.adopt parent children).parentAt id
      = if id ∈ children then some parent else arena.parentAt id := by
  unfold adopt
  induction children generalizing arena with
  | nil => simp
  | cons child rest previous =>
    have told : parentAt (arena.modify child ({ · with parent := some parent })) id
        = if child = id then some parent else arena.parentAt id := by
      rw [parentAt, Array.getElem?_modify, Array.getElem?_eq_getElem inside]
      split
      · rfl
      · rw [parentAt, Array.getElem?_eq_getElem inside]
    rw [List.foldl_cons, previous _ (by rwa [Array.size_modify]), told]
    by_cases later : id ∈ rest
    · rw [if_pos later, if_pos (List.mem_cons_of_mem _ later)]
    · by_cases same : child = id
      · rw [if_neg later, if_pos same, if_pos (List.mem_cons.mpr (.inl same.symm))]
      · rw [if_neg later, if_neg same, if_neg]
        rw [List.mem_cons, not_or]
        exact ⟨Ne.symm same, later⟩

/-- A node that none of the nodes lists keeps its parent. -/
theorem parentAt_linkFrom_of_not_listed {nodes : List Node} (first : NodeId) (arena : Arena)
    {id : NodeId} (inside : id < arena.size) (free : ∀ node ∈ nodes, id ∉ node.content.children) :
    (linkFrom first nodes arena).parentAt id = arena.parentAt id := by
  induction nodes generalizing first arena with
  | nil => rfl
  | cons node rest previous =>
    rw [List.forall_mem_cons] at free
    rw [linkFrom, previous _ _ (by rwa [size_adopt]) free.2, parentAt_adopt _ _ _ inside,
      if_neg free.1]

/-- A node that one of the nodes alone lists has it as its parent. -/
theorem parentAt_linkFrom_of_listed {nodes : List Node} (first : NodeId) (arena : Arena)
    {id place : NodeId} {node : Node} (inside : id < arena.size)
    (once : (nodes.flatMap (·.content.children)).Nodup) (found : nodes[place]? = some node)
    (listed : id ∈ node.content.children) :
    (linkFrom first nodes arena).parentAt id = some (first + place) := by
  induction nodes generalizing first arena place with
  | nil => cases found
  | cons own rest previous =>
    rw [List.flatMap_cons, List.nodup_append'] at once
    obtain ⟨_, onceBehind, apart⟩ := once
    cases place with
    | zero =>
      obtain rfl : own = node := Option.some.inj found
      have free : ∀ other ∈ rest, id ∉ other.content.children := fun other member inOther =>
        apart listed (List.mem_flatMap_of_mem member inOther)
      rw [linkFrom, parentAt_linkFrom_of_not_listed _ _ (by rwa [size_adopt]) free,
        parentAt_adopt _ _ _ inside, if_pos listed, Nat.add_zero]
    | succ place =>
      rw [linkFrom, previous (first + 1) _ (by rwa [size_adopt]) onceBehind found]
      exact congrArg some (Nat.succ_add_eq_add_succ first place)

/-- What the nodes list, node by node. -/
def listing (arena : Arena) : List NodeId := arena.toList.flatMap (·.content.children)

theorem listing_eq_flatMap (arena : Arena) :
    arena.listing = (List.range arena.size).flatMap fun id => (arena.contentAt id).children := by
  have listing := congrArg (List.flatMap Content.children) arena.map_content
  rwa [List.flatMap_map, List.flatMap_map] at listing

/-- **Every node is told the one node that lists it.** -/
theorem parentAt_link {arena : Arena} {id parent : NodeId} {node : Node} (inside : id < arena.size)
    (once : arena.listing.Nodup) (found : arena[parent]? = some node)
    (listed : id ∈ node.content.children) : arena.link.parentAt id = some parent := by
  have place : arena.toList[parent]? = some node := by rwa [Array.getElem?_toList]
  have told := parentAt_linkFrom_of_listed 0 arena inside once place listed
  rwa [Nat.zero_add] at told

end Arena

namespace Reading

variable (reading : Reading)

theorem agrees_document : Arena.Agrees reading.document 1 reading.stored := by
  intro id behind _
  rw [content_document, if_neg (by rintro rfl; exact absurd behind (by decide))]

theorem children_root : reading.document.children Document.root = [reading.stored.size - 1] := by
  rw [Document.children, content_document, if_pos rfl]
  rfl

/-- **Every node but the root is a child exactly once.** -/
theorem listed_document :
    reading.document.listed.Perm (List.range' 1 (reading.document.nodes.size - 1)) := by
  have rooted := reading.size_stored
  have inner := Arena.lists_store reading.tree (Document.blank reading.text).nodes
    reading.agrees_document
  rw [← stored] at inner
  have shape :
      List.range reading.stored.size = Document.root :: Arena.ids 1 reading.stored.size := by
    obtain ⟨size, same⟩ := Nat.exists_eq_add_of_lt rooted
    rw [Arena.ids, List.range_eq_range', same]
    rfl
  rw [Document.listed, size_document, shape, List.flatMap_cons, children_root]
  exact List.perm_append_comm.trans inner

/-- The nodes before they are told their parents. -/
def unlinked : Arena :=
  reading.stored.modify Document.root
    ({ · with content := .branch .root [(.globalScope, reading.stored.size - 1)] })

theorem content_eq_unlinked (id : NodeId) :
    reading.document.content id = reading.unlinked.contentAt id :=
  (Arena.sameContents_link reading.unlinked).content id

theorem size_eq_unlinked : reading.document.nodes.size = reading.unlinked.size :=
  (Arena.sameContents_link reading.unlinked).size

theorem listed_eq_unlinked : reading.document.listed = reading.unlinked.listing := by
  rw [Arena.listing_eq_flatMap, ← size_eq_unlinked]
  refine List.flatMap_congr fun id _ => ?_
  rw [Document.children, content_eq_unlinked]

/-- The nodes that are listed are those behind the root. -/
theorem mem_listed_iff {id : NodeId} :
    id ∈ reading.document.listed ↔ 0 < id ∧ id < reading.document.nodes.size := by
  have rooted : 1 ≤ reading.document.nodes.size := by
    rw [size_document]
    exact Nat.le_of_lt reading.size_stored
  rw [reading.listed_document.mem_iff, List.mem_range'_1, Nat.add_sub_cancel' rooted]
  exact Iff.rfl

theorem nodup_listing : reading.unlinked.listing.Nodup := by
  rw [← listed_eq_unlinked, reading.listed_document.nodup_iff]
  exact List.nodup_range'

/-- A node that is not the root is a child. -/
theorem exists_parent {id : NodeId} (behind : 0 < id)
    (inside : id < reading.document.nodes.size) :
    ∃ parent, reading.document.IsChildOf id parent := by
  obtain ⟨parent, _, listed⟩ := List.mem_flatMap.mp (reading.mem_listed_iff.mpr ⟨behind, inside⟩)
  exact ⟨parent, listed⟩

variable {reading}

/-- A node with children is one of the nodes. -/
theorem parent_inside {child parent : NodeId}
    (listed : reading.document.IsChildOf child parent) :
    parent < reading.document.nodes.size := by
  by_contra outside
  rw [Document.IsChildOf, Document.children, Document.content,
    Array.getElem?_eq_none (Nat.not_lt.mp outside)] at listed
  exact absurd listed List.not_mem_nil

/-- A child is one of the nodes behind the root. -/
theorem child_inside {child parent : NodeId} (listed : reading.document.IsChildOf child parent) :
    0 < child ∧ child < reading.document.nodes.size := by
  rw [← mem_listed_iff]
  exact List.mem_flatMap_of_mem (List.mem_range.mpr (parent_inside listed)) listed

variable (reading)

/-- **The parent of a node is the node that lists it.** -/
theorem parent?_of_isChildOf {child parent : NodeId}
    (listed : reading.document.IsChildOf child parent) :
    reading.document.parent? child = some parent := by
  have inside := (child_inside listed).2
  have outer := parent_inside listed
  rw [size_eq_unlinked] at inside outer
  rw [Document.IsChildOf, Document.children, content_eq_unlinked, Arena.contentAt,
    Array.getElem?_eq_getElem outer] at listed
  exact Arena.parentAt_link inside reading.nodup_listing (Array.getElem?_eq_getElem outer) listed

/-- Storing leaves the root as it is. -/
theorem stored_root :
    reading.stored[Document.root]? = (Document.blank reading.text).nodes[Document.root]? :=
  (Arena.extends_store reading.tree _).1.node Document.root Nat.one_pos

/-- The root reaches over the whole text. -/
theorem span_root : reading.document.span Document.root = ⟨0, reading.text.bytes⟩ := by
  have shown := congrArg (Option.map Prod.snd)
    ((Arena.sameContents_link reading.unlinked).shown Document.root)
  rw [Option.map_map, Option.map_map, unlinked, Array.getElem?_modify, if_pos rfl, stored_root]
    at shown
  exact congrArg (·.getD (.empty 0)) shown

/-- The root has been told no parent. -/
theorem parent?_root : reading.document.parent? Document.root = none := by
  have rooted : Document.root < reading.unlinked.size := by
    rw [← size_eq_unlinked, size_document]
    exact Nat.lt_of_succ_lt reading.size_stored
  have free : ∀ node ∈ reading.unlinked.toList, Document.root ∉ node.content.children := by
    intro node member listed
    have inListing : Document.root ∈ reading.unlinked.listing :=
      List.mem_flatMap_of_mem member listed
    rw [← listed_eq_unlinked, mem_listed_iff] at inListing
    exact absurd inListing.1 (Nat.lt_irrefl 0)
  have untold : reading.unlinked.parentAt Document.root = none := by
    rw [Arena.parentAt, unlinked, Array.getElem?_modify, if_pos rfl, stored_root]
    rfl
  rw [← untold]
  exact Arena.parentAt_linkFrom_of_not_listed 0 _ rooted free

theorem parent?_iff (child parent : NodeId) :
    reading.document.parent? child = some parent ↔ reading.document.IsChildOf child parent := by
  refine ⟨fun told => ?_, reading.parent?_of_isChildOf⟩
  obtain root | behind := Nat.eq_zero_or_pos child
  · rw [root] at told
    exact absurd (reading.parent?_root.symm.trans told) nofun
  have inside : child < reading.document.nodes.size := by
    by_contra outside
    rw [Document.parent?, Array.getElem?_eq_none (Nat.not_lt.mp outside)] at told
    cases told
  obtain ⟨own, listed⟩ := reading.exists_parent behind inside
  have same := (reading.parent?_of_isChildOf listed).symm.trans told
  rwa [← Option.some.inj same]

/-- Children come before their parents, but for the child of the root. -/
theorem child_lt {child parent : NodeId} (notRoot : parent ≠ Document.root)
    (listed : reading.document.IsChildOf child parent) : child < parent := by
  have outer := parent_inside listed
  rw [size_document] at outer
  refine Arena.earlier_store reading.tree (Document.blank reading.text).nodes
    reading.agrees_document parent ?_ child listed
  show parent ∈ Arena.ids 1 reading.stored.size
  rw [Arena.ids, List.mem_range'_1, Nat.add_sub_cancel' (Nat.le_of_lt reading.size_stored)]
  exact ⟨Nat.pos_of_ne_zero notRoot, outer⟩

/-- **Every node is below the root**: the way up goes to larger numbers, and ends there. -/
theorem reached {id : NodeId} (inside : id < reading.document.nodes.size) :
    Relation.ReflTransGen (fun parent child => reading.document.IsChildOf child parent)
      Document.root id := by
  -- The induction is on the number of nodes from the node on.
  generalize left : reading.document.nodes.size - id = count
  induction count using Nat.strongRecOn generalizing id with
  | _ count previous =>
    obtain root | behind := Nat.eq_zero_or_pos id
    · rw [root]
      exact .refl
    obtain ⟨parent, listed⟩ := reading.exists_parent behind inside
    by_cases top : parent = Document.root
    · rw [top] at listed
      exact .single listed
    · have fewer : reading.document.nodes.size - parent < count := by
        rw [← left]
        exact Nat.sub_lt_sub_left inside (reading.child_lt top listed)
      exact (previous _ fewer (parent_inside listed) rfl).tail listed

/-- Only the root has been told no parent. -/
theorem parent?_eq_none_iff {id : NodeId} (inside : id < reading.document.nodes.size) :
    reading.document.parent? id = none ↔ id = Document.root := by
  refine ⟨fun untold => ?_, fun root => root ▸ reading.parent?_root⟩
  by_contra notRoot
  obtain ⟨parent, listed⟩ := reading.exists_parent (Nat.pos_of_ne_zero notRoot) inside
  exact absurd (untold.symm.trans (reading.parent?_of_isChildOf listed)) nofun

/-- **The nodes of a document are a tree**, if what was read is a global scope. -/
theorem isTree_document {span : Span} {items : List Part}
    (scope : reading.tree = .node .globalScope span items) : reading.document.IsTree where
  listed := reading.listed_document
  parent := reading.parent?_iff
  rootAlone _ := reading.parent?_eq_none_iff
  earlier _ notRoot _ := reading.child_lt notRoot
  reached _ := reading.reached
  rootChildren := by rw [children_root, size_document]
  globalScope := by
    have shown := reading.shows_document.1
    rw [scope] at shown
    obtain ⟨slots, content, _⟩ := shown
    rw [size_document, content]
    rfl

end Reading

/-- **The nodes of every text are a tree.** -/
theorem isTree_read (text : Text) : (read text).document.IsTree := by
  obtain ⟨items, last, derivation⟩ := Reading.derivation text
  exact (read text).isTree_document derivation.tree

end RSource
