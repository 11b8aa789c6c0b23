/-
**Where the nesting of expressions ends.**

A way from the root of a document to one of its nodes enters an expression inside another whenever
the slot it passes nests one (`Form.nests`). `document.Reaches id depth` says that a way to the node
enters `depth` of them. The nodes that storing adds have the depths that the tree gives them
(`Arena.reaches_store`), and there is one way to each node (`Reading.reaches_unique`). Main
statement: `limitsNesting_read`, in every text no way enters more than `maxNesting + 1` expressions,
the innermost of so many is one token, and these tokens are those of the problems that something is
nested too deeply, in the same order.
-/

import RSource.Proofs.Arena.Ownership
import RSource.Proofs.Gaps
import RSource.Proofs.Grammar.Levels

namespace RSource

open Grammar

/-! ### The depth of a node -/

/-- Whether the child in a role is an expression inside that of the node. -/
def Content.nests (content : Content) (role : Role) : Bool := content.form?.any (·.nests role)

namespace Document

/-- A way from the root to a node that enters so many expressions. -/
inductive Reaches (document : Document) : NodeId → (depth : Nat) → Prop where
  | root : Reaches document root 0
  | child {parent child : NodeId} {role : Role} {depth : Nat} : Reaches document parent depth →
      (role, child) ∈ (document.content parent).slots →
      Reaches document child (depth + ((document.content parent).nests role).toNat)

/-- A node that is an expression inside `depth` others. -/
def IsInside (document : Document) (id : NodeId) (depth : Nat) : Prop :=
  ∃ parent role, document.Reaches parent depth ∧ (role, id) ∈ (document.content parent).slots
    ∧ (document.content parent).nests role = true

/-- What the limit on the nesting of expressions makes of a document and its problems. -/
structure LimitsNesting (document : Document) (problems : List Problem) : Prop where
  /-- No way from the root enters more expressions than one beyond the limit. -/
  bounded : ∀ id depth, document.Reaches id depth → depth ≤ maxNesting + 1
  /-- An expression beyond the limit is one token. -/
  cut : ∀ id, document.IsInside id maxNesting → document.isLeaf id = true
  /-- These tokens are those of the problems that something is nested too deeply, in order. -/
  recorded : ∃ ids : List NodeId, ids.Pairwise (· < ·)
    ∧ (∀ id, id ∈ ids ↔ document.IsInside id maxNesting)
    ∧ ids.map (fun id => (document.content id).token?)
      = (problems.filter (·.kind = .nestingTooDeep)).map fun found => some found.token

/-- A node at a depth shows a tree. -/
def ShowsAt (document : Document) (id : NodeId) (entry : Nat × Tree) : Prop :=
  document.Reaches id entry.1 ∧ document.Shows id entry.2

theorem IsInside.reaches {document : Document} {id : NodeId} {depth : Nat}
    (inside : document.IsInside id depth) : document.Reaches id (depth + 1) := by
  obtain ⟨parent, role, reached, slot, nests⟩ := inside
  have entered := Reaches.child reached slot
  rwa [nests] at entered

end Document

/-! ### The depths in a tree -/

namespace Tree

mutual

/-- A tree and everything below it, children before their parents, each at its depth. -/
def nodesAt (depth : Nat) : Tree → List (Nat × Tree)
  | leaf lexeme => [(depth, leaf lexeme)]
  | cut lexeme skipped => [(depth, cut lexeme skipped)]
  | node form span parts => partsNodesAt form depth parts ++ [(depth, node form span parts)]

def partNodesAt (form : Form) (depth : Nat) : Part → List (Nat × Tree)
  | .child role tree => nodesAt (depth + (form.nests role).toNat) tree
  | .problem _ _ => []

def partsNodesAt (form : Form) (depth : Nat) : List Part → List (Nat × Tree)
  | [] => []
  | part :: rest => partNodesAt form depth part ++ partsNodesAt form depth rest

end

theorem partsNodesAt_eq_flatMap (form : Form) (depth : Nat) (parts : List Part) :
    partsNodesAt form depth parts = parts.flatMap (partNodesAt form depth) := by
  induction parts with
  | nil => rfl
  | cons part rest previous => rw [partsNodesAt, previous, List.flatMap_cons]

/-- A child is as much deeper as it has fewer levels left. -/
theorem steps_add_room (form : Form) (levels : Nat) (role : Role) :
    (form.nests role).toNat + form.room levels role = levels + 1 := by
  rw [Form.room]
  cases form.nests role with
  | true => exact Nat.add_comm 1 levels
  | false => exact Nat.zero_add _

/-- **In a tree that fits, all depths are within the limit, and what lies at the limit is cut.** -/
theorem Fits.depth {tree : Tree} {room : Nat} (fits : tree.Fits room) {depth limit : Nat}
    (sum : depth + room = limit) {entry : Nat × Tree} (member : entry ∈ tree.nodesAt depth) :
    entry.1 ≤ limit ∧ (entry.1 = limit → ∃ lexeme skipped, entry.2 = .cut lexeme skipped) := by
  induction fits generalizing depth with
  | leaf levels lexeme =>
    obtain rfl := List.mem_singleton.mp member
    exact ⟨by omega, fun same => absurd same (by omega)⟩
  | cut lexeme skipped =>
    obtain rfl := List.mem_singleton.mp member
    exact ⟨by omega, fun _ => ⟨lexeme, skipped, rfl⟩⟩
  | @node levels form span parts _ _ previous =>
    rw [nodesAt, partsNodesAt_eq_flatMap, List.mem_append, List.mem_flatMap,
      List.mem_singleton] at member
    rcases member with ⟨part, listed, below⟩ | rfl
    · cases part with
      | child role tree =>
        have steps := steps_add_room form levels role
        exact previous role tree listed (by omega) below
      | problem found skipped => exact absurd below List.not_mem_nil
    · exact ⟨by omega, fun same => absurd same (by omega)⟩

/-- **In a tree that fits, the tokens at the limit are those of its problems.** -/
theorem Fits.recorded {tree : Tree} {room : Nat} (fits : tree.Fits room) {depth limit : Nat}
    (sum : depth + room = limit) :
    ((tree.nodesAt depth).filter (·.1 = limit)).map (·.2.token?)
      = (tree.problems.filter (·.kind = .nestingTooDeep)).map fun found => some found.token := by
  induction fits generalizing depth with
  | leaf levels lexeme =>
    have above : depth ≠ limit := by omega
    simp [nodesAt, above]
  | cut lexeme skipped =>
    have same : depth = limit := by omega
    simp [nodesAt, same, token?]
  | @node levels form span parts _ other previous =>
    have above : depth ≠ limit := by omega
    have own : [(depth, Tree.node form span parts)].filter (·.1 = limit) = [] := by simp [above]
    rw [nodesAt, List.filter_append, own, List.append_nil, partsNodesAt_eq_flatMap, problems_node,
      partsProblems_eq_flatMap, List.filter_flatMap, List.filter_flatMap, List.map_flatMap,
      List.map_flatMap]
    refine List.flatMap_congr fun part listed => ?_
    cases part with
    | child role tree =>
      have steps := steps_add_room form levels role
      exact previous role tree listed (by omega)
    | problem found skipped =>
      have kind := other found skipped listed
      simp [partNodesAt, partProblems, kind]

end Tree

/-! ### The depths of stored nodes -/

namespace Arena

variable {document : Document}

mutual

/-- **The nodes that storing adds have the depths of the subtrees they show.** -/
theorem reaches_store (tree : Tree) (arena : Arena) (depth : Nat)
    (copies : Copies document arena.size (store tree arena))
    (reached : document.Reaches ((store tree arena).size - 1) depth) :
    List.Forall₂ document.ShowsAt (ids arena.size (store tree arena).size)
      (tree.nodesAt depth) := by
  cases tree with
  | leaf lexeme | cut lexeme skipped =>
    have last := copies.last (Nat.le_refl _)
    have one : ids arena.size (arena.add (.leaf lexeme.token) lexeme.span).size = [arena.size] := by
      simp [ids]
    rw [store, size_add, Nat.add_sub_cancel] at reached
    rw [store, one]
    exact .cons ⟨reached, last⟩ .nil
  | node form span parts =>
    have own := (shows_store (.node form span parts) arena copies).1
    rw [store] at copies reached own ⊢
    have more := extends_storeParts parts arena
    have last := copies.last more.size
    simp only [size_add, Nat.add_sub_cancel] at reached own ⊢
    have inner := reaches_storeParts parts arena form depth
      (copies.sub (Nat.le_refl _) (extends_add _ _ _)) fun slot member => by
        have entered := Document.Reaches.child reached
          (show (slot.1, slot.2) ∈ _ by rw [last.1]; exact member)
        rwa [last.1] at entered
    rw [Tree.nodesAt, ids_succ more.size]
    exact List.rel_append inner (.cons ⟨reached, own⟩ .nil)

theorem reaches_storePart (part : Part) (arena : Arena) (form : Form) (depth : Nat)
    (copies : Copies document arena.size (storePart part arena).2)
    (reached : ∀ slot ∈ (storePart part arena).1,
      document.Reaches slot.2 (depth + (form.nests slot.1).toNat)) :
    List.Forall₂ document.ShowsAt (ids arena.size (storePart part arena).2.size)
      (Tree.partNodesAt form depth part) := by
  cases part with
  | child role tree => exact reaches_store tree arena _ copies (reached _ List.mem_cons_self)
  | problem found skipped =>
    rw [show ids arena.size (storePart (.problem found skipped) arena).2.size = [] by
      simp [ids, storePart]]
    exact .nil

theorem reaches_storeParts (parts : List Part) (arena : Arena) (form : Form) (depth : Nat)
    (copies : Copies document arena.size (storeParts parts arena).2)
    (reached : ∀ slot ∈ (storeParts parts arena).1,
      document.Reaches slot.2 (depth + (form.nests slot.1).toNat)) :
    List.Forall₂ document.ShowsAt (ids arena.size (storeParts parts arena).2.size)
      (Tree.partsNodesAt form depth parts) := by
  cases parts with
  | nil =>
    rw [show ids arena.size (storeParts [] arena).2.size = [] by simp [ids, storeParts]]
    exact .nil
  | cons part rest =>
    rw [storeParts] at copies reached ⊢
    simp only [List.forall_mem_append] at copies reached ⊢
    have before := extends_storePart part arena
    have after := extends_storeParts rest (storePart part arena).2
    rw [← ids_append before.size after.size]
    exact List.rel_append
      (reaches_storePart part arena form depth (copies.sub (Nat.le_refl _) after) reached.1)
      (reaches_storeParts rest _ form depth (copies.sub before.size (.refl _)) reached.2)

end

end Arena

namespace Reading

variable (reading : Reading)

/-! ### One way to each node -/

/-- The node of the global scope is not inside an expression. -/
theorem reaches_globalScope : reading.document.Reaches (reading.stored.size - 1) 0 := by
  have content := reading.content_document Document.root
  rw [if_pos rfl] at content
  have entered := Document.Reaches.child .root (show (Role.globalScope, reading.stored.size - 1) ∈ _
    by rw [content]; exact List.mem_cons_self)
  rwa [content] at entered

theorem showsAt_document :
    List.Forall₂ reading.document.ShowsAt (Arena.ids 1 reading.stored.size)
      (reading.tree.nodesAt 0) :=
  Arena.reaches_store reading.tree (Document.blank reading.text).nodes 0 reading.copies_document
    reading.reaches_globalScope

variable {reading}

/-- A node is in one slot of its parent. -/
theorem role_unique {parent child : NodeId} {role other : Role}
    (slot : (role, child) ∈ (reading.document.content parent).slots)
    (again : (other, child) ∈ (reading.document.content parent).slots) : role = other := by
  have once : reading.document.listed.Nodup :=
    reading.listed_document.nodup_iff.mpr List.nodup_range'
  have listed : reading.document.IsChildOf child parent := List.mem_map_of_mem slot
  have distinct : ((reading.document.content parent).slots.map (·.2)).Nodup :=
    (List.nodup_flatMap.mp once).1 parent (List.mem_range.mpr (parent_inside listed))
  exact congrArg Prod.fst (List.inj_on_of_nodup_map distinct slot again rfl)

/-- **All ways to a node enter as many expressions.** -/
theorem reaches_unique {id : NodeId} {depth other : Nat} (one : reading.document.Reaches id depth)
    (another : reading.document.Reaches id other) : depth = other := by
  induction one generalizing other with
  | root =>
    generalize top : Document.root = id at another
    cases another with
    | root => rfl
    | child _ slot =>
      subst top
      exact absurd (child_inside (List.mem_map_of_mem slot)).1 (Nat.lt_irrefl 0)
  | @child parent child role depth _ slot previous =>
    cases another with
    | root => exact absurd (child_inside (List.mem_map_of_mem slot)).1 (Nat.lt_irrefl 0)
    | @child second _ own depth reached again =>
      have listed := reading.parent?_of_isChildOf (List.mem_map_of_mem slot)
      have also := reading.parent?_of_isChildOf (List.mem_map_of_mem again)
      obtain rfl : parent = second := Option.some.inj (listed.symm.trans also)
      rw [role_unique slot again, previous reached]

variable (reading)

/-- The nodes that are reached behind the root were stored. -/
theorem mem_ids_of_reaches {id : NodeId} {depth : Nat} (reached : reading.document.Reaches id depth)
    (behind : id ≠ Document.root) : id ∈ Arena.ids 1 reading.stored.size := by
  cases reached with
  | root => exact absurd rfl behind
  | child _ slot =>
    have inside := child_inside (List.mem_map_of_mem slot)
    rw [size_document] at inside
    rw [Arena.ids, List.mem_range'_1, Nat.add_sub_cancel' (Nat.le_of_lt reading.size_stored)]
    exact inside

/-- Such a node shows a tree at its depth. -/
theorem exists_entry {id : NodeId} {depth : Nat} (reached : reading.document.Reaches id depth)
    (behind : id ≠ Document.root) :
    ∃ entry ∈ reading.tree.nodesAt 0, entry.1 = depth ∧ reading.document.Shows id entry.2 := by
  obtain ⟨place, early, same⟩ := List.getElem_of_mem (reading.mem_ids_of_reaches reached behind)
  have late : place < (reading.tree.nodesAt 0).length := reading.showsAt_document.length_eq ▸ early
  have shown := reading.showsAt_document.get early late
  simp only [List.get_eq_getElem, same] at shown
  exact ⟨_, List.getElem_mem late, reaches_unique shown.1 reached, shown.2⟩

variable (fits : reading.tree.Fits (maxNesting + 1))

include fits

theorem depth_le {id : NodeId} {depth : Nat} (reached : reading.document.Reaches id depth) :
    depth ≤ maxNesting + 1 := by
  by_cases top : id = Document.root
  · subst top
    rw [reaches_unique reached .root]
    exact Nat.zero_le _
  · obtain ⟨entry, member, rfl, _⟩ := reading.exists_entry reached top
    exact (fits.depth (Nat.zero_add _) member).1

/-- A node at the limit is one token. -/
theorem exists_token {id : NodeId} (reached : reading.document.Reaches id (maxNesting + 1)) :
    ∃ token, reading.document.content id = .leaf token := by
  have behind : id ≠ Document.root := by
    rintro rfl
    exact absurd (reaches_unique reached .root) (Nat.succ_ne_zero _)
  obtain ⟨entry, member, same, shown⟩ := reading.exists_entry reached behind
  obtain ⟨lexeme, skipped, cut⟩ := (fits.depth (Nat.zero_add _) member).2 same
  rw [cut] at shown
  exact ⟨lexeme.token, shown.1⟩

/-- The nodes at the limit are those that are entered there: what is entered before is a token. -/
theorem isInside_iff (id : NodeId) :
    reading.document.IsInside id maxNesting ↔ reading.document.Reaches id (maxNesting + 1) := by
  refine ⟨fun inside => inside.reaches, fun reached => ?_⟩
  generalize limit : maxNesting + 1 = depth at reached
  cases reached with
  | root => exact absurd limit (Nat.succ_ne_zero _)
  | @child parent _ role depth above slot =>
    cases nests : (reading.document.content parent).nests role with
    | true =>
      rw [nests] at limit
      obtain rfl : maxNesting = depth := Nat.succ.inj limit
      exact ⟨parent, role, above, slot, nests⟩
    | false =>
      rw [nests] at limit
      obtain rfl : maxNesting + 1 = depth := limit
      obtain ⟨token, content⟩ := reading.exists_token fits above
      rw [content] at slot
      exact absurd slot List.not_mem_nil

/-- The nodes at the limit hold the tokens of the problems, in order. -/
theorem exists_ids : ∃ ids : List NodeId, ids.Pairwise (· < ·)
    ∧ (∀ id, id ∈ ids ↔ reading.document.Reaches id (maxNesting + 1))
    ∧ ids.map (fun id => (reading.document.content id).token?)
      = (reading.problems.filter (·.kind = .nestingTooDeep)).map fun found => some found.token := by
  classical
  -- The nodes and the entries are filtered alike, so they still show one another.
  have alike : Relator.LiftFun reading.document.ShowsAt (· ↔ ·)
      (fun id => (decide (reading.document.Reaches id (maxNesting + 1)) : Prop))
      (fun entry => (decide (entry.1 = maxNesting + 1) : Prop)) := by
    intro id entry shows
    simp only [decide_eq_true_eq]
    exact ⟨fun reached => reaches_unique shows.1 reached, fun same => same ▸ shows.1⟩
  have deepest := List.rel_filter alike reading.showsAt_document
  refine ⟨(Arena.ids 1 reading.stored.size).filter
    (fun id => decide (reading.document.Reaches id (maxNesting + 1))), ?_, fun id => ?_, ?_⟩
  · exact (List.pairwise_lt_range' (s := 1)).filter _
  · rw [List.mem_filter, decide_eq_true_iff, and_iff_right_iff_imp]
    refine fun reached => reading.mem_ids_of_reaches reached ?_
    rintro rfl
    exact absurd (reaches_unique reached .root) (Nat.succ_ne_zero _)
  · rw [problems, ← fits.recorded (Nat.zero_add _), ← List.forall₂_eq_eq_eq,
      List.forall₂_map_left_iff, List.forall₂_map_right_iff]
    exact deepest.imp fun _ _ shows => shows.2.token?

end Reading

/-- **Expressions are nested as deeply as the limit allows, and cut there.** -/
theorem limitsNesting_read (text : Text) :
    (read text).document.LimitsNesting (read text).problems where
  bounded id depth := (read text).depth_le (Reading.fits text)
  cut id inside := by
    obtain ⟨token, content⟩ := (read text).exists_token (Reading.fits text) inside.reaches
    rw [Document.isLeaf, content]
    rfl
  recorded := by
    obtain ⟨ids, ordered, members, tokens⟩ := (read text).exists_ids (Reading.fits text)
    refine ⟨ids, ordered, fun id => ?_, tokens⟩
    rw [members, (read text).isInside_iff (Reading.fits text)]

end RSource
