/-
**Snapshots, seen from the tree.**

The snapshot of a node depends on the tree that the node shows and on the text alone
(`Document.Shows.snapshotWithin`), so the snapshot of a reading lists those of the statements read
(`Reading.children_snapshot`). Of the text it needs no more than lies in the spans: text may be put
behind it (`Tree.snapshot_append_left`), or in front of it when the tree is moved
(`Tree.snapshot_append_right`).
-/

import RSource.Proofs.Arena.Shown
import RSource.Proofs.Grammar.Shape
import RSource.Proofs.Text.Slices
import RSource.Proofs.Tree.Shift
import RSource.Snapshot

namespace RSource

/-! ### Snapshots moved on -/

namespace Snapshot

mutual

/-- The snapshot of the same thing `offset` bytes further on. -/
def shift (offset : Nat) : Snapshot → Snapshot
  | mk form label span attributes children =>
    mk form label (span.shift offset) attributes (shiftAll offset children)

def shiftAll (offset : Nat) : List Snapshot → List Snapshot
  | [] => []
  | first :: rest => shift offset first :: shiftAll offset rest

end

theorem shiftAll_eq_map (offset : Nat) (list : List Snapshot) :
    shiftAll offset list = list.map (shift offset) := by
  induction list with
  | nil => rfl
  | cons first rest previous => rw [shiftAll, previous, List.map_cons]

end Snapshot

/-! ### Snapshots of trees -/

/-- The part of a text in a span, if its ends lie between characters. -/
def Text.within (text : Text) (span : Span) : Text :=
  (text.slice? span.start span.stop).getD []

namespace Tree

/-- The label of a node over these parts. -/
def label (text : Text) (form : Form) (span : Span) (parts : List Part) : Text :=
  match form, childIn? .operator parts with
  | .operator _, some sign => text.within sign.span
  | _, _ => Text.trim (Text.firstLine (text.within span))

mutual

/-- The snapshot of a tree of a text. -/
def snapshot (text : Text) : Tree → Snapshot
  | leaf lexeme | cut lexeme _ =>
    .mk none (Text.trim (Text.firstLine (text.within lexeme.span))) lexeme.span
      [("kind", lexeme.kind.name)] []
  | node form span parts =>
    .mk (some form) (label text form span parts) span (Document.attributesOf (.branch form []))
      (partsSnapshots text parts)

def partSnapshots (text : Text) : Part → List Snapshot
  | .child _ tree => [snapshot text tree]
  | .problem _ _ => []

def partsSnapshots (text : Text) : List Part → List Snapshot
  | [] => []
  | part :: rest => partSnapshots text part ++ partsSnapshots text rest

end

theorem child_mem_of_childIn? {role : Role} {parts : List Part} {tree : Tree}
    (found : childIn? role parts = some tree) : .child role tree ∈ parts := by
  induction parts with
  | nil => cases found
  | cons part rest previous =>
    cases part with
    | child own first =>
      rw [childIn?] at found
      split at found
      · rename_i same
        cases found
        rw [eq_of_beq same]
        exact List.mem_cons_self
      · exact List.mem_cons_of_mem _ (previous found)
    | problem _ _ => exact List.mem_cons_of_mem _ (previous found)

/-! ### Text behind -/

section Behind

variable {text : Text} (others : Text)

theorem within_append_left {span : Span} (inside : span.stop ≤ text.bytes) :
    Text.within (text ++ others) span = text.within span := by
  rw [Text.within, Text.slice?_append_left others inside, Text.within]

mutual

/-- **What stands behind a tree does not show.** -/
theorem snapshot_append_left (tree : Tree)
    (inside : tree.All fun node => node.span.stop ≤ text.bytes) :
    tree.snapshot (text ++ others) = tree.snapshot text := by
  cases tree with
  | leaf lexeme | cut lexeme skipped =>
    have own : lexeme.span.stop ≤ text.bytes := inside _ .here
    rw [snapshot, snapshot, within_append_left others own]
  | node form span parts =>
    obtain ⟨own, below⟩ := (all_node_iff form span parts).mp inside
    have sameLabel : label (text ++ others) form span parts = label text form span parts := by
      unfold label
      split
      · rename_i sign found
        exact within_append_left others (below _ (child_mem_of_childIn? found) _ .here)
      · rw [within_append_left others (show span.stop ≤ text.bytes from own)]
    rw [snapshot, snapshot, sameLabel, partsSnapshots_append_left parts below]

theorem partSnapshots_append_left (part : Part)
    (inside : part.All fun node => node.span.stop ≤ text.bytes) :
    partSnapshots (text ++ others) part = partSnapshots text part := by
  cases part with
  | child role tree => rw [partSnapshots, partSnapshots, snapshot_append_left tree inside]
  | problem _ _ => rfl

theorem partsSnapshots_append_left (parts : List Part)
    (inside : ∀ part ∈ parts, part.All fun node => node.span.stop ≤ text.bytes) :
    partsSnapshots (text ++ others) parts = partsSnapshots text parts := by
  cases parts with
  | nil => rfl
  | cons part rest =>
    rw [List.forall_mem_cons] at inside
    rw [partsSnapshots, partsSnapshots, partSnapshots_append_left part inside.1,
      partsSnapshots_append_left rest inside.2]

end

end Behind

/-! ### Text in front -/

section Front

variable (before text : Text)

theorem within_append_right (span : Span) :
    Text.within (before ++ text) (span.shift before.bytes) = text.within span := by
  rw [Text.within, Span.shift, Text.slice?_append_right, Text.within]

theorem childIn?_shiftParts (offset : Nat) (role : Role) (parts : List Part) :
    childIn? role (shiftParts offset parts) = (childIn? role parts).map (shift offset) := by
  induction parts with
  | nil => rfl
  | cons part rest previous =>
    cases part with
    | child own tree =>
      rw [shiftParts_child, childIn?, childIn?, previous]
      split <;> rfl
    | problem _ _ => exact previous

theorem label_append_right (form : Form) (span : Span) (parts : List Part) :
    label (before ++ text) form (span.shift before.bytes) (shiftParts before.bytes parts)
      = label text form span parts := by
  unfold label
  rw [childIn?_shiftParts]
  cases childIn? .operator parts with
  | none => simp only [Option.map_none, within_append_right]
  | some sign => cases form <;> simp only [Option.map_some, span_shift, within_append_right]

mutual

/-- **What stands in front of a tree only moves it on.** -/
theorem snapshot_append_right (tree : Tree) :
    (tree.shift before.bytes).snapshot (before ++ text)
      = (tree.snapshot text).shift before.bytes := by
  cases tree with
  | leaf lexeme | cut lexeme skipped =>
    simp only [shift, snapshot, Snapshot.shift, Snapshot.shiftAll, Lexeme.span_shift,
      within_append_right, Lexeme.kind_shift]
  | node form span parts =>
    rw [shift_node, snapshot, snapshot, Snapshot.shift, label_append_right,
      partsSnapshots_append_right parts, Snapshot.shiftAll_eq_map]

theorem partSnapshots_append_right (part : Part) :
    partSnapshots (before ++ text) (shiftPart before.bytes part)
      = (partSnapshots text part).map (Snapshot.shift before.bytes) := by
  cases part with
  | child role tree =>
    rw [shiftPart, partSnapshots, partSnapshots, snapshot_append_right tree, List.map_singleton]
  | problem _ _ => rfl

theorem partsSnapshots_append_right (parts : List Part) :
    partsSnapshots (before ++ text) (shiftParts before.bytes parts)
      = (partsSnapshots text parts).map (Snapshot.shift before.bytes) := by
  cases parts with
  | nil => rfl
  | cons part rest =>
    rw [shiftParts, partsSnapshots, partsSnapshots, List.map_append,
      partSnapshots_append_right part, partsSnapshots_append_right rest]

end

end Front

theorem partsSnapshots_append (text : Text) (left right : List Part) :
    partsSnapshots text (left ++ right)
      = partsSnapshots text left ++ partsSnapshots text right := by
  induction left with
  | nil => rfl
  | cons part rest previous =>
    rw [List.cons_append, partsSnapshots, partsSnapshots, previous, List.append_assoc]

end Tree

/-! ### Snapshots of nodes -/

namespace Document

variable {document : Document}

theorem labelOf_leaf {id : NodeId} {token : Token} (content : document.content id = .leaf token) :
    document.labelOf id = Text.trim (Text.firstLine (document.text.within (document.span id))) := by
  unfold labelOf
  rw [content]
  rfl

theorem labelOf_branch {id : NodeId} {form : Form} {slots : List (Role × NodeId)}
    {parts : List Part} (content : document.content id = .branch form slots)
    (shown : document.ShowsParts slots parts) :
    document.labelOf id = Tree.label document.text form (document.span id) parts := by
  have sign := shown.lookup .operator
  unfold labelOf Tree.label
  rw [content]
  cases form with
  | operator operator =>
    simp only [Content.operator?, Content.child?, Content.slots]
    generalize slots.lookup .operator = slot, Tree.childIn? .operator parts = tree at sign
    cases sign with
    | none => rfl
    | some same => exact congrArg (Text.within document.text) same.span
  | _ => cases Tree.childIn? .operator parts <;> rfl

theorem attributesOf_branch (form : Form) (slots : List (Role × NodeId)) :
    attributesOf (.branch form slots) = attributesOf (.branch form []) := by
  cases form <;> rfl

mutual

/-- **The snapshot of a node is that of the tree it shows**, when enough levels are allowed. -/
theorem Shows.snapshotWithin {id : NodeId} {tree : Tree} {bound : Nat}
    (shown : document.Shows id tree) (enough : tree.nodes.length ≤ bound) :
    document.snapshotWithin bound id = tree.snapshot document.text := by
  cases tree with
  | leaf lexeme | cut lexeme skipped =>
    obtain ⟨bound, rfl⟩ : ∃ below, bound = below + 1 := Nat.exists_eq_add_of_le' enough
    rw [Document.snapshotWithin, Tree.snapshot, labelOf_leaf shown.1, shown.1, shown.2]
    rfl
  | node form span parts =>
    obtain ⟨slots, content, spanned, filled⟩ := shown
    rw [Tree.nodes, List.length_append, List.length_singleton] at enough
    obtain ⟨bound, rfl⟩ := Nat.exists_eq_add_of_le' (Nat.le_of_add_left_le enough)
    have below := filled.snapshots (Nat.le_of_succ_le_succ enough)
    rw [Document.snapshotWithin, Tree.snapshot, labelOf_branch content filled, content, spanned,
      attributesOf_branch, ← below, Content.children, List.map_map]
    rfl

theorem ShowsPart.snapshots {slots others : List (Role × NodeId)} {part : Part} {bound : Nat}
    (shown : document.ShowsPart slots others part)
    (enough : (Tree.partNodes part).length ≤ bound) :
    slots.map (fun slot => document.snapshotWithin bound slot.2)
      = Tree.partSnapshots document.text part
        ++ others.map (fun slot => document.snapshotWithin bound slot.2) := by
  cases part with
  | child role tree =>
    obtain ⟨id, rfl, same⟩ := shown
    rw [List.map_cons, same.snapshotWithin enough]
    rfl
  | problem found skipped =>
    obtain rfl : slots = others := shown
    rfl

theorem ShowsParts.snapshots {slots : List (Role × NodeId)} {parts : List Part} {bound : Nat}
    (shown : document.ShowsParts slots parts)
    (enough : (Tree.partsNodes parts).length ≤ bound) :
    slots.map (fun slot => document.snapshotWithin bound slot.2)
      = Tree.partsSnapshots document.text parts := by
  cases parts with
  | nil =>
    obtain rfl : slots = [] := shown
    rfl
  | cons part rest =>
    obtain ⟨others, here, behind⟩ := shown
    rw [Tree.partsNodes, List.length_append] at enough
    rw [here.snapshots (Nat.le_of_add_right_le enough),
      behind.snapshots (Nat.le_of_add_left_le enough)]
    rfl

end

end Document

/-- The snapshot of a document lists those of its statements. -/
theorem Document.children_snapshot (document : Document) :
    document.snapshot.children = document.statements.map document.snapshotOf := rfl

namespace Reading

theorem text_document (text : Text) : (read text).document.text = text := rfl

theorem length_nodes (reading : Reading) :
    reading.tree.nodes.length < reading.document.nodes.size := by
  have length := reading.shows_document.2.length_eq
  have more := reading.size_stored
  rw [Arena.ids, List.length_range'] at length
  rw [size_document]
  omega

theorem globalScope?_document (reading : Reading) :
    reading.document.globalScope? = some (reading.stored.size - 1) := by
  rw [Document.globalScope?, content_document, if_pos rfl]
  rfl

/-- **The snapshot of a text lists those of its statements.** -/
theorem children_snapshot {text : Text} {items : List Part} {last : Cursor Lexeme}
    (derivation : Derivation text items last) :
    (read text).document.snapshot.children = Tree.partsSnapshots text items := by
  have shown := (read text).shows_document.1
  have count := (read text).length_nodes
  rw [derivation.tree] at shown count
  obtain ⟨slots, content, _, filled⟩ := shown
  rw [Tree.nodes, List.length_append, List.length_singleton] at count
  have roles : slots.filter (fun slot => slot.1 == .statements) = slots := by
    refine List.filter_eq_self.mpr fun ⟨role, id⟩ member => ?_
    obtain ⟨tree, listed, _⟩ := filled.exists_of_slot member
    cases derivation.derives.isEntry_statements _ listed
    rfl
  have listed : (read text).document.statements = slots.map (·.2) := by
    simp only [Document.statements, globalScope?_document, content, Content.statements,
      Content.childrenIn, Content.slots, roles]
  have shots := filled.snapshots (Nat.le_of_succ_le (Nat.le_of_lt count))
  rw [text_document] at shots
  simpa only [Document.children_snapshot, Document.snapshotOf, listed, List.map_map,
    Function.comp_def] using shots

end Reading

end RSource
