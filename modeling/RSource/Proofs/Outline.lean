/-
**An outline shows the whole tree.**

The snapshot of a tree shows every node of it, each before its children, as going down from the
node of its number meets them (`Document.Shows.preorder`, `Tree.length_levels_snapshot`). No label
holds a line feed: most are cut at the first one, and no operator has one
(`Reading.lineFeed_not_mem_label`). Main statement: `Reading.outline_whole`, an outline without line
numbers has a line for each node but the global scope, in this order, and the lines tell the depths,
the signs and the labels as far as they are shown, and with them which node lies below which.
-/

import RSource.Proofs.Checked.Views
import RSource.Proofs.Outline.Rows
import RSource.Proofs.Schema
import RSource.Proofs.Snapshots
import RSource.Proofs.Token.Closed

namespace RSource

/-! ### The nodes of a snapshot -/

/-- The kind and the span of what is shown. -/
def Snapshot.place (snapshot : Snapshot) : String × Span := (snapshot.kind, snapshot.span)

/-- The kind and the span of a node. -/
def Document.place (document : Document) (id : NodeId) : String × Span :=
  ((document.content id).name, document.span id)

namespace Tree

variable (text : Text)

mutual

/-- A snapshot shows every node of its tree. -/
theorem length_levels_snapshot (depth : Nat) (tree : Tree) :
    ((tree.snapshot text).levels depth).length = tree.nodes.length := by
  cases tree with
  | leaf lexeme | cut lexeme skipped => rfl
  | node form span parts =>
    rw [snapshot, Snapshot.levels, nodes, List.length_cons, List.length_append,
      length_levelsAll_partsSnapshots, List.length_singleton]

theorem length_levelsAll_partSnapshots (depth : Nat) (part : Part) :
    (Snapshot.levelsAll depth (partSnapshots text part)).length = (partNodes part).length := by
  cases part with
  | child role tree =>
    rw [partSnapshots, Snapshot.levelsAll, Snapshot.levelsAll, List.append_nil, partNodes,
      length_levels_snapshot]
  | problem found skipped => rfl

theorem length_levelsAll_partsSnapshots (depth : Nat) (parts : List Part) :
    (Snapshot.levelsAll depth (partsSnapshots text parts)).length = (partsNodes parts).length := by
  cases parts with
  | nil => rfl
  | cons part rest =>
    rw [partsSnapshots, Snapshot.levelsAll_append, List.length_append, partsNodes,
      List.length_append, length_levelsAll_partSnapshots, length_levelsAll_partsSnapshots]

end

variable {text} (property : Snapshot → Prop)

mutual

/-- A snapshot shows nothing but the nodes of its tree. -/
theorem forall_mem_levels_snapshot (depth : Nat) (tree : Tree)
    (holds : tree.All fun node => property (node.snapshot text)) :
    ∀ entry ∈ (tree.snapshot text).levels depth, property entry.2 := by
  cases tree with
  | leaf lexeme | cut lexeme skipped => exact List.forall_mem_singleton.mpr (holds _ .here)
  | node form span parts =>
    obtain ⟨own, below⟩ := (all_node_iff form span parts).mp holds
    rw [snapshot] at own ⊢
    rw [Snapshot.levels, List.forall_mem_cons]
    exact ⟨own, forall_mem_levelsAll_partsSnapshots (depth + 1) parts below⟩

theorem forall_mem_levelsAll_partSnapshots (depth : Nat) (part : Part)
    (holds : part.All fun node => property (node.snapshot text)) :
    ∀ entry ∈ Snapshot.levelsAll depth (partSnapshots text part), property entry.2 := by
  cases part with
  | child role tree =>
    rw [partSnapshots, Snapshot.levelsAll, Snapshot.levelsAll, List.append_nil]
    exact forall_mem_levels_snapshot depth tree holds
  | problem found skipped => exact nofun

theorem forall_mem_levelsAll_partsSnapshots (depth : Nat) (parts : List Part)
    (holds : ∀ part ∈ parts, part.All fun node => property (node.snapshot text)) :
    ∀ entry ∈ Snapshot.levelsAll depth (partsSnapshots text parts), property entry.2 := by
  cases parts with
  | nil => exact nofun
  | cons part rest =>
    rw [List.forall_mem_cons] at holds
    rw [partsSnapshots, Snapshot.levelsAll_append, List.forall_mem_append]
    exact ⟨forall_mem_levelsAll_partSnapshots depth part holds.1,
      forall_mem_levelsAll_partsSnapshots depth rest holds.2⟩

end

end Tree

namespace Document

variable {document : Document}

mutual

/-- **Going down from a node meets what the snapshot of its tree shows**, in the same order. -/
theorem Shows.preorder {id : NodeId} {tree : Tree} {bound : Nat} (depth : Nat)
    (shown : document.Shows id tree) (enough : tree.nodes.length ≤ bound) :
    (document.preorderWithin bound id).map document.place
      = ((tree.snapshot document.text).levels depth).map fun entry => entry.2.place := by
  cases tree with
  | leaf lexeme | cut lexeme skipped =>
    obtain ⟨bound, rfl⟩ : ∃ below, bound = below + 1 := Nat.exists_eq_add_of_le' enough
    rw [preorderWithin, children_eq_nil shown.1, List.flatMap_nil, List.map_singleton, place,
      shown.1, shown.2]
    rfl
  | node form span parts =>
    obtain ⟨slots, content, spanned, filled⟩ := shown
    rw [Tree.nodes, List.length_append, List.length_singleton] at enough
    obtain ⟨bound, rfl⟩ := Nat.exists_eq_add_of_le' (Nat.le_of_add_left_le enough)
    have below := filled.preorder (depth + 1) (Nat.le_of_succ_le_succ enough)
    have own : document.children id = slots.map (·.2) := by
      rw [children, content]
      rfl
    rw [preorderWithin, Tree.snapshot, Snapshot.levels, List.map_cons, List.map_cons, ← below, own,
      place, content, spanned]
    rfl

theorem ShowsPart.preorder {slots others : List (Role × NodeId)} {part : Part} {bound : Nat}
    (depth : Nat) (shown : document.ShowsPart slots others part)
    (enough : (Tree.partNodes part).length ≤ bound) :
    ((slots.map (·.2)).flatMap (document.preorderWithin bound)).map document.place
      = (Snapshot.levelsAll depth (Tree.partSnapshots document.text part)).map
          (fun entry => entry.2.place)
        ++ ((others.map (·.2)).flatMap (document.preorderWithin bound)).map document.place := by
  cases part with
  | child role tree =>
    obtain ⟨id, rfl, same⟩ := shown
    rw [List.map_cons, List.flatMap_cons, List.map_append, same.preorder depth enough,
      Tree.partSnapshots, Snapshot.levelsAll, Snapshot.levelsAll, List.append_nil]
  | problem found skipped =>
    obtain rfl : slots = others := shown
    rfl

theorem ShowsParts.preorder {slots : List (Role × NodeId)} {parts : List Part} {bound : Nat}
    (depth : Nat) (shown : document.ShowsParts slots parts)
    (enough : (Tree.partsNodes parts).length ≤ bound) :
    ((slots.map (·.2)).flatMap (document.preorderWithin bound)).map document.place
      = (Snapshot.levelsAll depth (Tree.partsSnapshots document.text parts)).map
          fun entry => entry.2.place := by
  cases parts with
  | nil =>
    obtain rfl : slots = [] := shown
    rfl
  | cons part rest =>
    obtain ⟨others, here, behind⟩ := shown
    rw [Tree.partsNodes, List.length_append] at enough
    rw [here.preorder depth (Nat.le_of_add_right_le enough),
      behind.preorder depth (Nat.le_of_add_left_le enough), Tree.partsSnapshots,
      Snapshot.levelsAll_append, List.map_append]

end

end Document

/-! ### Labels -/

namespace Text

theorem lineFeed_not_mem_firstLine (text : Text) : '\n' ∉ trim (firstLine text) := by
  intro member
  have inside : '\n' ∈ firstLine text := by
    have kept := (List.dropWhile_sublist _).subset (List.mem_reverse.mp member)
    exact (List.dropWhile_sublist _).subset (List.mem_reverse.mp kept)
  have fails := List.mem_takeWhile_imp inside
  exact absurd fails (by decide)

end Text

open Pattern in
/-- No operator holds the end of a line. -/
theorem lineFeed_not_mem_operator {text : Text} {lexeme : Lexeme} (member : lexeme ∈ lexemes text)
    (kind : lexeme.kind = .operator) : '\n' ∉ lexeme.text := by
  intro inside
  have ruled := kindOf?_of_isRuled member (by rw [kind]; rfl)
  obtain ⟨pattern, rule, matched⟩ := Lexer.exists_of_kindOf? ruled
  rw [kind] at rule
  -- only line breaks, names between backticks and strings go over the end of a line
  rcases Lexer.rule_of_lineEnd rule (c := '\n') rfl (holds_of_matches matched inside)
    with same | same | same <;> cases same

/-- The operator of a node is named by a token. -/
theorem Form.Admits.names_operator {operator : Operator} {parts : List Part} {sign : Tree}
    (admits : (Form.operator operator).Admits (fillingsOf parts))
    (member : .child .operator sign ∈ parts) : Filling.names operator sign.filling = true := by
  obtain ⟨fields, layout, fits⟩ := admits
  obtain ⟨field, listed, role, admitted⟩ := fits.exists_field (mem_fillingsOf member)
  rw [List.mem_singleton.mp layout] at listed
  rcases List.mem_append.mp listed with left | right
  · split at left
    · cases left
    · cases List.mem_singleton.mp left
      cases role
  · rcases List.mem_pair.mp right with rfl | rfl
    · exact admitted
    · cases role

namespace Reading

variable {text : Text}

/-- The sign of an operator node is on one line. -/
theorem lineFeed_not_mem_sign {operator : Operator} {span : Span} {parts : List Part} {sign : Tree}
    (within : (Tree.node (.operator operator) span parts).IsWithin (read text).tree)
    (found : Tree.childIn? .operator parts = some sign) : '\n' ∉ text.within sign.span := by
  have member := Tree.child_mem_of_childIn? found
  have names := (Reading.admitted within).names_operator member
  have below : sign.IsWithin (read text).tree := (Tree.IsWithin.inside member .here).trans within
  cases sign with
  | leaf lexeme | cut lexeme skipped =>
    have leaf := below.leaves_sublist.subset (List.mem_singleton_self lexeme)
    have listed := (mem_lexemes_of_mem_leaves leaf).1
    have kind : lexeme.kind = .operator := by
      have both := (Bool.and_eq_true _ _).mp names
      exact eq_of_beq both.1
    show '\n' ∉ (text.slice? lexeme.start lexeme.stop).getD []
    rw [slice?_of_mem_lexemes listed]
    exact lineFeed_not_mem_operator listed kind
  | node form span parts => cases names

/-- **No label of a snapshot holds a line feed.** -/
theorem lineFeed_not_mem_label {node : Tree} (within : node.IsWithin (read text).tree) :
    '\n' ∉ (node.snapshot text).label := by
  cases node with
  | leaf lexeme | cut lexeme skipped => exact Text.lineFeed_not_mem_firstLine _
  | node form span parts =>
    show '\n' ∉ Tree.label text form span parts
    unfold Tree.label
    split
    · rename_i operator sign found
      exact lineFeed_not_mem_sign within found
    · exact Text.lineFeed_not_mem_firstLine _

theorem lineFeed_not_mem_countStatements (count : Nat) :
    '\n' ∉ (Document.countStatements count).toList := by
  unfold Document.countStatements
  split
  · decide
  · have digits : '\n' ∉ (toString count).toList := by
      rw [Nat.toString_eq_ofList_toDigits, String.toList_ofList]
      intro member
      exact absurd (Nat.isDigit_of_mem_toDigits (by decide) (by decide) member) (by decide)
    simpa [toString, String.toList_append] using digits

/-! ### Documents -/

variable (text)

/-- Each line of the outline of a text says what its node is and how deep it stands. -/
theorem says_rows (width : Nat) :
    List.Forall₂ (Text.Says Outline.readRow?) (Outline.lines ⟨false, width⟩ (read text).document)
      (Outline.rows width (read text).document.snapshot) := by
  obtain ⟨items, last, derivation⟩ := Reading.derivation text
  refine Outline.says_rows ?_
  rw [Snapshot.levels_eq, children_snapshot derivation, List.forall_mem_cons]
  refine ⟨lineFeed_not_mem_countStatements _,
    Tree.forall_mem_levelsAll_partsSnapshots (fun shot => '\n' ∉ shot.label) 1 items ?_⟩
  have all : (read text).tree.All fun node => '\n' ∉ (node.snapshot text).label :=
    fun _ within => lineFeed_not_mem_label within
  rw [derivation.tree] at all
  exact ((Tree.all_node_iff _ _ _).mp all).2

/-- The rows of a text are read back from its outline. -/
theorem readLines?_draw (width : Nat) :
    Text.readLines? Outline.readRow? (Outline.draw ⟨false, width⟩ (read text).document)
      = some (Outline.rows width (read text).document.snapshot) := by
  rw [Outline.draw_eq_ended]
  exact Text.readLines?_ended (says_rows text width)

/-- The root is the only node that no tree was stored for. -/
theorem length_nodes_eq (reading : Reading) :
    reading.tree.nodes.length = reading.document.nodes.size - 1 := by
  have length := reading.shows_document.2.length_eq
  rw [Arena.ids, List.length_range'] at length
  rw [size_document, length]

/-- **An outline has a line for each node but the global scope.** -/
theorem length_rows (width : Nat) :
    (Outline.rows width (read text).document.snapshot).length
      = (read text).document.nodes.size - 1 := by
  obtain ⟨items, last, derivation⟩ := Reading.derivation text
  have count := (read text).length_nodes_eq
  rw [derivation.tree, Tree.nodes, List.length_append, List.length_singleton] at count
  rw [Outline.rows, List.length_map, Snapshot.levels_eq, children_snapshot derivation,
    List.length_cons, Tree.length_levelsAll_partsSnapshots, count]

/-- **The snapshot shows the nodes below the global scope as going down from it meets them.** -/
theorem preorder_snapshot :
    ∃ scope, (read text).document.globalScope? = some scope
      ∧ ((read text).document.snapshot.levels 0).tail.map (fun entry => entry.2.place)
        = ((read text).document.preorder scope).tail.map (read text).document.place := by
  obtain ⟨items, last, derivation⟩ := Reading.derivation text
  have count := (read text).length_nodes
  have whole := (read text).shows_document.1.preorder 0 (Nat.le_of_lt count)
  refine ⟨_, globalScope?_document (read text), ?_⟩
  rw [Document.preorder, List.map_tail, List.map_tail, whole, derivation.tree, Snapshot.levels_eq,
    children_snapshot derivation]
  rfl

/-- **An outline has a line for each node but the global scope**, which is read as its row. -/
theorem exists_lines_draw (width : Nat) :
    ∃ lines, Text.endedLines? (Outline.draw ⟨false, width⟩ (read text).document) = some lines
      ∧ lines.length = (read text).document.nodes.size - 1
      ∧ lines.map Outline.readRow?
        = (Outline.rows width (read text).document.snapshot).map some := by
  have each := says_rows text width
  refine ⟨_, ?_, each.length_eq.trans (length_rows text width), Text.map_eq_of_says each⟩
  rw [Outline.draw_eq_ended]
  exact Text.endedLines?_of_says each

variable {text}

/-- Equal outlines have equal rows. -/
theorem rows_eq_of_draw_eq {other : Text} {first second : Nat}
    (same : Outline.draw ⟨false, first⟩ (read text).document
      = Outline.draw ⟨false, second⟩ (read other).document) :
    Outline.rows first (read text).document.snapshot
      = Outline.rows second (read other).document.snapshot := by
  apply Option.some.inj
  rw [← readLines?_draw, ← readLines?_draw, same]

/-- **An outline shows the whole tree, one node on each line.** Below the root the snapshot of a
text has the kinds and the spans that going down from the global scope meets. It is drawn, and each
node but that scope has its line, which tells its depth, its sign and its label as far as it is
shown. So outlines that are the same, of any texts and with labels cut anywhere, have the same rows,
and the same nodes below the same nodes. -/
theorem outline_whole (text : Text) :
    (∃ scope, (read text).document.globalScope? = some scope
      ∧ ((read text).document.snapshot.levels 0).tail.map (fun entry => entry.2.place)
        = ((read text).document.preorder scope).tail.map (read text).document.place)
    ∧ ∀ width,
      Checked.draw ⟨false, width⟩ (read text).document
        = pure (Outline.draw ⟨false, width⟩ (read text).document)
      ∧ (∃ lines, Text.endedLines? (Outline.draw ⟨false, width⟩ (read text).document) = some lines
        ∧ lines.length = (read text).document.nodes.size - 1
        ∧ lines.map Outline.readRow?
          = (Outline.rows width (read text).document.snapshot).map some)
      ∧ ∀ other second,
        Outline.draw ⟨false, width⟩ (read text).document
          = Outline.draw ⟨false, second⟩ (read other).document →
        Outline.rows width (read text).document.snapshot
          = Outline.rows second (read other).document.snapshot
        ∧ Outline.figure width (read text).document.snapshot
          = Outline.figure second (read other).document.snapshot := by
  refine ⟨preorder_snapshot text, fun width =>
    ⟨Checked.draw_eq ⟨false, width⟩ text, exists_lines_draw text width, ?_⟩⟩
  intro other second same
  have rows := rows_eq_of_draw_eq same
  exact ⟨rows, Outline.figure_eq_of_rows rows⟩

end Reading

end RSource
