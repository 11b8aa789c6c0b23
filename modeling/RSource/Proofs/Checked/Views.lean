/-
**Looking at a text that was read, with every check made.**

What is done with a finished tree goes through its nodes by number, cuts the text at their spans and
looks lines and comments up in tables. Here it is written out with the checks of `Routines`: a
number has to be that of a node or an entry, a slice has to end between characters, and no offset,
index or count may fall below zero. The ways down the tree are least fixed points.

Main statements: `nodeText_eq`, `snapshot_eq`, `draw_eq`, `commentAt_eq`, `nodeAt_eq` and
`problemText_eq`, all of it succeeds on every text. On the way down a tree the numbers fall
(`Reading.rank_lt`), so that it ends.
-/

import RSource.Outline
import RSource.Proofs.Checked.Program
import RSource.Proofs.Comments
import RSource.Proofs.Spans
import RSource.Proofs.Text.Lines

namespace RSource

namespace Checked

/-- What is left of `total` without `part`. -/
def less (total part : Nat) : Run Nat :=
  if part ≤ total then return total - part else throw .belowZero

/-- The text that a node covers. -/
def nodeText (document : Document) (id : NodeId) : Run Text := do
  let node ← entry document.nodes id
  slice document.text node.span.start node.span.stop

/-! ### Snapshots -/

/-- The label of a node. -/
def labelOf (document : Document) (id : NodeId) : Run Text := do
  let node ← entry document.nodes id
  match node.content.operator?, node.content.child? .operator with
  | some _, some sign => nodeText document sign
  | _, _ => return Text.trim (Text.firstLine (← nodeText document id))

end Checked

/-- The snapshot of a node and all below it. -/
def Document.checkedSnapshotOf (id : NodeId) (document : Document) : Checked.Run Snapshot := do
  let node ← Checked.entry document.nodes id
  let label ← Checked.labelOf document id
  let children ← node.content.children.mapM fun child => document |>.checkedSnapshotOf child
  return .mk node.content.form? label node.span (Document.attributesOf node.content) children
partial_fixpoint

namespace Checked

/-- The statements outside all braces. -/
def statementsOf (document : Document) : Run (List NodeId) := do
  let root ← entry document.nodes Document.root
  match root.content.child? .globalScope with
  | some scope => return (← entry document.nodes scope).content.statements
  | none => return []

/-- The snapshot of a whole document. -/
def snapshot (document : Document) : Run Snapshot := do
  let root ← entry document.nodes Document.root
  let children ← (← statementsOf document).mapM (document.checkedSnapshotOf ·)
  return .mk (some .root) (Document.countStatements children.length).toList root.span
    [("comments", toString document.comments.length)] children

/-! ### Lines -/

/-- Where a number stands in an ordered row: the place of an entry equal to it, or else the place
at which it could be put in. -/
def seek (row : Array Nat) (sought : Nat) : Except Nat Nat :=
  match row.toList.findIdx? (· == sought) with
  | some place => .ok place
  | none => .error (row.toList.takeWhile (· < sought)).length

/-- The line that an offset lies on: the one that starts there, or else the one before the place at
which the offset could be put in. -/
def lineAt (lines : LineTable) (offset : Nat) : Run Nat :=
  match seek lines.starts offset with
  | .ok line => return line
  | .error place => lower place

/-- The line and the column of an offset. -/
def positionAt (lines : LineTable) (offset : Nat) : Run Position := do
  let line ← lineAt lines offset
  return ⟨line, ← less offset (← entry lines.starts line)⟩

/-- A problem with its line and column, both counted from one. -/
def problemText (lines : LineTable) (problem : Problem) : Run String := do
  let position ← positionAt lines problem.token.start
  return s!"{position.line + 1}:{position.column + 1}: {problem.kind.message} "
    ++ s!"(found {problem.token.kind.description})"

/-! ### Outlines -/

/-- What stands in front of every line of an outline. -/
def margin (lines? : Option LineTable) (span : Span) : Run Text := do
  match lines? with
  | some lines => return Outline.lineNumber ((← positionAt lines span.start).line + 1)
  | none => return []

mutual

/-- The lines of the child with the number `index` among `count` children, and of all below it. -/
def nodeLines (lines? : Option LineTable) (width : Nat) (indentation : Text) (index count : Nat) :
    Snapshot → Run (List Text)
  | shown@(.mk _ _ span _ children) => do
    let isLast := index == (← lower count)
    let front ← margin lines? span
    let below ← childLines lines? width (indentation ++ Outline.indent isLast) children.length 0
      children
    return (front ++ indentation ++ Outline.connector isLast ++ ' ' :: Outline.headline width shown)
      :: below

/-- The lines of the children from the number `index` on. -/
def childLines (lines? : Option LineTable) (width : Nat) (indentation : Text) (count index : Nat) :
    List Snapshot → Run (List Text)
  | [] => return []
  | child :: rest => do
    let first ← nodeLines lines? width indentation index count child
    return first ++ (← childLines lines? width indentation count (index + 1) rest)

end

/-- The drawing of a whole document. -/
def draw (options : Outline.Options) (document : Document) : Run Text := do
  let lines? := if options.showLineNumbers then some (LineTable.ofText document.text) else none
  let shown ← snapshot document
  let below ← childLines lines? options.labelWidth [] shown.children.length 0 shown.children
  return (Outline.headline options.labelWidth shown :: below).flatMap (· ++ ['\n'])

/-! ### Finding comments and nodes -/

/-- The comment over `offset`: of those that begin at or before it, the last. -/
def commentAt (document : Document) (offset : Nat) : Run (Option Token) := do
  match (document.comments.takeWhile (·.start ≤ offset)).length with
  | 0 => return none
  | last + 1 =>
    let comment ← entry document.comments.toArray last
    let span ← between comment.start comment.stop
    return if span.contains offset then some comment else none

end Checked

/-- Goes down to the deepest node over `offset`. -/
def Document.checkedDescend (offset : Nat) (id : NodeId) (document : Document) :
    Checked.Run NodeId := do
  let node ← Checked.entry document.nodes id
  let inner ← node.content.children.findM? fun child =>
    return (← Checked.entry document.nodes child).span.contains offset
  match inner with
  | some child => document |>.checkedDescend offset child
  | none => return id
partial_fixpoint

namespace Checked

/-- The deepest node over `offset`, or the root. -/
def nodeAt (document : Document) (offset : Nat) : Run NodeId :=
  document.checkedDescend offset Document.root

end Checked

/-! ### The way down a tree -/

namespace Document

/-- A number that falls on every way down: that of the node, or for the root one above all. -/
def rank (document : Document) (id : NodeId) : Nat :=
  if id = root then document.nodes.size else id

end Document

namespace Reading

variable {reading : Reading}

theorem rank_pos (reading : Reading) (id : NodeId) : 0 < reading.document.rank id := by
  rw [Document.rank]
  split
  · rw [size_document]
    exact Nat.lt_trans Nat.one_pos reading.size_stored
  · rename_i notRoot
    exact Nat.pos_of_ne_zero notRoot

theorem rank_le_size {id : NodeId} (inside : id < reading.document.nodes.size) :
    reading.document.rank id ≤ reading.document.nodes.size := by
  rw [Document.rank]
  split
  · exact Nat.le_refl _
  · exact Nat.le_of_lt inside

/-- **From a node to its children the rank falls.** -/
theorem rank_lt {child parent : NodeId} (listed : reading.document.IsChildOf child parent) :
    reading.document.rank child < reading.document.rank parent := by
  obtain ⟨behind, inside⟩ := child_inside listed
  have below : child ≠ Document.root := Nat.ne_of_gt behind
  rw [Document.rank, Document.rank, if_neg below]
  split
  · exact inside
  · rename_i notRoot
    exact reading.child_lt notRoot listed

end Reading

namespace Checked

/-! ### Nodes -/

/-- A node that is there is found, with its content and its span. -/
theorem exists_entry {document : Document} {id : NodeId} (inside : id < document.nodes.size) :
    ∃ node, entry document.nodes id = pure node ∧ node.content = document.content id
      ∧ node.span = document.span id := by
  have found := Array.getElem?_eq_getElem inside
  refine ⟨document.nodes[id], by rw [entry, found], ?_, ?_⟩
  · rw [Document.content, found]
    rfl
  · rw [Document.span, found]
    rfl

/-- The child in a role is a child. -/
theorem isChildOf_of_child? {document : Document} {child parent : NodeId} {role : Role}
    (found : (document.content parent).child? role = some child) :
    document.IsChildOf child parent := by
  obtain ⟨before, behind, slots, _⟩ := List.lookup_eq_some_iff.mp found
  rw [Document.IsChildOf, Document.children, Content.children, slots]
  simp

/-- Statements are children. -/
theorem isChildOf_of_mem_statements {document : Document} {child parent : NodeId}
    (member : child ∈ (document.content parent).statements) : document.IsChildOf child parent := by
  have inRole {role : Role} (member : child ∈ (document.content parent).childrenIn role) :
      document.IsChildOf child parent :=
    (List.filter_sublist.map _).subset member
  unfold Content.statements at member
  split at member
  · exact inRole member
  · exact inRole member
  · exact inRole member
  · exact absurd member List.not_mem_nil

theorem findM?_eq {α : Type} {test : α → Run Bool} {value : α → Bool} {list : List α}
    (each : ∀ item ∈ list, test item = pure (value item)) :
    list.findM? test = pure (list.find? value) := by
  induction list with
  | nil => rfl
  | cons item rest previous =>
    rw [List.forall_mem_cons] at each
    rw [List.findM?, each.1, pure_bind, List.find?_cons, previous each.2]
    cases value item <;> rfl

section Read

variable {text : Text} {id : NodeId}

theorem nodeText_eq (inside : id < (read text).document.nodes.size) :
    nodeText (read text).document id = pure ((read text).document.textOf id) := by
  obtain ⟨node, found, _, span⟩ := exists_entry inside
  obtain ⟨window, there⟩ := Reading.sliced inside
  rw [nodeText, found, pure_bind, span, Document.textOf, there]
  exact slice_of_slice? there

theorem root_inside (text : Text) : Document.root < (read text).document.nodes.size := by
  rw [Reading.size_document]
  exact Nat.lt_trans Nat.one_pos (read text).size_stored

/-! ### Snapshots -/

theorem labelOf_eq (inside : id < (read text).document.nodes.size) :
    labelOf (read text).document id = pure ((read text).document.labelOf id) := by
  obtain ⟨node, found, content, _⟩ := exists_entry inside
  have own : (do return Text.trim (Text.firstLine (← nodeText (read text).document id)))
      = (pure (Text.trim (Text.firstLine ((read text).document.textOf id))) : Run Text) := by
    rw [nodeText_eq inside, pure_bind]
  rw [labelOf, found, pure_bind, content, Document.labelOf]
  cases ((read text).document.content id).operator? with
  | none => exact own
  | some operator =>
    cases named : ((read text).document.content id).child? .operator with
    | none => exact own
    | some sign => exact nodeText_eq (Reading.child_inside (isChildOf_of_child? named)).2

/-- A snapshot that may go deep enough shows all that is below a node. -/
theorem snapshotOf_eq_within (bound : Nat) (inside : id < (read text).document.nodes.size)
    (enough : (read text).document.rank id ≤ bound) :
    (read text).document.checkedSnapshotOf id
      = pure ((read text).document.snapshotWithin bound id) := by
  induction bound generalizing id with
  | zero => exact absurd ((read text).rank_pos id) (Nat.not_lt.mpr enough)
  | succ bound previous =>
    obtain ⟨node, found, content, span⟩ := exists_entry inside
    have below : node.content.children.mapM ((read text).document.checkedSnapshotOf ·)
        = pure (node.content.children.map ((read text).document.snapshotWithin bound)) := by
      refine mapM_eq fun child member => ?_
      have listed : (read text).document.IsChildOf child id := by rwa [content] at member
      exact previous (Reading.child_inside listed).2
        (Nat.le_of_lt_succ (Nat.lt_of_lt_of_le (Reading.rank_lt listed) enough))
    rw [Document.checkedSnapshotOf, found, pure_bind, labelOf_eq inside, pure_bind, below,
      pure_bind, content, span]
    rfl

/-- **Every node has a snapshot.** -/
theorem snapshotOf_eq (inside : id < (read text).document.nodes.size) :
    (read text).document.checkedSnapshotOf id = pure ((read text).document.snapshotOf id) :=
  snapshotOf_eq_within _ inside (Reading.rank_le_size inside)

theorem statementsOf_eq (text : Text) :
    statementsOf (read text).document = pure (read text).document.statements := by
  obtain ⟨root, found, content, _⟩ := exists_entry (root_inside text)
  rw [statementsOf, found, pure_bind, content, Document.statements, Document.globalScope?]
  cases named : ((read text).document.content Document.root).child? .globalScope with
  | none => rfl
  | some scope =>
    obtain ⟨node, there, own, _⟩ :=
      exists_entry (Reading.child_inside (isChildOf_of_child? named)).2
    simp only [there, pure_bind, own]

/-- Statements are among the nodes. -/
theorem statement_inside (member : id ∈ (read text).document.statements) :
    id < (read text).document.nodes.size := by
  rw [Document.statements] at member
  split at member
  · exact (Reading.child_inside (isChildOf_of_mem_statements member)).2
  · exact absurd member List.not_mem_nil

/-- **A text that was read has a snapshot.** -/
theorem snapshot_eq (text : Text) :
    snapshot (read text).document = pure (read text).document.snapshot := by
  obtain ⟨root, found, _, span⟩ := exists_entry (root_inside text)
  have children : (read text).document.statements.mapM ((read text).document.checkedSnapshotOf ·)
      = pure ((read text).document.statements.map (read text).document.snapshotOf) :=
    mapM_eq fun _ member => snapshotOf_eq (statement_inside member)
  rw [snapshot, found, pure_bind, statementsOf_eq, pure_bind, children, pure_bind,
    List.length_map, span]
  rfl

/-! ### Nodes over an offset -/

/-- A way down that may go deep enough comes to its end. -/
theorem descend_eq (offset bound : Nat) (inside : id < (read text).document.nodes.size)
    (enough : (read text).document.rank id ≤ bound) :
    (read text).document.checkedDescend offset id
      = pure ((read text).document.descend offset bound id) := by
  induction bound generalizing id with
  | zero => exact absurd ((read text).rank_pos id) (Nat.not_lt.mpr enough)
  | succ bound previous =>
    obtain ⟨node, found, content, _⟩ := exists_entry inside
    have chosen : (node.content.children.findM? fun child => do
        return (← entry (read text).document.nodes child).span.contains offset)
        = pure (node.content.children.find? fun child =>
          ((read text).document.span child).contains offset) := by
      refine findM?_eq fun child member => ?_
      have listed : (read text).document.IsChildOf child id := by rwa [content] at member
      obtain ⟨_, there, _, span⟩ := exists_entry (Reading.child_inside listed).2
      rw [there, pure_bind, span]
    rw [Document.checkedDescend, found, pure_bind, chosen, pure_bind, Document.descend,
      Document.children, ← content]
    cases inner : node.content.children.find? fun child =>
      ((read text).document.span child).contains offset with
    | none => rfl
    | some child =>
      have listed : (read text).document.IsChildOf child id := by
        rw [Document.IsChildOf, Document.children, ← content]
        exact List.mem_of_find?_eq_some inner
      exact previous (Reading.child_inside listed).2
        (Nat.le_of_lt_succ (Nat.lt_of_lt_of_le (Reading.rank_lt listed) enough))

/-- **At every offset a node is found.** -/
theorem nodeAt_eq (text : Text) (offset : Nat) :
    nodeAt (read text).document offset = pure ((read text).document.nodeAt offset) :=
  descend_eq offset _ (root_inside text) (Reading.rank_le_size (root_inside text))

/-! ### Comments over an offset -/

/-- The comments in front of the place where the search ends are those that begin at or before the
offset. -/
theorem commentAt_eq (text : Text) (offset : Nat) :
    commentAt (read text).document offset = pure ((read text).document.commentAt offset) := by
  have ordered := Reading.comments_in_order text
  obtain ⟨count, halved, searched⟩ := Document.exists_narrows_commentAt ordered offset
  rw [commentAt, searched]
  generalize (read text).document.comments = comments at ordered halved
  have passed : Narrows (comments.toArray.map (·.start)) offset
      (comments.takeWhile (·.start ≤ offset)).length
      (comments.takeWhile (·.start ≤ offset)).length := by
    have starts : (comments.map (·.start)).Pairwise (· < ·) := List.pairwise_map.mpr ordered
    have test : ∀ start ∈ comments.map (·.start), decide (start ≤ offset) = true ↔ start ≤ offset :=
      fun _ _ => decide_eq_true_iff
    have narrows := narrows_takeWhile starts test
    rwa [List.takeWhile_map, List.length_map, ← List.map_toArray] at narrows
  rw [← passed.unique halved]
  cases count : (comments.takeWhile (·.start ≤ offset)).length with
  | zero => rfl
  | succ last =>
    rw [count] at passed
    obtain ⟨_, _, found⟩ := passed.front last (Nat.lt_succ_self last)
    rw [Array.getElem?_map] at found
    obtain ⟨comment, there, _⟩ := Option.map_eq_some_iff.mp found
    have looked : entry comments.toArray last = pure comment := by rw [entry, there]
    have upright : between comment.start comment.stop = pure comment.span :=
      if_pos (Nat.le_add_right _ _)
    rw [List.getElem?_toArray] at there
    simp only [looked, upright, pure_bind, Nat.add_sub_cancel, there]
    rw [if_neg (Nat.succ_ne_zero last)]
    rfl

end Read

/-! ### Lines -/

/-- An ordered row is cut where a number stands in it. -/
theorem narrows_seek {row : Array Nat} (ordered : row.toList.Pairwise (· < ·)) (sought : Nat) :
    match seek row sought with
    | .ok place => Narrows row sought (place + 1) (place + 1)
    | .error place => Narrows row sought place place := by
  rw [seek]
  cases found : row.toList.findIdx? (· == sought) with
  | none =>
    have test : ∀ entry ∈ row.toList, decide (entry < sought) = true ↔ entry ≤ sought := by
      intro entry member
      have other := List.findIdx?_eq_none_iff.mp found entry member
      rw [decide_eq_true_iff, Nat.lt_iff_le_and_ne, and_iff_left (ne_of_beq_false other)]
    exact narrows_takeWhile ordered test
  | some place =>
    obtain ⟨inside, same, _⟩ := List.findIdx?_eq_some_iff_getElem.mp found
    have here : (row[place]?).any (· ≤ sought) = true := by
      rw [← Array.getElem?_toList, List.getElem?_eq_getElem inside, Option.any_some,
        eq_of_beq same]
      exact decide_eq_true (Nat.le_refl sought)
    have next : ¬(row[place + 1]?).any (· ≤ sought) = true := by
      intro small
      obtain ⟨entry, there, within⟩ := (Option.any_eq_true _ _).mp small
      rw [← Array.getElem?_toList] at there
      obtain ⟨further, rfl⟩ := List.getElem?_eq_some_iff.mp there
      have larger := List.pairwise_iff_getElem.mp ordered _ _ inside further (Nat.lt_succ_self _)
      rw [eq_of_beq same] at larger
      exact absurd (of_decide_eq_true within) (Nat.not_le.mpr larger)
    exact ((Narrows.start row sought).raise ordered here).reduce ordered next

theorem lineAt_eq (text : Text) (offset : Nat) :
    lineAt (.ofText text) offset = pure ((LineTable.ofText text).lineOf offset) := by
  have found := LineTable.narrows_lineOf text offset
  have sought := narrows_seek (LineTable.starts_ordered text) offset
  rw [lineAt]
  cases place : seek (LineTable.ofText text).starts offset with
  | ok line =>
    rw [place] at sought
    rw [Nat.succ.inj (sought.unique found)]
  | error place =>
    rw [place] at sought
    rw [sought.unique found]
    rfl

/-- **Every offset has a line and a column.** -/
theorem positionAt_eq (text : Text) (offset : Nat) :
    positionAt (.ofText text) offset = pure ((LineTable.ofText text).positionOf offset) := by
  obtain ⟨start, early, found⟩ :=
    (LineTable.narrows_lineOf text offset).front _ (Nat.lt_succ_self _)
  have there : entry (LineTable.ofText text).starts ((LineTable.ofText text).lineOf offset)
      = pure start := by rw [entry, found]
  have column : less offset start = pure (offset - start) := if_pos early
  rw [positionAt, lineAt_eq, pure_bind, there, pure_bind, column, pure_bind, LineTable.positionOf,
    LineTable.lineStart?, found, Option.getD_some]

/-- **Every problem can be shown with its line and its column.** -/
theorem problemText_eq (text : Text) (problem : Problem) :
    problemText (.ofText text) problem = pure (problem.textAt (.ofText text)) := by
  rw [problemText, positionAt_eq, pure_bind]
  rfl

/-! ### Outlines -/

theorem margin_eq (options : Outline.Options) (text : Text) (span : Span) :
    margin (if options.showLineNumbers then some (.ofText text) else none) span
      = pure (Outline.margin (if options.showLineNumbers then some (.ofText text) else none)
        span) := by
  split
  · rw [margin, positionAt_eq]
    rfl
  · rfl

mutual

/-- **A child among others is drawn.** -/
theorem nodeLines_eq {lines? : Option LineTable} (width : Nat)
    (margins : ∀ span, margin lines? span = pure (Outline.margin lines? span))
    (indentation : Text) {index count : Nat} (more : index < count) (shown : Snapshot) :
    nodeLines lines? width indentation index count shown
      = pure (Outline.nodeLines lines? width indentation (index + 1 == count) shown) := by
  obtain ⟨others, rfl⟩ := Nat.exists_eq_succ_of_ne_zero (Nat.ne_of_gt (Nat.lt_of_le_of_lt
    (Nat.zero_le _) more))
  match shown with
  | .mk form label span attributes children =>
    have below := childLines_eq width margins (indentation ++ Outline.indent (index == others))
      children (Nat.zero_add children.length)
    have last : (index + 1 == others + 1) = (index == others) := by simp
    rw [nodeLines, lower, pure_bind, margins, pure_bind, below, pure_bind, Outline.nodeLines, last]

/-- **Children are drawn one by one, the last as such.** -/
theorem childLines_eq {lines? : Option LineTable} (width : Nat)
    (margins : ∀ span, margin lines? span = pure (Outline.margin lines? span))
    (indentation : Text) {index count : Nat} (children : List Snapshot)
    (all : index + children.length = count) :
    childLines lines? width indentation count index children
      = pure (Outline.childLines lines? width indentation children) := by
  match children with
  | [] => rfl
  | child :: rest =>
    rw [List.length_cons] at all
    have last : (index + 1 == count) = rest.isEmpty := by
      rw [← all]
      cases rest <;> simp
    rw [childLines, nodeLines_eq width margins indentation (by omega) child, pure_bind,
      childLines_eq width margins indentation rest (by omega), pure_bind, Outline.childLines, last]

end

/-- **A text that was read is drawn, with line numbers or without.** -/
theorem draw_eq (options : Outline.Options) (text : Text) :
    draw options (read text).document = pure (Outline.draw options (read text).document) := by
  have below := childLines_eq options.labelWidth (margin_eq options text) []
    (read text).document.snapshot.children (Nat.zero_add _)
  rw [draw, snapshot_eq, pure_bind]
  exact congrArg (· >>= _) below

end Checked

end RSource
