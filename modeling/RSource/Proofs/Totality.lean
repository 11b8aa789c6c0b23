/-
**Nothing that is done with a text fails.**

With every check made that reading, drawing and searching rely on, each of them ends on every text,
and gives what the readers of the grammar and the tables of the document give: no keyword, bracket,
slice, node, line or comment is asked for where there is none, and nothing goes on for ever. Main
statement: `succeeds_read`.
-/

import RSource.Proofs.Checked.Views

namespace RSource

/-- Reading a text with every check made, and looking at what was read, ends without a fault. -/
structure Checked.Succeeds (text : Text) : Prop where
  /-- The text is read to its end. -/
  parsed : parse text = pure ((read text).document, (read text).problems)
  /-- Every node has a text. -/
  texts : ∀ id < (read text).document.nodes.size,
    nodeText (read text).document id = pure ((read text).document.textOf id)
  /-- The tree has a snapshot. -/
  shown : snapshot (read text).document = pure (read text).document.snapshot
  /-- It is drawn, with line numbers or without, and with labels of every width. -/
  drawn : ∀ options, draw options (read text).document
    = pure (Outline.draw options (read text).document)
  /-- A comment is looked for at every offset, -/
  comments : ∀ offset, commentAt (read text).document offset
    = pure ((read text).document.commentAt offset)
  /-- and so is the deepest node. -/
  nodes : ∀ offset, nodeAt (read text).document offset = pure ((read text).document.nodeAt offset)
  /-- Every problem has its line and its column. -/
  problems : ∀ problem ∈ (read text).problems,
    problemText (.ofText text) problem = pure (problem.textAt (.ofText text))

/-- **Every text is read, and everything read can be shown.** -/
theorem Checked.succeeds_read (text : Text) : Succeeds text where
  parsed := parse_eq text
  texts _ := nodeText_eq
  shown := snapshot_eq text
  drawn options := draw_eq options text
  comments := commentAt_eq text
  nodes := nodeAt_eq text
  problems problem _ := problemText_eq text problem

end RSource
