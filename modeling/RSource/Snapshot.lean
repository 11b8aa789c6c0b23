/-
**Snapshots of a tree.**

A snapshot shows a node by its kind, a label on one line, its bytes, some attributes and its
children. In the snapshot of a document the statements stand directly below the root.
-/

import RSource.Document
import RSource.Text.Blank

namespace RSource

/-- A node as it is shown. -/
inductive Snapshot where
  /-- A token has no form. Attributes are in the order of their names. -/
  | mk (form : Option Form) (label : Text) (span : Span) (attributes : List (String × String))
      (children : List Snapshot)
  deriving Inhabited

namespace Snapshot

def form : Snapshot → Option Form
  | mk form _ _ _ _ => form

/-- The name of what is shown. -/
def kind (snapshot : Snapshot) : String := Content.nameOf snapshot.form

def label : Snapshot → Text
  | mk _ label _ _ _ => label

def span : Snapshot → Span
  | mk _ _ span _ _ => span

def attributes : Snapshot → List (String × String)
  | mk _ _ _ attributes _ => attributes

def children : Snapshot → List Snapshot
  | mk _ _ _ _ children => children

end Snapshot

namespace Document

/-- The label of a node: the sign of an operator, otherwise the first line of its text. -/
def labelOf (document : Document) (id : NodeId) : Text :=
  let content := document.content id
  match content.operator?, content.child? .operator with
  | some _, some sign => document.textOf sign
  | _, _ => Text.trim (Text.firstLine (document.textOf id))

/-- What is said of a node beside its label. -/
def attributesOf (content : Content) : List (String × String) :=
  match content with
  | .leaf token => [("kind", token.kind.name)]
  | .branch (.operator operator) _ =>
    [ ("association", operator.association.name), ("op", operator.name),
      ("precedence", toString operator.precedence) ]
  | .branch _ _ => []

/-- The snapshot of a node, at most `bound` levels deep. -/
def snapshotWithin (document : Document) : (bound : Nat) → NodeId → Snapshot
  | 0, id => .mk (document.content id).form? (document.labelOf id) (document.span id) [] []
  | bound + 1, id =>
    let content := document.content id
    .mk content.form? (document.labelOf id) (document.span id) (attributesOf content)
      (content.children.map (document.snapshotWithin bound))

/-- The snapshot of a node. -/
def snapshotOf (document : Document) (id : NodeId) : Snapshot :=
  document.snapshotWithin document.nodes.size id

/-- The number of statements, in words. -/
def countStatements (count : Nat) : String :=
  if count = 1 then "1 statement" else s!"{count} statements"

/-- The snapshot of a whole document. -/
def snapshot (document : Document) : Snapshot :=
  let statements := document.statements
  .mk (some .root) (countStatements statements.length).toList (document.span root)
    [("comments", toString document.comments.length)]
    (statements.map document.snapshotOf)

end Document

end RSource
