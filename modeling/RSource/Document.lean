/-
**A text and its tree.**

A document is a text with the nodes and the comments found in it. Its root is node `0`; a document
that was read has the global scope below the root and behind all other nodes. `read` never fails:
what it met on the way is in `Reading.problems`.
-/

import RSource.Arena
import RSource.Text.Quoted
import RSource.Token.Lexer
import RSource.Grammar.Expression

namespace RSource

/-- A text with its nodes and its comments. -/
structure Document where
  text : Text
  nodes : Arena
  comments : List Token
  deriving Repr, Inhabited

namespace Document

/-- The root of every document. -/
def root : NodeId := 0

/-- A text of which nothing has been read. -/
def blank (text : Text) : Document :=
  { text, nodes := #[⟨.branch .root [], ⟨0, text.bytes⟩, none⟩], comments := [] }

/-- The node of this number. -/
def node? (document : Document) (id : NodeId) : Option Node := document.nodes[id]?

/-- The content of a node; a number that no node has counts as an empty root. -/
def content (document : Document) (id : NodeId) : Content :=
  ((document.nodes[id]?).map (·.content)).getD (.branch .root [])

/-- The span of a node. -/
def span (document : Document) (id : NodeId) : Span :=
  ((document.nodes[id]?).map (·.span)).getD (.empty 0)

def parent? (document : Document) (id : NodeId) : Option NodeId :=
  (document.nodes[id]?).bind (·.parent)

def children (document : Document) (id : NodeId) : List NodeId := (document.content id).children

/-- The text that a node covers, if its ends lie between characters. -/
def slice? (document : Document) (id : NodeId) : Option Text :=
  document.text.slice? (document.span id).start (document.span id).stop

/-- The text that a node covers. -/
def textOf (document : Document) (id : NodeId) : Text := (document.slice? id).getD []

def globalScope? (document : Document) : Option NodeId :=
  (document.content root).child? .globalScope

/-- The statements outside all braces. -/
def statements (document : Document) : List NodeId :=
  match document.globalScope? with
  | some scope => (document.content scope).statements
  | none => []

/-- Makes a global scope the child of the root and tells all nodes their parents. -/
def finish (document : Document) (nodes : Arena) (scope : NodeId) (comments : List Token) :
    Document :=
  let rooted := nodes.modify root
    ({ · with content := .branch .root [(.globalScope, scope)] })
  { document with nodes := Arena.link rooted, comments }

/-! ### Finding nodes and comments -/

/-- Goes down to the deepest node over `offset`, at most `bound` steps. -/
def descend (document : Document) (offset : Nat) : (bound : Nat) → NodeId → NodeId
  | 0, id => id
  | bound + 1, id =>
    match (document.children id).find? fun child => (document.span child).contains offset with
    | some child => document.descend offset bound child
    | none => id

/-- The deepest node over `offset`, or the root. -/
def nodeAt (document : Document) (offset : Nat) : NodeId :=
  document.descend offset document.nodes.size root

/-- A node and those above it, at most `bound` of them. -/
def ancestorsWithin (document : Document) : (bound : Nat) → NodeId → List NodeId
  | 0, _ => []
  | bound + 1, id =>
    id :: match document.parent? id with
      | some parent => document.ancestorsWithin bound parent
      | none => []

/-- A node and those above it, up to the root. -/
def path (document : Document) (id : NodeId) : List NodeId :=
  document.ancestorsWithin document.nodes.size id

/-- The nodes at and below a node, each before its children, at most `bound` levels deep. -/
def preorderWithin (document : Document) : (bound : Nat) → NodeId → List NodeId
  | 0, _ => []
  | bound + 1, id => id :: (document.children id).flatMap (document.preorderWithin bound)

/-- The nodes at and below a node, each before its children. -/
def preorder (document : Document) (id : NodeId) : List NodeId :=
  document.preorderWithin document.nodes.size id

/-- The nodes at and below the root, by number. -/
def reachable (document : Document) : List NodeId :=
  (document.preorder root).mergeSort (· ≤ ·)

/-- The kind and the number of a node. -/
def label (document : Document) (id : NodeId) : String := s!"{(document.content id).name}#{id}"

/-- The kind, the number, the bytes and the quoted text of a node. -/
def describe (document : Document) (id : NodeId) : String :=
  s!"{document.label id} {(document.span id).text} " ++ Text.quoted (document.textOf id)

/-- The number of comments that begin at or before `offset`, by halving the range between `low` and
`high`. Comments are in the order of the text. -/
def commentsUpTo (comments : Array Token) (offset : Nat) : (bound low high : Nat) → Nat
  | 0, low, _ => low
  | bound + 1, low, high =>
    if low < high then
      let middle := (low + high) / 2
      if (comments[middle]?).any (·.start ≤ offset) then
        commentsUpTo comments offset bound (middle + 1) high
      else commentsUpTo comments offset bound low middle
    else low

/-- The comment over `offset`. -/
def commentAt (document : Document) (offset : Nat) : Option Token :=
  let comments := document.comments.toArray
  let count := commentsUpTo comments offset (comments.size + 1) 0 comments.size
  if count = 0 then none
  else (comments[count - 1]?).filter (·.span.contains offset)

end Document

/-! ### Reading a text -/

def Lexeme.isWhitespace (lexeme : Lexeme) : Bool := lexeme.kind == .whitespace

def Lexeme.isComment (lexeme : Lexeme) : Bool := lexeme.kind == .comment

/-- The reader of a whole program. -/
def program : Reader Tree :=
  Grammar.globalScope (Grammar.expressionWithin Grammar.maxNesting 0)

/-- The tree of a program over these lexemes, in a text of `size` bytes. -/
def programOf (lexemes : List Lexeme) (size : Nat) : Tree :=
  let tokens := (lexemes.filter (!·.isWhitespace)).filter (!·.isComment)
  (program .outermost (.ofList tokens (.endMark size))).1

/-- A text that has been read. -/
structure Reading where
  text : Text
  /-- The tree of the global scope, with its problems. -/
  tree : Tree
  comments : List Token

/-- Reads a text. -/
def read (text : Text) : Reading :=
  let found := lexemes text
  { text, tree := programOf found text.bytes,
    comments := (found.filter (·.isComment)).map (·.token) }

namespace Reading

/-- What was met while reading, in order. -/
def problems (reading : Reading) : List Problem := reading.tree.problems

/-- The nodes of a reading. -/
def document (reading : Reading) : Document :=
  let blank := Document.blank reading.text
  let nodes := Arena.store reading.tree blank.nodes
  blank.finish nodes (nodes.size - 1) reading.comments

end Reading

end RSource
