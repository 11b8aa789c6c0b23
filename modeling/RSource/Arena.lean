/-
**Nodes by number.**

`Arena.store` puts the nodes of a tree behind those already there, children before their parents, so
every node has the number of its place and a tree's own node is the last. Problems and the tokens
passed over leave no trace. `Arena.link` then tells each node which node lists it.
-/

import RSource.Tree

namespace RSource

/-- The place of a node among all nodes. -/
abbrev NodeId := Nat

/-- What a node holds: one token, or children in their roles. -/
inductive Content where
  | leaf (token : Token)
  | branch (form : Form) (slots : List (Role × NodeId))
  deriving Repr, DecidableEq, Inhabited

/-- One node of a tree. -/
structure Node where
  content : Content
  span : Span
  parent : Option NodeId
  deriving Repr, DecidableEq, Inhabited

namespace Content

/-- The name of a form, or of what has none: a token. -/
def nameOf : Option Form → String
  | some form => form.name
  | none => "Token"

def token? : Content → Option Token
  | leaf token => some token
  | branch _ _ => none

def form? : Content → Option Form
  | leaf _ => none
  | branch form _ => some form

def name (content : Content) : String := nameOf content.form?

def slots : Content → List (Role × NodeId)
  | leaf _ => []
  | branch _ slots => slots

/-- The operator that an operator node applies. -/
def operator? : Content → Option Operator
  | branch (.operator operator) _ => some operator
  | _ => none

/-- Whether an operator node has exactly the operands its operator takes. -/
def isComplete (content : Content) : Bool :=
  let has := fun role : Role => content.slots.any (·.1 == role)
  match content.operator? with
  | some operator => has .left != operator.isUnary && has .right
  | none => false

/-- The children, in the order of the text. -/
def children (content : Content) : List NodeId := content.slots.map (·.2)

/-- The first child in a role. -/
def child? (content : Content) (role : Role) : Option NodeId := content.slots.lookup role

/-- All children in a role. -/
def childrenIn (content : Content) (role : Role) : List NodeId :=
  (content.slots.filter fun slot => slot.1 == role).map (·.2)

/-- The statements of a scope; other nodes have none. -/
def statements (content : Content) : List NodeId :=
  match content with
  | branch .globalScope _ | branch .scope _ => content.childrenIn .statements
  | branch .simpleScope _ => content.childrenIn .statement
  | _ => []

/-- Whether a node stands for a value. -/
def isValue : Content → Bool
  | leaf token => token.kind.isLiteral || token.kind == .identifier
  | branch form _ => form.isValue

def isScope : Content → Bool
  | leaf _ => false
  | branch form _ => form.isScope

end Content

/-- The nodes of a tree, by number. -/
abbrev Arena := Array Node

namespace Arena

/-- Adds a node without a parent. -/
def add (arena : Arena) (content : Content) (span : Span) : Arena :=
  arena.push ⟨content, span, none⟩

mutual

/-- Adds the nodes of a tree, its own last. -/
def store : Tree → Arena → Arena
  | .leaf lexeme, arena => arena.add (.leaf lexeme.token) lexeme.span
  | .cut lexeme _, arena => arena.add (.leaf lexeme.token) lexeme.span
  | .node form span parts, arena =>
    let stored := storeParts parts arena
    stored.2.add (.branch form stored.1) span

/-- Adds the nodes of a part, and gives the slot it fills. -/
def storePart : Part → Arena → List (Role × NodeId) × Arena
  | .child role tree, arena =>
    let stored := store tree arena
    ([(role, stored.size - 1)], stored)
  | .problem _ _, arena => ([], arena)

def storeParts : List Part → Arena → List (Role × NodeId) × Arena
  | [], arena => ([], arena)
  | part :: rest, arena =>
    let first := storePart part arena
    let others := storeParts rest first.2
    (first.1 ++ others.1, others.2)

end

/-- Sets the parent of every node in `children`. -/
def adopt (arena : Arena) (parent : NodeId) (children : List NodeId) : Arena :=
  children.foldl (fun arena child => arena.modify child ({ · with parent := some parent })) arena

/-- Tells every child of the nodes from `first` on who its parent is. -/
def linkFrom (first : NodeId) (nodes : List Node) (arena : Arena) : Arena :=
  match nodes with
  | [] => arena
  | node :: rest => linkFrom (first + 1) rest (arena.adopt first node.content.children)

/-- Tells every child who its parent is. -/
def link (arena : Arena) : Arena := linkFrom 0 arena.toList arena

end Arena

end RSource
