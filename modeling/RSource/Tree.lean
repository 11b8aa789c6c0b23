/-
**Syntax trees that keep every token.**

A node is a form and its parts in the order of the text. A part is a child in a role, or a problem
that stands where a child is missing or where tokens were passed over, together with those tokens.
So a tree says everything about the reading that built it: the tokens it holds (`Tree.leaves`) and
the problems met on the way (`Tree.problems`), both in order.
-/

import RSource.Operator
import RSource.Problem

namespace RSource

/-- What a child is to its node. -/
inductive Role where
  | globalScope
  /-- One of the statements of a scope. -/
  | statements
  /-- The only statement of a body without braces. -/
  | statement
  | openCurly
  | closeCurly
  | expression
  | semicolon
  | operator
  | left
  | right
  | openBrace
  | closeBrace
  | openBracket
  | closeBracket
  | function
  | target
  /-- The argument list of a call or an index. -/
  | arguments
  /-- One of the arguments of a list. -/
  | argument
  | name
  | equals
  | value
  | comma
  | keyword
  | formals
  | condition
  | loopVariable
  | inKeyword
  | sequence
  | body
  | elseKeyword
  | elseBody
  deriving Repr, DecidableEq, Inhabited

/-- What a node with children is. -/
inductive Form where
  | root
  | globalScope
  /-- Statements between curly braces. -/
  | scope
  /-- A body without braces. -/
  | simpleScope
  | statement
  | operator (operator : Operator)
  | group
  | call
  | index
  | argumentList
  | argument
  | functionDefinition
  | ifElse
  | forLoop
  | whileLoop
  | repeatLoop
  | breakLoop
  | nextRound
  deriving Repr, DecidableEq, Inhabited

namespace Form

def name : Form → String
  | root => "Root"
  | globalScope => "GlobalScope"
  | scope => "Scope"
  | simpleScope => "SimpleScope"
  | statement => "Statement"
  | operator _ => "Operator"
  | group => "Group"
  | call => "Call"
  | index => "Index"
  | argumentList => "ArgumentList"
  | argument => "Argument"
  | functionDefinition => "FunctionDefinition"
  | ifElse => "If"
  | forLoop => "For"
  | whileLoop => "While"
  | repeatLoop => "Repeat"
  | breakLoop => "Break"
  | nextRound => "Next"

/-- Whether a node of the form stands for a value. -/
def isValue : Form → Bool
  | scope | operator _ | group | call | index | functionDefinition | ifElse | forLoop | whileLoop
  | repeatLoop => true
  | root | globalScope | simpleScope | statement | argumentList | argument | breakLoop
  | nextRound => false

def isScope : Form → Bool
  | globalScope | scope | simpleScope => true
  | _ => false

end Form

mutual

/-- A syntax tree. -/
inductive Tree where
  /-- One token. -/
  | leaf (lexeme : Lexeme)
  /-- The token that stands for an expression nested too deeply, with the tokens passed over behind
  it. -/
  | cut (lexeme : Lexeme) (skipped : List Lexeme)
  | node (form : Form) (span : Span) (parts : List Part)

/-- A part of a node. -/
inductive Part where
  | child (role : Role) (tree : Tree)
  /-- A problem, with the tokens passed over because of it. -/
  | problem (problem : Problem) (skipped : List Lexeme)

end

namespace Tree

def span : Tree → Span
  | leaf lexeme => lexeme.span
  | cut lexeme _ => lexeme.span
  | node _ span _ => span

end Tree

namespace Part

/-- The span of a child. -/
def span? : Part → Option Span
  | child _ tree => some tree.span
  | problem _ _ => none

/-- A child, or the problem found in its place. -/
def ofResult (role : Role) : Except Problem Tree → Part
  | .ok tree => child role tree
  | .error found => problem found []

/-- The smallest span over the children among `parts`, if there are any. -/
def hull? (parts : List Part) : Option Span := Span.hull? (parts.filterMap span?)

/-- Whether a part is a child in this role. -/
def isChildIn (role : Role) : Part → Bool
  | child own _ => own == role
  | problem _ _ => false

/-- Whether one of `parts` is a child. -/
def anyChild (parts : List Part) : Bool := parts.any fun part => part.span?.isSome

end Part

namespace Tree

/-- A node that reaches over its children. -/
def ofParts (form : Form) (parts : List Part) : Tree :=
  node form ((Part.hull? parts).getD (.empty 0)) parts

mutual

/-- The tokens of a tree, in order, without those passed over. -/
def leaves : Tree → List Lexeme
  | leaf lexeme => [lexeme]
  | cut lexeme _ => [lexeme]
  | node _ _ parts => partsLeaves parts

def partLeaves : Part → List Lexeme
  | .child _ tree => leaves tree
  | .problem _ _ => []

def partsLeaves : List Part → List Lexeme
  | [] => []
  | part :: rest => partLeaves part ++ partsLeaves rest

end

mutual

/-- The problems of a tree, in the order in which they were met. -/
def problems : Tree → List Problem
  | leaf _ => []
  | cut lexeme _ => [⟨.nestingTooDeep, lexeme.token⟩]
  | node _ _ parts => partsProblems parts

def partProblems : Part → List Problem
  | .child _ tree => problems tree
  | .problem found _ => [found]

def partsProblems : List Part → List Problem
  | [] => []
  | part :: rest => partProblems part ++ partsProblems rest

end

theorem partsLeaves_eq_flatMap (parts : List Part) :
    partsLeaves parts = parts.flatMap partLeaves := by
  induction parts with
  | nil => rfl
  | cons part rest previous => simp [partsLeaves, previous]

theorem partsProblems_eq_flatMap (parts : List Part) :
    partsProblems parts = parts.flatMap partProblems := by
  induction parts with
  | nil => rfl
  | cons part rest previous => simp [partsProblems, previous]

end Tree

end RSource
