/-
**Keyword constructs.**

The constructs that a keyword begins are expressions. Their heads are read with line breaks ignored;
their bodies are scopes, in braces or not.
-/

import RSource.Grammar.Scope
import RSource.Grammar.Argument

namespace RSource.Grammar

open Reader

/-- What a keyword begins. -/
inductive Construct where
  | ifElse
  | forLoop
  | whileLoop
  | repeatLoop
  | functionDefinition
  | breakLoop
  | nextRound
  deriving Repr, DecidableEq, Inhabited

/-- The construct that a word begins. -/
def Construct.ofWord? (word : Text) : Option Construct :=
  [ ("if".toList, ifElse), ("for".toList, forLoop), ("while".toList, whileLoop),
    ("repeat".toList, repeatLoop), ("function".toList, functionDefinition),
    ("break".toList, breakLoop), ("next".toList, nextRound) ].lookup word

/-- An expression in a role, or the problem that an operand is missing. -/
def operand (expression : Reader (Option Tree)) (role : Role) : Reader Part := do
  match ← expression with
  | some tree => return .child role tree
  | none => return .problem (← missing .operandExpected) []

/-- The opening brace of a head and, where there is one, the contents of the head. `contents` gets
the offset at which the brace ends. -/
def head (contents : Nat → Reader (List Part)) : Reader (List Part) := do
  match ← expect .openBrace .openBraceExpected with
  | .ok opening =>
    let parts ← ignoringLineBreaks (contents opening.span.stop)
    return .child .openBrace opening :: parts
  | .error found => return [.problem found []]

/-- The closing brace of a head. -/
def closeHead : Reader Part := do
  return .ofResult .closeBrace (← closing .brace)

/-- What stands in the head of an `if` or a `while`. -/
def condition (expression : Reader (Option Tree)) : Reader (List Part) := do
  let tested ← operand expression .condition
  return [tested, ← closeHead]

/-- What stands in the head of a `for`. -/
def iteration (expression : Reader (Option Tree)) : Reader (List Part) := do
  let counter ← expect .identifier .identifierExpected
  let token ← current
  let link ← if token.isKeyword "in".toList then pure (.ok (← leaf))
    else pure (.error ⟨.inKeywordExpected, token.token⟩)
  let range ← operand expression .sequence
  return [.ofResult .loopVariable counter, .ofResult .inKeyword link, range, ← closeHead]

/-- What stands in the head of a function. -/
def formals (expression : Reader (Option Tree)) (anchor : Nat) : Reader (List Part) := do
  let list ← argumentList expression .formals .brace anchor
  return [.child .formals list, ← closeHead]

/-- A scope, with braces or without, in a role. -/
def body (expression : Reader (Option Tree)) (role : Role) : Reader Part := do
  return .ofResult role (← scope expression true)

/-- Whether an `else` goes on with the `if` before it. Outside braces and brackets a line break
ends the `if`. -/
def isElseNext : Reader Bool := do
  let mode ← mode
  let looksBeyond := mode.braceDepth > 0 || mode.lineBreaksIgnored
  let token ← if looksBeyond then nextBeyondLineBreaks else current
  return token.isKeyword "else".toList

/-- The branch that an `else` begins, if there is one. -/
def elseBranch (expression : Reader (Option Tree)) : Reader (List Part) := do
  if ← isElseNext then
    skipLineBreaks
    let keyword ← leaf
    return [.child .elseKeyword keyword, ← body expression .elseBody]
  else
    return []

/-- A construct, from its keyword on. -/
def Construct.read (construct : Construct) (expression : Reader (Option Tree)) : Reader Tree := do
  let keyword := Part.child .keyword (← leaf)
  match construct with
  | ifElse =>
    let top ← head fun _ => condition expression
    let main ← body expression .body
    return .ofParts .ifElse (keyword :: top ++ main :: (← elseBranch expression))
  | forLoop =>
    let top ← head fun _ => iteration expression
    return .ofParts .forLoop (keyword :: top ++ [← body expression .body])
  | whileLoop =>
    let top ← head fun _ => condition expression
    return .ofParts .whileLoop (keyword :: top ++ [← body expression .body])
  | repeatLoop => return .ofParts .repeatLoop [keyword, ← body expression .body]
  | functionDefinition =>
    let top ← head (formals expression)
    return .ofParts .functionDefinition (keyword :: top ++ [← body expression .body])
  | breakLoop => return .ofParts .breakLoop [keyword]
  | nextRound => return .ofParts .nextRound [keyword]

/-- The construct that the current word begins. Nothing is taken where it begins none. -/
def construct (expression : Reader (Option Tree)) : Reader (Option Tree) := do
  match Construct.ofWord? (← current).text with
  | none => return none
  | some construct => return some (← construct.read expression)

end RSource.Grammar
