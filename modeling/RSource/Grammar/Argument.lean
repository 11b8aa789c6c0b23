/-
**Argument lists.**

The arguments of a call and the formals of a function are read alike, up to the closing delimiter,
which is left for the caller. An argument keeps its comma; an argument without one is the last.
-/

import RSource.Grammar.Reader

namespace RSource.Grammar

open Reader

/-- How the items of a list are read. -/
inductive ArgumentStyle where
  /-- Any expression, with a name or without. -/
  | call
  /-- A name, with a default or without. -/
  | formals
  deriving Repr, DecidableEq, Inhabited

/-- What may be the name of an argument, when an equals sign follows. -/
def namesArgument (lexeme : Lexeme) : Bool :=
  lexeme.kind == .identifier || lexeme.kind == .string || lexeme.kind == .null

/-- An expression in the role of a value, if one begins here. -/
def value (expression : Reader (Option Tree)) : Reader (List Part) := do
  match ← expression with
  | some tree => return [.child .value tree]
  | none => return []

/-- An argument of a call, without its comma. -/
def callArgument (expression : Reader (Option Tree)) : Reader (List Part) := do
  let token ← current
  let next ← peekNext
  if namesArgument token && next.isOperator ['='] then
    let name ← leaf
    let equals ← leaf
    return .child .name name :: .child .equals equals :: (← value expression)
  else
    value expression

/-- A formal of a function, without its comma. Whatever stands in place of its name is kept as its
value, so that the list goes on. -/
def formal (expression : Reader (Option Tree)) : Reader (List Part) := do
  let token ← current
  if token.kind == .identifier then
    let name ← leaf
    if (← current).isOperator ['='] then
      let equals ← leaf
      return .child .name name :: .child .equals equals :: (← value expression)
    else
      return [.child .name name]
  else if token.kind == .comma then
    value expression
  else
    return .problem ⟨.identifierExpected, token.token⟩ [] :: (← value expression)

/-- An item of a list, without its comma. -/
def ArgumentStyle.item (style : ArgumentStyle) (expression : Reader (Option Tree)) :
    Reader (List Part) :=
  match style with
  | call => callArgument expression
  | formals => formal expression

/-- One round of reading a list: an argument and its comma. An argument that holds nothing is none,
and its problems go to the list. -/
def argumentRound (expression : Reader (Option Tree)) (style : ArgumentStyle)
    (delimiter : Delimiter) : Reader (List Part × Bool) := do
  let token ← current
  if token.kind == delimiter.closer || token.kind == .endOfStream then
    return ([], true)
  else
    let item ← style.item expression
    let comma ← leafOf .comma .comma
    let parts := item ++ comma
    if Part.anyChild parts then
      return ([.child .argument (.ofParts .argument parts)], comma.isEmpty)
    else
      return (parts, true)

/-- The arguments up to the closer of `delimiter`. An empty list lies at `anchor`. -/
def argumentList (expression : Reader (Option Tree)) (style : ArgumentStyle)
    (delimiter : Delimiter) (anchor : Nat) : Reader Tree := do
  let items ← collect (argumentRound expression style delimiter)
  return .node .argumentList ((Part.hull? items).getD (.empty anchor)) items

end RSource.Grammar
