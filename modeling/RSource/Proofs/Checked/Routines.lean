/-
**Reading with every check made.**

The readers of the grammar cannot fail: a keyword is taken where one was seen, a pair of brackets is
known by its delimiter, a token comes with its text, and a tree is stored when it is complete. Here
the same reading is written out as steps over a session that only has tokens by their places and
nodes by their numbers. Whatever such steps rely on is checked when it is used, and a check that
fails ends the run with a `Fault`: a keyword that is none, a closing token asked for what opens
nothing, a slice whose ends lie inside characters, a number that no node has, a span that ends
before it starts, a count lowered below zero.

Loops (`Loop.run`) and the recursion of the grammar are least fixed points, bounded by nothing. A
run that would go on for ever has no result, so that a run which is shown to have one is shown to
end.
-/

import RSource.Session

namespace RSource

/-- What reads with every check made: all it has of its own is the text that it cuts the texts of
tokens from. -/
structure Checked where
  text : Text

namespace Checked

open Grammar

/-- Why a run stops before its end. -/
inductive Fault where
  /-- A routine was used where its place does not allow it. -/
  | misuse (violation : Violation)
  /-- The text has no slice with these ends. -/
  | noSlice (start stop : Nat)
  /-- A table has no entry with this number. -/
  | noEntry (number : Nat)
  /-- A span would end before it starts. -/
  | reversed (start stop : Nat)
  /-- A count would become less than nothing. -/
  | belowZero
  deriving Repr, DecidableEq

/-- A run ends with a value or with a fault, or it does not end. -/
abbrev Run := ExceptT Fault Option

/-- Steps that change a session. -/
abbrev Steps := StateT Session Run

/-- The children of a node in their roles. -/
abbrev Slots := List (Role × NodeId)

/-! ### Checks -/

/-- One less. -/
def lower : Nat → Run Nat
  | 0 => throw .belowZero
  | count + 1 => return count

/-- The span between two offsets. -/
def between (start stop : Nat) : Run Span :=
  if start ≤ stop then return ⟨start, stop⟩ else throw (.reversed start stop)

/-- The smallest span over both. -/
def union (left right : Span) : Run Span :=
  between (min left.start right.start) (max left.stop right.stop)

/-- The bytes of a text from `start` up to `stop`. -/
def slice (text : Text) (start stop : Nat) : Run Text :=
  match text.slice? start stop with
  | some found => return found
  | none => throw (.noSlice start stop)

/-- The entry of a table with this number. -/
def entry {α : Type} (table : Array α) (number : Nat) : Run α :=
  match table[number]? with
  | some found => return found
  | none => throw (.noEntry number)

/-! ### Loops -/

/-- A loop: each round gives the state for the next one, or else what the loop ends with. -/
structure Loop (σ α : Type) where
  round : σ → Steps (σ ⊕ α)

/-- Goes round from a state on. -/
def Loop.run {σ α : Type} (state : σ) (loop : Loop σ α) : Steps α := do
  match ← loop.round state with
  | .inl next => loop |>.run next
  | .inr result => return result
partial_fixpoint

/-! ### Nodes -/

/-- The span of a node. -/
def spanAt (id : NodeId) : Steps Span := do
  return (← entry (← get).document.nodes id).span

/-- The content of a node. -/
def contentAt (id : NodeId) : Steps Content := do
  return (← entry (← get).document.nodes id).content

/-- The smallest span over some nodes, if there are any. -/
def cover : List NodeId → Steps (Option Span)
  | [] => return none
  | first :: rest => do
    let start ← spanAt first
    return some (← rest.foldlM (fun covered id => do union covered (← spanAt id)) start)

/-- Adds a node. -/
def add (content : Content) (span : Span) : Steps NodeId :=
  modifyGet fun session =>
    (session.document.nodes.size, { session with document :=
      { session.document with nodes := session.document.nodes.add content span } })

/-- The slot that a node fills, if it is there. -/
def slot (role : Role) (id? : Option NodeId) : Slots := (id?.map (role, ·)).toList

/-- The smallest span over some nodes; that of `fallback` if there are none. -/
def coverOr (ids : List NodeId) (fallback : NodeId) : Steps Span := do
  match ← cover ids with
  | some span => return span
  | none => spanAt fallback

/-- The smallest span over a tree with brackets behind it and what stands between them. -/
def spanAround (tree opening inner : NodeId) (closing : Option NodeId) : Steps Span := do
  let outer ← coverOr ([tree, opening] ++ closing.toList) tree
  union outer (← spanAt inner)

/-- Adds a node that reaches over its children, or over `fallback` where it has none. -/
def addOver (form : Form) (slots : Slots) (fallback : NodeId) : Steps NodeId := do
  add (.branch form slots) (← coverOr (slots.map (·.2)) fallback)

/-- Adds a node that reaches over its children, unless it has none. -/
def addUnlessEmpty (form : Form) (slots : Slots) : Steps (Option NodeId) := do
  match ← cover (slots.map (·.2)) with
  | some span => return some (← add (.branch form slots) span)
  | none => return none

/-! ### Tokens -/

/-- Moves past the token at the cursor. -/
def take : Steps Lexeme :=
  modifyGet fun session =>
    (session.cursor.advance.1, { session with cursor := session.cursor.advance.2 })

/-- Moves past line breaks, one by one. -/
def skipLineBreaks : Steps Unit :=
  Loop.run () ⟨fun _ => do
    if Reader.isLineBreak (← get).cursor.current then
      let _ ← take
      return .inl ()
    else return .inr ()⟩

/-- The token that the grammar looks at. -/
def current : Steps Lexeme := do
  if (← get).mode.lineBreaksIgnored then skipLineBreaks
  return (← get).cursor.current

/-- Takes the current token. -/
def advance : Steps Lexeme := do
  let _ ← current
  take

/-- The token `offset` places behind the cursor. -/
def ahead (offset : Nat) : Steps Lexeme := do
  let cursor := (← get).cursor
  return cursor.rest.getD offset cursor.mark

/-- The token behind the current one, looked for from `offset` on; `seen` says whether the current
one lies in front of that. -/
def peekNext (offset : Nat) (seen : Bool) : Steps Lexeme :=
  Loop.run (offset, seen) ⟨fun (offset, seen) => do
    let lexeme ← ahead offset
    if (← get).mode.lineBreaksIgnored && Reader.isLineBreak lexeme then
      return .inl (offset + 1, seen)
    else if seen || lexeme.kind == .endOfStream then return .inr lexeme
    else return .inl (offset + 1, true)⟩

/-- The first token from `offset` on that is no line break. -/
def nextBeyondLineBreaks (offset : Nat) : Steps Lexeme :=
  Loop.run offset ⟨fun offset => do
    let lexeme ← ahead offset
    if Reader.isLineBreak lexeme then return .inl (offset + 1) else return .inr lexeme⟩

/-- The text of a token, out of the whole text. -/
def textOf (lexeme : Lexeme) (source : Checked) : Steps Text :=
  slice source.text lexeme.token.start lexeme.token.stop

/-- What `judge` says of the text of a token, if the token is of this kind. -/
def judged {α : Type} (kind : TokenKind) (lexeme : Lexeme) (otherwise : α) (judge : Text → α)
    (source : Checked) : Steps α :=
  if lexeme.kind == kind then return judge (← source.textOf lexeme) else return otherwise

/-- Whether a token is the keyword of this text. -/
def isKeyword (lexeme : Lexeme) (word : Text) (source : Checked) : Steps Bool :=
  source.judged .keyword lexeme false (· == word)

/-- Whether a token is the operator of this text. -/
def isOperator (lexeme : Lexeme) (text : Text) (source : Checked) : Steps Bool :=
  source.judged .operator lexeme false (· == text)

/-- Records a problem at a token. -/
def report (kind : ProblemKind) (lexeme : Lexeme) : Steps Unit :=
  modify (·.report [⟨kind, lexeme.token⟩])

/-! ### Inner sections -/

/-- Sets whether line breaks are ignored, and says whether they were. -/
def setLineBreaksIgnored (ignored : Bool) : Steps Bool :=
  modifyGet fun session =>
    (session.mode.lineBreaksIgnored,
      { session with mode := { session.mode with lineBreaksIgnored := ignored } })

def enterBraces : Steps Unit :=
  modify fun session =>
    { session with mode := { session.mode with braceDepth := session.mode.braceDepth + 1 } }

def leaveBraces : Steps Unit := do
  let braceDepth ← lower (← get).mode.braceDepth
  modify fun session => { session with mode := { session.mode with braceDepth } }

def enterNesting : Steps Unit :=
  modify fun session => { session with nesting := session.nesting + 1 }

def leaveNesting : Steps Unit := do
  let nesting ← lower (← get).nesting
  modify fun session => { session with nesting }

/-! ### Single tokens -/

/-- Adds the leaf of a token. -/
def addToken (lexeme : Lexeme) : Steps NodeId := do
  add (.leaf lexeme.token) (← between lexeme.token.start lexeme.token.stop)

/-- Takes the current token, whatever it is. -/
def token : Steps NodeId := do addToken (← advance)

/-- Takes the current token, which has to be a keyword. -/
def keyword : Steps NodeId := do
  let lexeme ← current
  if lexeme.kind == .keyword then
    let _ ← advance
    addToken lexeme
  else
    throw (.misuse (.keywordExpected lexeme.span lexeme.kind))

/-- Takes the current token if it is of this kind. -/
def optionalToken (kind : TokenKind) : Steps (Option NodeId) := do
  if (← current).kind == kind then return some (← token) else return none

/-- Takes the current token if it is of this kind; otherwise there is a problem. -/
def expect (kind : TokenKind) (problem : ProblemKind) : Steps (Option NodeId) := do
  let lexeme ← current
  if lexeme.kind == kind then return some (← token)
  else
    report problem lexeme
    return none

/-- The pair that a token of this kind opens, which has to be one. -/
def delimiterOf (opener : TokenKind) : Run Delimiter :=
  match Delimiter.ofOpener opener with
  | .ok delimiter => return delimiter
  | .error violation => throw (.misuse violation)

/-- Takes the token that closes what a token of this kind opens. -/
def close (opener : TokenKind) : Steps (Option NodeId) := do
  let delimiter ← delimiterOf opener
  expect delimiter.closer (.closerMissing delimiter)

/-! ### Operators -/

/-- The operator that a token is between two operands. -/
def infixOperator (lexeme : Lexeme) (source : Checked) : Steps (Option Operator) :=
  source.judged .operator lexeme none Operator.ofInfixText?

/-- The operator that a token is before its operand. -/
def leadingOperator (lexeme : Lexeme) (source : Checked) : Steps (Option Operator) :=
  source.judged .operator lexeme none Operator.ofLeadingText?

/-- Adds the node of an operator with its operands. -/
def addOperator (operator : Operator) (left : Option NodeId) (sign : NodeId)
    (right : Option NodeId) : Steps NodeId :=
  addOver (.operator operator) (slot .left left ++ (.operator, sign) :: slot .right right) sign

/-- Takes a member's name; otherwise there is a problem. -/
def member : Steps (Option NodeId) := do
  let lexeme ← current
  if lexeme.kind == .identifier || lexeme.kind == .string then return some (← token)
  else
    report .identifierExpected lexeme
    return none

/-- The access to a member, from the operator on. -/
def access (operator : Operator) (target : NodeId) : Steps NodeId := do
  let sign ← token
  let name ← member
  addOperator operator (some target) sign name

/-- Takes the `in` of a loop; otherwise there is a problem. -/
def linkWord (source : Checked) : Steps (Option NodeId) := do
  let lexeme ← current
  if ← source.isKeyword lexeme "in".toList then return some (← keyword)
  else
    report .inKeywordExpected lexeme
    return none

/-- A construct that is its keyword alone. -/
def wordAlone (form : Form) (lexeme : Lexeme) : Steps NodeId := do
  let word ← keyword
  add (.branch form [(.keyword, word)]) (← between lexeme.token.start lexeme.token.stop)

/-! ### Passing over tokens -/

/-- Passes tokens up to the one that closes the last of `opened` brackets. -/
def skipToClosing (opened : Nat) : Steps Unit :=
  Loop.run opened ⟨fun opened => do
    if 0 < opened then
      let lexeme ← current
      if lexeme.kind == .endOfStream then return .inr ()
      else if lexeme.kind.isOpening then
        let _ ← advance
        return .inl (opened + 1)
      else if lexeme.kind.isClosing then
        let left ← lower opened
        let _ ← advance
        return .inl left
      else
        let _ ← advance
        return .inl opened
    else return .inr ()⟩

/-- What stands for an expression below the last level. -/
def tooDeep : Steps (Option NodeId) := do
  let lexeme ← current
  if endsNesting lexeme.kind then return none
  else
    report .nestingTooDeep lexeme
    let leaf ← token
    skipToClosing (if lexeme.kind.isOpening then 1 else 0)
    return some leaf

/-- Passes tokens as long as `test` holds of them. -/
def skipping (test : Lexeme → Bool) : Steps Unit :=
  Loop.run () ⟨fun _ => do
    if test (← current) then
      let _ ← advance
      return .inl ()
    else return .inr ()⟩

/-- Whether passing over a line in search of the next statement stops at a token. -/
def endsLine (lexeme : Lexeme) : Bool :=
  lexeme.kind == .lineBreak || lexeme.kind == .semicolon || lexeme.kind == .endOfStream
    || lexeme.kind.isScopeBoundary

/-- Passes over what is left of a line. -/
def skipToBoundary : Steps Unit := skipping (!endsLine ·)

/-! ### Arguments -/

/-- Whether a token and the one behind it name an argument. -/
def namesHere (lexeme : Lexeme) (source : Checked) : Steps Bool := do
  if namesArgument lexeme then source.isOperator (← peekNext 0 false) ['='] else return false

/-- Whether a node of this form has a child in this role. -/
def has (form : Form) (role : Role) : Content → Bool
  | .branch own slots => own == form && slots.any (·.1 == role)
  | .leaf _ => false

/-- Whether an argument has its comma. -/
def hasComma (argument : NodeId) : Steps Bool := do
  return has .argument .comma (← contentAt argument)

/-! ### Statements -/

/-- Whether a statement keeps a semicolon, or the token before the cursor is one. -/
def endsWithSemicolon (statement : NodeId) : Steps Bool := do
  let own := has .statement .semicolon (← contentAt statement)
  return own || (← get).cursor.previous?.any (·.kind == .semicolon)

/-- The token in whose place an `else` goes on with the `if` before it. -/
def elseSight : Steps Lexeme := do
  let mode := (← get).mode
  if mode.braceDepth > 0 || mode.lineBreaksIgnored then nextBeyondLineBreaks 0 else current

/-- Whether an `else` goes on with the `if` before it; the line breaks in front of it are passed. -/
def atElse (source : Checked) : Steps Bool := do
  if ← source.isKeyword (← elseSight) "else".toList then
    skipLineBreaks
    return true
  else return false

/-! ### The grammar

Calls that go round the recursion are written `source |>.routine`, all others `source.routine`. -/

mutual

/-- An expression whose infix operators have at least the precedence `minimum`. -/
def expression (minimum : Nat) (source : Checked) : Steps (Option NodeId) := do
  if (← get).nestingLimitReached then tooDeep
  else
    enterNesting
    let found ← source |>.infixed minimum
    leaveNesting
    return found
partial_fixpoint

/-- An expression; where none begins there is a problem. -/
def operand (minimum : Nat) (source : Checked) : Steps (Option NodeId) := do
  match ← source |>.expression minimum with
  | some tree => return some tree
  | none =>
    report .operandExpected (← current)
    return none
partial_fixpoint

def infixed (minimum : Nat) (source : Checked) : Steps (Option NodeId) := do
  match ← source |>.leading with
  | none => return none
  | some left => return some (← source |>.infixRounds minimum left)
partial_fixpoint

/-- Takes infix operators with their right operands as long as there are any. -/
def infixRounds (minimum : Nat) (left : NodeId) (source : Checked) : Steps NodeId := do
  let found ← source.infixOperator (← current)
  match found.filter fun operator => !operator.isAccessor && minimum ≤ operator.precedence with
  | none => return left
  | some operator =>
    let sign ← token
    skipLineBreaks
    let right ← source |>.operand operator.rightMinimum
    source |>.infixRounds minimum (← addOperator operator (some left) sign right)
partial_fixpoint

def leading (source : Checked) : Steps (Option NodeId) := do
  match ← source.leadingOperator (← current) with
  | none => source |>.postfixed
  | some operator =>
    let sign ← token
    skipLineBreaks
    let right ← source |>.operand operator.precedence
    return some (← addOperator operator none sign right)
partial_fixpoint

def postfixed (source : Checked) : Steps (Option NodeId) := do
  match ← source |>.primary with
  | none => return none
  | some tree => return some (← source |>.postfixRounds tree)
partial_fixpoint

/-- Takes calls, indexes and accesses as long as there are any. -/
def postfixRounds (tree : NodeId) (source : Checked) : Steps NodeId := do
  let lexeme ← current
  match lexeme.kind with
  | .openBrace =>
    source |>.postfixRounds (← source |>.application .call .function .openBrace .closeBrace tree)
  | .openSquareBracket | .openDoubleSquareBracket =>
    source |>.postfixRounds (← source |>.application .index .target .openBracket .closeBracket tree)
  | _ =>
    match (← source.infixOperator lexeme).filter Operator.isAccessor with
    | none => return tree
    | some operator => source |>.postfixRounds (← access operator tree)
partial_fixpoint

/-- A call or an index, from its bracket on. -/
def application (form : Form) (own opener closer : Role) (tree : NodeId) (source : Checked) :
    Steps NodeId := do
  let bracket ← current
  let opening ← token
  let ignored ← setLineBreaksIgnored true
  let arguments ← source |>.argumentList .call bracket.kind bracket.stop
  let closing ← close bracket.kind
  let _ ← setLineBreaksIgnored ignored
  add (.branch form
    ([(own, tree), (opener, opening), (.arguments, arguments)] ++ slot closer closing))
    (← spanAround tree opening arguments closing)
partial_fixpoint

/-- The arguments up to what closes a token of the kind `opener`, as a list that lies at `anchor`
where it is empty. -/
def argumentList (style : ArgumentStyle) (opener : TokenKind) (anchor : Nat) (source : Checked) :
    Steps NodeId := do
  let delimiter ← delimiterOf opener
  let items ← source |>.argumentRounds style delimiter.closer []
  let content := Content.branch .argumentList (items.map (.argument, ·))
  match ← cover items with
  | some span => add content span
  | none => add content (← between anchor anchor)
partial_fixpoint

/-- Takes arguments as long as each one ends with a comma. -/
def argumentRounds (style : ArgumentStyle) (closer : TokenKind) (items : List NodeId)
    (source : Checked) : Steps (List NodeId) := do
  let lexeme ← current
  if lexeme.kind == closer || lexeme.kind == .endOfStream then return items
  else
    match ← source |>.argument style with
    | none => return items
    | some tree =>
      if ← hasComma tree then source |>.argumentRounds style closer (items ++ [tree])
      else return items ++ [tree]
partial_fixpoint

/-- An argument with its comma, unless it holds nothing. -/
def argument (style : ArgumentStyle) (source : Checked) : Steps (Option NodeId) := do
  let front ← source |>.item style
  let comma ← optionalToken .comma
  addUnlessEmpty .argument (front ++ slot .comma comma)
partial_fixpoint

/-- An argument without its comma. -/
def item (style : ArgumentStyle) (source : Checked) : Steps Slots := do
  let lexeme ← current
  match style with
  | .call =>
    if ← source.namesHere lexeme then
      let name ← token
      let equals ← token
      return (.name, name) :: (.equals, equals) :: slot .value (← source |>.expression 0)
    else return slot .value (← source |>.expression 0)
  | .formals =>
    if lexeme.kind == .identifier then
      let name ← token
      if ← source.isOperator (← current) ['='] then
        let equals ← token
        return (.name, name) :: (.equals, equals) :: slot .value (← source |>.expression 0)
      else return [(.name, name)]
    else
      if lexeme.kind != .comma then report .identifierExpected lexeme
      return slot .value (← source |>.expression 0)
partial_fixpoint

/-- A literal, a name, a group, a block or a construct. -/
def primary (source : Checked) : Steps (Option NodeId) := do
  let lexeme ← current
  if lexeme.kind.isLiteral || lexeme.kind == .identifier then return some (← token)
  else if lexeme.kind == .openBrace then return some (← source |>.group)
  else if lexeme.kind == .openCurlyBrace then source |>.scope false
  else if lexeme.kind == .keyword then source |>.construct
  else return none
partial_fixpoint

def group (source : Checked) : Steps NodeId := do
  let opening ← token
  let ignored ← setLineBreaksIgnored true
  let inner ← source |>.operand 0
  let closing ← close .openBrace
  let _ ← setLineBreaksIgnored ignored
  addOver .group ((.openBrace, opening) :: slot .expression inner ++ slot .closeBrace closing)
    opening
partial_fixpoint

/-- The construct that the current keyword begins, if it begins one. -/
def construct (source : Checked) : Steps (Option NodeId) := do
  let lexeme ← current
  match Construct.ofWord? (← source.textOf lexeme) with
  | some construct => return some (← source |>.begun construct lexeme)
  | none => return none
partial_fixpoint

/-- A construct, from its keyword on, which is the current token. -/
def begun (construct : Construct) (word : Lexeme) (source : Checked) : Steps NodeId := do
  match construct with
  | .ifElse => source |>.ifElse
  | .forLoop => source |>.headed .forLoop .forLoop
  | .whileLoop => source |>.headed .whileLoop .whileLoop
  | .repeatLoop => source |>.repeated
  | .functionDefinition => source |>.headed .functionDefinition .functionDefinition
  | .breakLoop => wordAlone .breakLoop word
  | .nextRound => wordAlone .nextRound word
partial_fixpoint

def ifElse (source : Checked) : Steps NodeId := do
  let word ← keyword
  let top ← source |>.head .ifElse
  let main ← source |>.scope true
  let others ← source |>.elseBranch
  addOver .ifElse ((.keyword, word) :: top ++ slot .body main ++ others) word
partial_fixpoint

def elseBranch (source : Checked) : Steps Slots := do
  if ← source.atElse then
    let word ← keyword
    let other ← source |>.scope true
    return (.elseKeyword, word) :: slot .elseBody other
  else return []
partial_fixpoint

/-- A construct that is a body alone. -/
def repeated (source : Checked) : Steps NodeId := do
  let word ← keyword
  let main ← source |>.scope true
  addOver .repeatLoop ((.keyword, word) :: slot .body main) word
partial_fixpoint

/-- A construct that is a head and a body. -/
def headed (construct : Construct) (form : Form) (source : Checked) : Steps NodeId := do
  let word ← keyword
  let top ← source |>.head construct
  let main ← source |>.scope true
  addOver form ((.keyword, word) :: top ++ slot .body main) word
partial_fixpoint

/-- The head of a construct behind its keyword: an opening brace and what stands behind it. -/
def head (construct : Construct) (source : Checked) : Steps Slots := do
  match ← expect .openBrace .openBraceExpected with
  | none => return []
  | some opening =>
    let ignored ← setLineBreaksIgnored true
    let inner ← source |>.contents construct opening
    let _ ← setLineBreaksIgnored ignored
    return (.openBrace, opening) :: inner
partial_fixpoint

/-- What stands in the head of a construct, with its closing brace. -/
def contents (construct : Construct) (opening : NodeId) (source : Checked) : Steps Slots := do
  match construct with
  | .forLoop =>
    let counter ← expect .identifier .identifierExpected
    let link ← source.linkWord
    let range ← source |>.operand 0
    let closing ← close .openBrace
    return slot .loopVariable counter ++ slot .inKeyword link ++ slot .sequence range
      ++ slot .closeBrace closing
  | .functionDefinition =>
    let anchor := (← spanAt opening).stop
    let list ← source |>.argumentList .formals .openBrace anchor
    let closing ← close .openBrace
    return (.formals, list) :: slot .closeBrace closing
  | _ =>
    let tested ← source |>.operand 0
    let closing ← close .openBrace
    return slot .condition tested ++ slot .closeBrace closing
partial_fixpoint

/-- The body of a construct. -/
def scope (allowsSimple : Bool) (source : Checked) : Steps (Option NodeId) := do
  skipLineBreaks
  let lexeme ← current
  if lexeme.kind == .openCurlyBrace then return some (← source |>.block)
  else if !allowsSimple then
    report .openCurlyBraceExpected lexeme
    return none
  else
    match ← source |>.statement with
    | some tree =>
      return some (← add (.branch .simpleScope [(.statement, tree)]) (← spanAt tree))
    | none =>
      report .statementExpected lexeme
      return none
partial_fixpoint

def block (source : Checked) : Steps NodeId := do
  let opening ← token
  enterBraces
  let ignored ← setLineBreaksIgnored false
  let items ← source |>.statementRounds (some .closeCurlyBrace) []
  let closing ← close .openCurlyBrace
  let _ ← setLineBreaksIgnored ignored
  leaveBraces
  addOver .scope
    ((.openCurly, opening) :: items.map (.statements, ·) ++ slot .closeCurly closing) opening
partial_fixpoint

def statement (source : Checked) : Steps (Option NodeId) := do
  match ← source |>.expression 0 with
  | none => return none
  | some tree =>
    let semicolon ← optionalToken .semicolon
    addUnlessEmpty .statement ((.expression, tree) :: slot .semicolon semicolon)
partial_fixpoint

/-- Takes statements up to a token of the kind `terminator` or up to the end. -/
def statementRounds (terminator : Option TokenKind) (items : List NodeId) (source : Checked) :
    Steps (List NodeId) := do
  skipping isSeparator
  let lexeme ← current
  if lexeme.kind == .endOfStream || some lexeme.kind == terminator then return items
  else if lexeme.kind == .closeCurlyBrace then
    report .unexpectedToken lexeme
    let _ ← advance
    source |>.statementRounds terminator items
  else
    match ← source |>.statement with
    | none =>
      report .unexpectedToken lexeme
      let _ ← advance
      skipToBoundary
      source |>.statementRounds terminator items
    | some tree =>
      let ended ← endsWithSemicolon tree
      let next ← current
      if ended || endsStatement next then source |>.statementRounds terminator (items ++ [tree])
      else
        report .unexpectedToken next
        skipToBoundary
        source |>.statementRounds terminator (items ++ [tree])
partial_fixpoint

end

/-! ### A whole text -/

/-- All statements up to the end of the text. -/
def globalScope (source : Checked) : Steps NodeId := do
  let items ← source.statementRounds none []
  add (.branch .globalScope (items.map (.statements, ·))) (← between 0 source.text.bytes)

/-- Changes a node. -/
def change (id : NodeId) (changed : Node → Node) : Steps Unit := do
  let _ ← entry (← get).document.nodes id
  modify fun session =>
    { session with document :=
      { session.document with nodes := session.document.nodes.modify id changed } }

/-- Tells every child of a node who its parent is. -/
def adopt (parent : NodeId) : Steps Unit := do
  let content ← contentAt parent
  content.children.forM fun child => change child ({ · with parent := some parent })

/-- Hands the comments that were taken out over to the document. -/
def handOver (session : Session) : Session :=
  let taken := session.takeComments
  { taken.2 with document := { taken.2.document with comments := taken.1 } }

/-- Reads the whole program from the first token on, and ties the tree together. -/
def readAll (source : Checked) : Steps Unit := do
  modify Session.removeComments
  let scope ← source.globalScope
  change Document.root ({ · with content := .branch .root [(.globalScope, scope)] })
  modify handOver
  (List.range (← get).document.nodes.size).forM adopt

end Checked

end RSource
