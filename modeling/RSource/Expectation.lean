/-
**Expectations of a tree.**

A check says what a tree, a node, an operator or a scope should be; checks of children stand
inside the checks that lead to them. Checks run in order, and the first that fails is the answer.
Its message begins with the way from the root to the node in question.
-/

import RSource.Evaluation

namespace RSource

/-- How the text of a node is compared. -/
inductive TextMatch where
  | exact (expected : Text)
  | startsWith (expected : Text)
  | contains (expected : Text)
  deriving Repr, DecidableEq, Inhabited

namespace TextMatch

/-- Whether a text occurs somewhere in another. -/
def occursIn (part : Text) : Text → Bool
  | [] => part.isEmpty
  | c :: rest => part.isPrefixOf (c :: rest) || occursIn part rest

def accepts (expected : TextMatch) (actual : Text) : Bool :=
  match expected with
  | exact text => actual == text
  | startsWith text => text.isPrefixOf actual
  | contains text => occursIn text actual

/-- What the match asks for, in words. -/
def description : TextMatch → String
  | exact text => "to be " ++ Text.quoted text
  | startsWith text => "to start with " ++ Text.quoted text
  | contains text => "to contain " ++ Text.quoted text

end TextMatch

/-- Why a check fails. The context is the way to the node; a tree as a whole has none. -/
inductive Failure where
  | textDiffers (context : String) (expected : TextMatch) (actual : Text)
  | statementCountDiffers (context : Option String) (expected : Nat) (found : List String)
  | statementMissing (context : Option String) (index count : Nat)
  | notStatement (context found : String)
  | globalScopeMissing
  | commentCountDiffers (expected found : Nat)
  | childMissing (context kind child : String)
  | unsuitable (context expected kind : String) (text : Text)
  | kindDiffers (context expected found : String)
  | tokenKindDiffers (context : String) (expected found : TokenKind)
  | valueDiffers (context : String) (expected found : Value)
  | bodyPresent (context : String) (text : Text)
  | elsePresent (context : String)
  | argumentCountDiffers (context : String) (expected found : Nat)
  | argumentMissing (context : String) (index count : Nat)
  | nameMissing (context : String) (expected : Text)
  | valuePresent (context : String) (text : Text)
  | operatorDiffers (context : String) (expected found : Operator) (text : Text)
  | operandMissing (context side : String) (operator : Operator)
  | operandsPresent (context : String) (operator : Operator) (text : Text)
  | notBraced (context found : String)
  | notSimple (context found : String)
  | closingDiffers (context : String) (expected : Bool)
  deriving Inhabited

namespace Failure

def message : Failure → String
  | textDiffers context expected actual =>
    s!"{context}: Expected text {expected.description}, but got " ++ Text.quoted actual
  | statementCountDiffers context expected found =>
    (match context with | some context => context ++ ": " | none => "")
      ++ s!"Expected {expected} statements, found {found.length}: ["
      ++ String.intercalate ", " found ++ "]"
  | statementMissing none index count =>
    s!"Statement index {index} out of bounds (tree has {count} statements)"
  | statementMissing (some context) index count =>
    s!"{context}: Statement index {index} out of bounds (scope has {count} statements)"
  | notStatement context found => s!"{context}: Expected Statement, found {found}"
  | globalScopeMissing => "Expected a global scope, the tree has none"
  | commentCountDiffers expected found => s!"Expected {expected} comments, found {found}"
  | childMissing context kind child => s!"{context}: Expected {kind} {child}, found none"
  | unsuitable context expected kind text =>
    s!"{context}: Expected {expected}, found {kind} " ++ Text.quoted text
  | kindDiffers context expected found => s!"{context}: Expected {expected}, found {found}"
  | tokenKindDiffers context expected found =>
    s!"{context}: Expected {expected.name} token, found {found.name}"
  | valueDiffers context expected found =>
    s!"{context}: Expected evaluation to give {expected.dump}, got {found.dump}"
  | bodyPresent context text =>
    s!"{context}: Expected no body, found Some(" ++ Text.quoted text ++ ")"
  | elsePresent context => s!"{context}: Expected no else branch"
  | argumentCountDiffers context expected found =>
    s!"{context}: Expected {expected} arguments, found {found}"
  | argumentMissing context index count =>
    s!"{context}: Argument index {index} out of bounds ({count} arguments)"
  | nameMissing context expected =>
    s!"{context}: Expected argument named " ++ Text.quoted expected ++ ", found a positional one"
  | valuePresent context text =>
    s!"{context}: Expected an empty argument, found " ++ Text.quoted text
  | operatorDiffers context expected found text =>
    s!"{context}: Expected operator {expected.name}, found {found.name} in " ++ Text.quoted text
  | operandMissing context side operator =>
    s!"{context}: Expected a {side} operand for {operator.name}, found none"
  | operandsPresent context operator text =>
    s!"{context}: Expected {operator.name} to miss an operand in " ++ Text.quoted text
  | notBraced context found => s!"{context}: Expected a braced scope, found {found}"
  | notSimple context found => s!"{context}: Expected a simple scope, found {found}"
  | closingDiffers context expected =>
    let wish := if expected then "to have" else "to lack"
    s!"{context}: Expected the scope {wish} a closing brace"

end Failure

/-- The result of a check. -/
abbrev Verdict := Except Failure Unit

/-- Fails with `failure` unless the condition holds. -/
def Verdict.require (condition : Bool) (failure : Failure) : Verdict :=
  if condition then .ok () else .error failure

/-- Checks the text of something. -/
def TextMatch.check (expected : TextMatch) (context : String) (actual : Text) : Verdict :=
  .require (expected.accepts actual) (.textDiffers context expected actual)

/-- A child that nodes of some forms have. -/
inductive ChildName where
  | condition
  | loopVariable
  | sequence
  | function
  | target
  | inner
  | value
  deriving Repr, DecidableEq, Inhabited

namespace ChildName

/-- The word for a child in messages. -/
def word : ChildName → String
  | condition => "condition"
  | loopVariable => "variable"
  | sequence => "sequence"
  | function => "function"
  | target => "target"
  | inner => "inner"
  | value => "value"

def role : ChildName → Role
  | condition => .condition
  | loopVariable => .loopVariable
  | sequence => .sequence
  | function => .function
  | target => .target
  | inner => .expression
  | value => .value

/-- The forms whose nodes have the child. -/
def belongsTo : ChildName → Form → Bool
  | condition, .ifElse => true
  | condition, .whileLoop => true
  | loopVariable, .forLoop => true
  | sequence, .forLoop => true
  | function, .call => true
  | target, .index => true
  | inner, .group => true
  | value, .argument => true
  | _, _ => false

/-- The words for those forms. -/
def owners : ChildName → String
  | condition => "If or While"
  | loopVariable => "For"
  | sequence => "For"
  | function => "Call"
  | target => "Index"
  | inner => "Group"
  | value => "Argument"

end ChildName

mutual

/-- What a node should be. -/
inductive NodeCheck where
  | kind (expected : String)
  | text (expected : TextMatch)
  | tokenKind (expected : TokenKind)
  | evaluatesTo (expected : Value)
  | child (name : ChildName) (checks : List NodeCheck)
  | body (checks : List ScopeCheck)
  | noBody
  | elseBody (checks : List ScopeCheck)
  | noElse
  | argumentCount (expected : Nat)
  | argument (index : Nat) (checks : List NodeCheck)
  | named (expected : Text)
  | noValue
  /-- The node is an operator; no check after this one counts. -/
  | asOperator (checks : List OperatorCheck)
  /-- The node is a scope; no check after this one counts. -/
  | asScope (checks : List ScopeCheck)

/-- What an operator should be. -/
inductive OperatorCheck where
  | operator (expected : Operator)
  | text (expected : Text)
  | left (checks : List NodeCheck)
  | right (checks : List NodeCheck)
  | incomplete

/-- What a scope should be. -/
inductive ScopeCheck where
  | braced
  | simple
  | closed (expected : Bool)
  | statementCount (expected : Nat)
  /-- The expression of a statement. -/
  | statement (index : Nat) (checks : List NodeCheck)
  /-- The statement itself. -/
  | statementNode (index : Nat) (checks : List NodeCheck)

end

instance nodeCheckInhabited : Inhabited NodeCheck := ⟨.noBody⟩

instance operatorCheckInhabited : Inhabited OperatorCheck := ⟨.incomplete⟩

instance scopeCheckInhabited : Inhabited ScopeCheck := ⟨.braced⟩

/-- What a tree should be. -/
inductive TreeCheck where
  | statementCount (expected : Nat)
  | statement (index : Nat) (checks : List NodeCheck)
  | globalScope (checks : List ScopeCheck)
  | commentCount (expected : Nat)

/-- A document and what its nodes stand for. -/
structure Subject where
  document : Document
  evaluator : Evaluator Id

namespace Subject

def content (subject : Subject) (id : NodeId) : Content := subject.document.content id

def kindOf (subject : Subject) (id : NodeId) : String := (subject.content id).name

def textOf (subject : Subject) (id : NodeId) : Text := subject.document.textOf id

/-- The kinds and texts of nodes. -/
def summary (subject : Subject) (ids : List NodeId) : List String :=
  ids.map fun id => subject.kindOf id ++ "(" ++ Text.quoted (subject.textOf id) ++ ")"

/-- The failure of a node that is not what a check is for. -/
def unsuitable (subject : Subject) (context expected : String) (id : NodeId) : Failure :=
  .unsuitable context expected (subject.kindOf id) (subject.textOf id)

/-- The expression of a statement. -/
def expressionOf (subject : Subject) (context : String) (id : NodeId) : Except Failure NodeId :=
  match subject.content id with
  | content@(.branch .statement _) =>
    match content.child? .expression with
    | some expression => .ok expression
    | none => .error (.notStatement context content.name)
  | content => .error (.notStatement context content.name)

/-- A statement of a scope, and the way to it. -/
def statementOf (subject : Subject) (context : String) (scope : NodeId) (index : Nat) :
    Except Failure (NodeId × String) :=
  let statements := (subject.content scope).statements
  match statements[index]? with
  | some id => .ok (id, s!"{context}.statements[{index}]")
  | none => .error (.statementMissing (some context) index statements.length)

/-- The arguments of a call or an index, or the formals of a function. -/
def argumentsOf (subject : Subject) (context : String) (id : NodeId) :
    Except Failure (List NodeId) :=
  let list? : Except Failure (Option NodeId) := match subject.content id with
    | content@(.branch .call _) => .ok (content.child? .arguments)
    | content@(.branch .index _) => .ok (content.child? .arguments)
    | content@(.branch .functionDefinition _) => .ok (content.child? .formals)
    | _ => .error (subject.unsuitable context "Call, Index or FunctionDefinition" id)
  list?.map fun list => match list with
    | some list => (subject.content list).childrenIn .argument
    | none => []

/-- A child in a role of a node of some forms, and the way to it. -/
def childOf (subject : Subject) (context : String) (id : NodeId) (belongs : Form → Bool)
    (owners : String) (role : Role) (word : String) : Except Failure (NodeId × String) :=
  let content := subject.content id
  if content.form?.any belongs then
    match content.child? role with
    | some child => .ok (child, s!"{context}.{word}")
    | none => .error (.childMissing context content.name word)
  else .error (subject.unsuitable context owners id)

/-- The forms with a body. -/
def hasBody : Form → Bool
  | .ifElse | .forLoop | .whileLoop | .repeatLoop | .functionDefinition => true
  | _ => false

/-- A body, which has to be a scope, and the way to it. -/
def bodyOf (subject : Subject) (context : String) (id : NodeId) (belongs : Form → Bool)
    (owners : String) (role : Role) (word : String) : Except Failure (NodeId × String) := do
  let found ← subject.childOf context id belongs owners role word
  if (subject.content found.1).isScope then return found
  else throw (subject.unsuitable found.2 "a scope" found.1)

mutual

/-- Runs the checks of a node in order. -/
def checkNodes (subject : Subject) (context : String) (id : NodeId) : List NodeCheck → Verdict
  | [] => .ok ()
  | .asOperator checks :: _ =>
    match (subject.content id).operator? with
    | some operator => subject.checkOperators context id operator checks
    | none => .error (subject.unsuitable context "Operator" id)
  | .asScope checks :: _ =>
    if (subject.content id).isScope then subject.checkScopes context id checks
    else .error (subject.unsuitable context "a scope" id)
  | check :: rest => do
    subject.checkNode context id check
    subject.checkNodes context id rest

/-- Runs a check of a node. -/
def checkNode (subject : Subject) (context : String) (id : NodeId) : NodeCheck → Verdict
  | .kind expected =>
    let found := subject.kindOf id
    .require (found == expected) (.kindDiffers context expected found)
  | .text expected => expected.check context (subject.textOf id)
  | .tokenKind expected =>
    match (subject.content id).token? with
    | some token =>
      .require (token.kind == expected) (.tokenKindDiffers context expected token.kind)
    | none => .error (subject.unsuitable context "Token" id)
  | .evaluatesTo expected =>
    let found : Value := subject.document.evaluate subject.evaluator id
    .require (found == expected) (.valueDiffers context expected found)
  | .child name checks => do
    let found ← subject.childOf context id name.belongsTo name.owners name.role name.word
    subject.checkNodes found.2 found.1 checks
  | .body checks => do
    let found ← subject.bodyOf context id hasBody "a construct with a body" .body "body"
    subject.checkScopes found.2 found.1 checks
  | .noBody =>
    let content := subject.content id
    if content.form?.any hasBody then
      match content.child? .body with
      | some body => .error (.bodyPresent context (subject.textOf body))
      | none => .ok ()
    else .error (subject.unsuitable context "a construct with a body" id)
  | .elseBody checks => do
    let found ← subject.bodyOf context id (· == .ifElse) "If" .elseBody "else"
    subject.checkScopes found.2 found.1 checks
  | .noElse =>
    let content := subject.content id
    if content.form? == some .ifElse then
      .require (content.child? .elseKeyword).isNone (.elsePresent context)
    else .error (subject.unsuitable context "If" id)
  | .argumentCount expected => do
    let arguments ← subject.argumentsOf context id
    Verdict.require (arguments.length == expected)
      (.argumentCountDiffers context expected arguments.length)
  | .argument index checks => do
    let arguments ← subject.argumentsOf context id
    match arguments[index]? with
    | some argument => subject.checkNodes s!"{context}.arguments[{index}]" argument checks
    | none => throw (.argumentMissing context index arguments.length)
  | .named expected =>
    let content := subject.content id
    if content.form? == some .argument then
      match content.child? .name with
      | some name => (TextMatch.exact expected).check context (subject.textOf name)
      | none => .error (.nameMissing context expected)
    else .error (subject.unsuitable context "Argument" id)
  | .noValue =>
    let content := subject.content id
    if content.form? == some .argument then
      .require (content.child? .value).isNone (.valuePresent context (subject.textOf id))
    else .error (subject.unsuitable context "Argument" id)
  | .asOperator _ => .ok ()
  | .asScope _ => .ok ()

/-- Runs the checks of an operator in order. -/
def checkOperators (subject : Subject) (context : String) (id : NodeId) (operator : Operator) :
    List OperatorCheck → Verdict
  | [] => .ok ()
  | check :: rest => do
    subject.checkOperator context id operator check
    subject.checkOperators context id operator rest

/-- Runs a check of an operator. -/
def checkOperator (subject : Subject) (context : String) (id : NodeId) (operator : Operator) :
    OperatorCheck → Verdict
  | .operator expected =>
    .require (operator == expected)
      (.operatorDiffers context expected operator (subject.textOf id))
  | .text expected => (TextMatch.exact expected).check context (subject.textOf id)
  | .left checks =>
    match (subject.content id).child? .left with
    | some operand => subject.checkNodes s!"{context}.left" operand checks
    | none => .error (.operandMissing context "left" operator)
  | .right checks =>
    match (subject.content id).child? .right with
    | some operand => subject.checkNodes s!"{context}.right" operand checks
    | none => .error (.operandMissing context "right" operator)
  | .incomplete =>
    .require (!(subject.content id).isComplete)
      (.operandsPresent context operator (subject.textOf id))

/-- Runs the checks of a scope in order. -/
def checkScopes (subject : Subject) (context : String) (id : NodeId) : List ScopeCheck → Verdict
  | [] => .ok ()
  | check :: rest => do
    subject.checkScope context id check
    subject.checkScopes context id rest

/-- Runs a check of a scope. -/
def checkScope (subject : Subject) (context : String) (id : NodeId) : ScopeCheck → Verdict
  | .braced =>
    let content := subject.content id
    .require (content.form? == some .scope) (.notBraced context content.name)
  | .simple =>
    let content := subject.content id
    .require (content.form? == some .simpleScope) (.notSimple context content.name)
  | .closed expected =>
    let content := subject.content id
    if content.form? == some .scope then
      .require ((content.child? .closeCurly).isSome == expected) (.closingDiffers context expected)
    else .error (.notBraced context content.name)
  | .statementCount expected =>
    let statements := (subject.content id).statements
    .require (statements.length == expected)
      (.statementCountDiffers (some context) expected (subject.summary statements))
  | .statement index checks => do
    let (statement, way) ← subject.statementOf context id index
    subject.checkNodes way (← subject.expressionOf way statement) checks
  | .statementNode index checks => do
    let (statement, way) ← subject.statementOf context id index
    subject.checkNodes way statement checks

end

/-- Runs a check of a tree. -/
def checkTree (subject : Subject) : TreeCheck → Verdict
  | .statementCount expected =>
    let statements := subject.document.statements
    .require (statements.length == expected)
      (.statementCountDiffers none expected (subject.summary statements))
  | .statement index checks => do
    let statements := subject.document.statements
    match statements[index]? with
    | some statement =>
      let way := s!"statements[{index}]"
      subject.checkNodes way (← subject.expressionOf way statement) checks
    | none => throw (.statementMissing none index statements.length)
  | .globalScope checks =>
    match subject.document.globalScope? with
    | some scope => subject.checkScopes "global" scope checks
    | none => .error .globalScopeMissing
  | .commentCount expected =>
    let found := subject.document.comments.length
    .require (found == expected) (.commentCountDiffers expected found)

/-- Runs checks of a tree in order. -/
def check (subject : Subject) (checks : List TreeCheck) : Verdict := checks.forM subject.checkTree

end Subject

end RSource
