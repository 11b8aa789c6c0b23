/-
**What the readers of the grammar do, as a relation.**

`Derives phrase mode first parts last` says that reading a phrase from the cursor `first` on gives
`parts` and ends at the cursor `last`. A tree comes as one part in its role, no tree as no part. Its
rules are the productions: each says what the reader looks at, which phrases it reads one behind the
other, and what it builds of them. Loops are rules that add one round to what was read so far.

That every reader obeys the rules is shown in `RSource.Proofs.Grammar.Soundness`; what holds of all
runs is then an induction over the rules.
-/

import RSource.Grammar.Expression

namespace RSource

/-- No tree, or one tree in a role. -/
def Part.ofOption (role : Role) : Option Tree → List Part
  | none => []
  | some tree => [.child role tree]

@[simp] theorem Part.ofOption_none (role : Role) : Part.ofOption role none = [] := rfl

@[simp] theorem Part.ofOption_some (role : Role) (tree : Tree) :
    Part.ofOption role (some tree) = [.child role tree] := rfl

/-- Whether a token may be a leaf: the grammar takes no line break and not the mark at the end. -/
def Lexeme.isReadable (lexeme : Lexeme) : Bool :=
  lexeme.kind != .lineBreak && lexeme.kind != .endOfStream

/-- The mode between brackets. -/
def Mode.bracketed (mode : Mode) : Mode := ⟨true, mode.braceDepth⟩

/-- The mode between curly braces. -/
def Mode.braced (mode : Mode) : Mode := ⟨false, mode.braceDepth + 1⟩

namespace Grammar

open Reader

/-! ### Looking and taking -/

/-- The token that the grammar looks at. -/
def look (mode : Mode) (cursor : Cursor Lexeme) : Lexeme := (settle mode cursor).current

/-- The cursor behind that token. -/
def past (mode : Mode) (cursor : Cursor Lexeme) : Cursor Lexeme := (settle mode cursor).advance.2

/-- The cursor behind all line breaks. -/
def beyond (cursor : Cursor Lexeme) : Cursor Lexeme := cursor.skipWhile isLineBreak

/-- The token that the grammar looks at, as a leaf. -/
def leafAt (mode : Mode) (cursor : Cursor Lexeme) : Tree := .leaf (look mode cursor)

/-- The cursor behind the separators of two statements. -/
def pastSeparators (cursor : Cursor Lexeme) : Cursor Lexeme := cursor.skipWhile isSeparator

/-- The cursor where passing over a line ends. -/
def boundary (mode : Mode) (cursor : Cursor Lexeme) : Cursor Lexeme :=
  cursor.skipWhile fun lexeme => !isBoundary mode lexeme

/-- The tokens passed over up to there. -/
def lineRest (mode : Mode) (cursor : Cursor Lexeme) : List Lexeme :=
  cursor.rest.takeWhile fun lexeme => !isBoundary mode lexeme

/-! ### The tests on the next token -/

/-- Whether a token is of this kind. -/
def isOfKind (kind : TokenKind) (lexeme : Lexeme) : Bool := lexeme.kind == kind

/-- The infix operator of at least a precedence that a token is. -/
def infixAt? (minimum : Nat) (lexeme : Lexeme) : Option Operator :=
  (infixOf? lexeme).filter fun operator => !operator.isAccessor && minimum ≤ operator.precedence

/-- The accessor that a token is. -/
def accessorOf? (lexeme : Lexeme) : Option Operator := (infixOf? lexeme).filter Operator.isAccessor

/-- Whether a token begins an argument list behind an expression. -/
def opensList (kind : TokenKind) : Bool :=
  kind == .openBrace || kind == .openSquareBracket || kind == .openDoubleSquareBracket

/-- Whether a call, an index or an access goes on behind an expression. -/
def extendsExpression (lexeme : Lexeme) : Bool :=
  opensList lexeme.kind || (accessorOf? lexeme).isSome

/-- Whether a token is a literal or a name. -/
def isAtom (lexeme : Lexeme) : Bool := lexeme.kind.isLiteral || lexeme.kind == .identifier

/-- Whether a token may be a member's name. -/
def isMember (lexeme : Lexeme) : Bool := lexeme.kind == .identifier || lexeme.kind == .string

/-- Whether a token is the `in` of a loop. -/
def isIn (lexeme : Lexeme) : Bool := lexeme.isKeyword "in".toList

/-- Whether a token begins an expression that is neither a construct nor behind an operator. -/
def beginsPrimary (lexeme : Lexeme) : Bool :=
  isAtom lexeme || lexeme.kind == .openBrace || lexeme.kind == .openCurlyBrace

/-- Whether the arguments end in front of a token. -/
def endsItems (delimiter : Delimiter) (lexeme : Lexeme) : Bool :=
  lexeme.kind == delimiter.closer || lexeme.kind == .endOfStream

/-- Whether the statements end in front of a token. -/
def endsBlock (terminator : Option TokenKind) (lexeme : Lexeme) : Bool :=
  lexeme.kind == .endOfStream || some lexeme.kind == terminator

/-- Whether an `else` is seen from a cursor. -/
def seesElse (mode : Mode) (cursor : Cursor Lexeme) : Bool :=
  (if mode.braceDepth > 0 || mode.lineBreaksIgnored
    then (beyond cursor).current else look mode cursor).isKeyword "else".toList

/-- Whether the statement read last has its separator behind it. -/
def isSeparated (mode : Mode) (statement : Tree) (cursor : Cursor Lexeme) : Bool :=
  hasSemicolon statement || cursor.previous?.any (·.kind == .semicolon)
    || endsStatement (look mode cursor)

/-- Whether a token and the one behind it name an argument. -/
def namesHere (mode : Mode) (cursor : Cursor Lexeme) : Bool :=
  namesArgument (look mode cursor) && (look mode (past mode cursor)).isOperator ['=']

/-! ### What the constructs are made of -/

/-- The node of a construct. -/
def Construct.form : Construct → Form
  | ifElse => .ifElse
  | forLoop => .forLoop
  | whileLoop => .whileLoop
  | repeatLoop => .repeatLoop
  | functionDefinition => .functionDefinition
  | breakLoop => .breakLoop
  | nextRound => .nextRound

/-- Whether a construct is a head in parentheses and a body, and nothing else. -/
def Construct.isHeaded : Construct → Bool
  | forLoop | whileLoop | functionDefinition => true
  | _ => false

/-- Whether the head of a construct is a condition. -/
def Construct.hasCondition : Construct → Bool
  | ifElse | whileLoop => true
  | _ => false

/-- Whether a construct is its keyword alone. -/
def Construct.isWord : Construct → Bool
  | breakLoop | nextRound => true
  | _ => false

/-- An argument list over its items; an empty one lies at `anchor`. -/
def listOf (anchor : Nat) (items : List Part) : Tree :=
  .node .argumentList ((Part.hull? items).getD (.empty anchor)) items

/-- What is read. Trees are read in a role, and inside at most `levels` expressions. -/
inductive Phrase where
  /-- A token that passes a test, or the problem that it is missing. -/
  | expected (accepts : Lexeme → Bool) (role : Role) (problem : ProblemKind)
  /-- A token that passes a test, or nothing. -/
  | optional (accepts : Lexeme → Bool) (role : Role)
  | expression (levels minimum : Nat) (role : Role)
  /-- An expression, or the problem that it is missing. -/
  | operand (levels minimum : Nat) (role : Role)
  /-- An expression that more infix operators may follow. -/
  | chain (levels minimum : Nat) (role : Role)
  | leading (levels : Nat) (role : Role)
  | postfixed (levels : Nat) (role : Role)
  /-- A primary expression that more calls, indexes and accesses may follow. -/
  | suffixed (levels : Nat) (role : Role)
  | primary (levels : Nat) (role : Role)
  | construct (construct : Construct) (levels : Nat) (role : Role)
  /-- The head of a construct. -/
  | head (construct : Construct) (levels : Nat)
  /-- What stands in the head of a construct, whose parenthesis ends at `anchor`. -/
  | contents (construct : Construct) (levels anchor : Nat)
  | body (levels : Nat) (role : Role)
  | elseBranch (levels : Nat)
  | arguments (style : ArgumentStyle) (delimiter : Delimiter) (levels anchor : Nat) (role : Role)
  /-- Arguments with their commas, which more may follow. -/
  | items (style : ArgumentStyle) (delimiter : Delimiter) (levels : Nat)
  /-- An argument without its comma. -/
  | item (style : ArgumentStyle) (levels : Nat)
  | statement (levels : Nat) (role : Role)
  | block (levels : Nat) (role : Role)
  /-- All statements up to a terminator. -/
  | statements (terminator : Option TokenKind) (levels : Nat)
  /-- Statements that more may follow. -/
  | listing (terminator : Option TokenKind) (levels : Nat)

/-! ### The productions -/

/-- Reading a phrase from one cursor on gives parts and ends at another cursor. -/
inductive Derives : Phrase → Mode → Cursor Lexeme → List Part → Cursor Lexeme → Prop where
  -- One token.
  | found {accepts : Lexeme → Bool} {role : Role} {problem : ProblemKind} {mode : Mode}
      {first : Cursor Lexeme} :
      accepts (look mode first) = true → (look mode first).isReadable = true →
      Derives (.expected accepts role problem) mode first [.child role (leafAt mode first)]
        (past mode first)
  | missing {accepts : Lexeme → Bool} {role : Role} {problem : ProblemKind} {mode : Mode}
      {first : Cursor Lexeme} :
      accepts (look mode first) = false →
      Derives (.expected accepts role problem) mode first
        [.problem ⟨problem, (look mode first).token⟩ []] (settle mode first)
  | present {accepts : Lexeme → Bool} {role : Role} {mode : Mode} {first : Cursor Lexeme} :
      accepts (look mode first) = true → (look mode first).isReadable = true →
      Derives (.optional accepts role) mode first [.child role (leafAt mode first)]
        (past mode first)
  | absent {accepts : Lexeme → Bool} {role : Role} {mode : Mode} {first : Cursor Lexeme} :
      accepts (look mode first) = false →
      Derives (.optional accepts role) mode first [] (settle mode first)
  -- An expression below the last level.
  | cutNothing {minimum : Nat} {role : Role} {mode : Mode} {first : Cursor Lexeme} :
      endsNesting (look mode first).kind = true →
      Derives (.expression 0 minimum role) mode first [] (settle mode first)
  | cutBracket {minimum : Nat} {role : Role} {mode : Mode} {first : Cursor Lexeme} :
      endsNesting (look mode first).kind = false → (look mode first).kind.isOpening = true →
      Derives (.expression 0 minimum role) mode first
        [.child role (.cut (look mode first)
          ((past mode first).rest.take (closingLength 1 (past mode first).rest)))]
        ((past mode first).drop (closingLength 1 (past mode first).rest))
  | cutToken {minimum : Nat} {role : Role} {mode : Mode} {first : Cursor Lexeme} :
      endsNesting (look mode first).kind = false → (look mode first).kind.isOpening = false →
      Derives (.expression 0 minimum role) mode first [.child role (.cut (look mode first) [])]
        (past mode first)
  -- Infix operators.
  | noExpression {levels minimum : Nat} {role : Role} {mode : Mode} {first last : Cursor Lexeme} :
      Derives (.leading levels role) mode first [] last →
      Derives (.expression (levels + 1) minimum role) mode first [] last
  | expression {levels minimum : Nat} {role : Role} {mode : Mode} {first last : Cursor Lexeme}
      {tree : Tree} :
      Derives (.chain levels minimum role) mode first [.child role tree] last →
      infixAt? minimum (look mode last) = none →
      Derives (.expression (levels + 1) minimum role) mode first [.child role tree]
        (settle mode last)
  | chainStart {levels minimum : Nat} {role : Role} {mode : Mode} {first last : Cursor Lexeme}
      {tree : Tree} :
      Derives (.leading levels role) mode first [.child role tree] last →
      Derives (.chain levels minimum role) mode first [.child role tree] last
  | chainMore {levels minimum : Nat} {role : Role} {mode : Mode}
      {first second last : Cursor Lexeme} {left : Tree} {operator : Operator} {right : List Part} :
      Derives (.chain levels minimum role) mode first [.child role left] second →
      infixAt? minimum (look mode second) = some operator →
      Derives (.operand levels operator.rightMinimum .right) mode (beyond (past mode second)) right
        last →
      Derives (.chain levels minimum role) mode first
        [.child role (.ofParts (.operator operator)
          (.child .left left :: .child .operator (leafAt mode second) :: right))] last
  | operand {levels minimum : Nat} {role : Role} {mode : Mode} {first last : Cursor Lexeme}
      {tree : Tree} :
      Derives (.expression levels minimum role) mode first [.child role tree] last →
      Derives (.operand levels minimum role) mode first [.child role tree] last
  | noOperand {levels minimum : Nat} {role : Role} {mode : Mode} {first last : Cursor Lexeme} :
      Derives (.expression levels minimum role) mode first [] last →
      Derives (.operand levels minimum role) mode first
        [.problem ⟨.operandExpected, (look mode last).token⟩ []] (settle mode last)
  -- Operators before their operand.
  | sign {levels : Nat} {role : Role} {mode : Mode} {first last : Cursor Lexeme}
      {operator : Operator} {right : List Part} :
      leadingOf? (look mode first) = some operator →
      Derives (.operand levels operator.precedence .right) mode (beyond (past mode first)) right
        last →
      Derives (.leading levels role) mode first
        [.child role (.ofParts (.operator operator)
          (.child .operator (leafAt mode first) :: right))] last
  | unsigned {levels : Nat} {role : Role} {mode : Mode} {first last : Cursor Lexeme}
      {parts : List Part} :
      leadingOf? (look mode first) = none →
      Derives (.postfixed levels role) mode (settle mode first) parts last →
      Derives (.leading levels role) mode first parts last
  -- Calls, indexes and accesses.
  | noPostfixed {levels : Nat} {role : Role} {mode : Mode} {first last : Cursor Lexeme} :
      Derives (.primary levels role) mode first [] last →
      Derives (.postfixed levels role) mode first [] last
  | postfixed {levels : Nat} {role : Role} {mode : Mode} {first last : Cursor Lexeme}
      {tree : Tree} :
      Derives (.suffixed levels role) mode first [.child role tree] last →
      extendsExpression (look mode last) = false →
      Derives (.postfixed levels role) mode first [.child role tree] (settle mode last)
  | suffixedStart {levels : Nat} {role : Role} {mode : Mode} {first last : Cursor Lexeme}
      {tree : Tree} :
      Derives (.primary levels role) mode first [.child role tree] last →
      Derives (.suffixed levels role) mode first [.child role tree] last
  | call {levels : Nat} {role : Role} {mode : Mode} {first second third last : Cursor Lexeme}
      {function : Tree} {list close : List Part} :
      Derives (.suffixed levels role) mode first [.child role function] second →
      (look mode second).kind = .openBrace →
      Derives (.arguments .call .brace levels (look mode second).stop .arguments) mode.bracketed
        (past mode second) list third →
      Derives (.expected (isOfKind .closeBrace) .closeBrace .closeBraceExpected) mode.bracketed
        third close last →
      Derives (.suffixed levels role) mode first
        [.child role (.ofParts .call (.child .function function ::
          .child .openBrace (leafAt mode second) :: (list ++ close)))] last
  | index {levels : Nat} {role : Role} {mode : Mode} {first second third last : Cursor Lexeme}
      {target : Tree} {list close : List Part} {delimiter : Delimiter} :
      Derives (.suffixed levels role) mode first [.child role target] second →
      delimiter = .squareBracket ∨ delimiter = .doubleSquareBracket →
      (look mode second).kind = delimiter.opener →
      Derives (.arguments .call delimiter levels (look mode second).stop .arguments)
        mode.bracketed (past mode second) list third →
      Derives (.expected (isOfKind delimiter.closer) .closeBracket (.closerMissing delimiter))
        mode.bracketed third close last →
      Derives (.suffixed levels role) mode first
        [.child role (.ofParts .index (.child .target target ::
          .child .openBracket (leafAt mode second) :: (list ++ close)))] last
  | access {levels : Nat} {role : Role} {mode : Mode} {first second last : Cursor Lexeme}
      {target : Tree} {right : List Part} {operator : Operator} :
      Derives (.suffixed levels role) mode first [.child role target] second →
      accessorOf? (look mode second) = some operator →
      Derives (.expected isMember .right .identifierExpected) mode (past mode second) right last →
      Derives (.suffixed levels role) mode first
        [.child role (.ofParts (.operator operator)
          (.child .left target :: .child .operator (leafAt mode second) :: right))] last
  -- What an expression begins with.
  | noPrimary {levels : Nat} {role : Role} {mode : Mode} {first : Cursor Lexeme} :
      beginsPrimary (look mode first) = false →
      ((look mode first).kind = .keyword → Construct.ofWord? (look mode first).text = none) →
      Derives (.primary levels role) mode first [] (settle mode first)
  | atom {levels : Nat} {role : Role} {mode : Mode} {first : Cursor Lexeme} :
      isAtom (look mode first) = true →
      Derives (.primary levels role) mode first [.child role (leafAt mode first)]
        (past mode first)
  | group {levels : Nat} {role : Role} {mode : Mode} {first second last : Cursor Lexeme}
      {inner close : List Part} :
      (look mode first).kind = .openBrace →
      Derives (.operand levels 0 .expression) mode.bracketed (past mode first) inner second →
      Derives (.expected (isOfKind .closeBrace) .closeBrace .closeBraceExpected) mode.bracketed
        second close last →
      Derives (.primary levels role) mode first
        [.child role (.ofParts .group (.child .openBrace (leafAt mode first) ::
          (inner ++ close)))] last
  | blockPrimary {levels : Nat} {role : Role} {mode : Mode} {first last : Cursor Lexeme}
      {parts : List Part} :
      (look mode first).kind = .openCurlyBrace →
      Derives (.block levels role) mode (settle mode first) parts last →
      Derives (.primary levels role) mode first parts last
  | constructPrimary {levels : Nat} {role : Role} {mode : Mode} {first last : Cursor Lexeme}
      {parts : List Part} {construct : Construct} :
      (look mode first).kind = .keyword →
      Construct.ofWord? (look mode first).text = some construct →
      Derives (.construct construct levels role) mode (settle mode first) parts last →
      Derives (.primary levels role) mode first parts last
  -- Constructs.
  | ifElse {levels : Nat} {role : Role} {mode : Mode} {first second third last : Cursor Lexeme}
      {top main other : List Part} :
      (look mode first).isReadable = true →
      Derives (.head .ifElse levels) mode (past mode first) top second →
      Derives (.body levels .body) mode second main third →
      Derives (.elseBranch levels) mode third other last →
      Derives (.construct .ifElse levels role) mode first
        [.child role (.ofParts .ifElse
          (.child .keyword (leafAt mode first) :: (top ++ main ++ other)))] last
  | headed {levels : Nat} {role : Role} {mode : Mode} {first second last : Cursor Lexeme}
      {top main : List Part} {construct : Construct} :
      construct.isHeaded = true → (look mode first).isReadable = true →
      Derives (.head construct levels) mode (past mode first) top second →
      Derives (.body levels .body) mode second main last →
      Derives (.construct construct levels role) mode first
        [.child role (.ofParts construct.form
          (.child .keyword (leafAt mode first) :: (top ++ main)))] last
  | repeatLoop {levels : Nat} {role : Role} {mode : Mode} {first last : Cursor Lexeme}
      {main : List Part} :
      (look mode first).isReadable = true →
      Derives (.body levels .body) mode (past mode first) main last →
      Derives (.construct .repeatLoop levels role) mode first
        [.child role (.ofParts .repeatLoop (.child .keyword (leafAt mode first) :: main))] last
  | word {levels : Nat} {role : Role} {mode : Mode} {first : Cursor Lexeme}
      {construct : Construct} :
      construct.isWord = true → (look mode first).isReadable = true →
      Derives (.construct construct levels role) mode first
        [.child role (.ofParts construct.form [.child .keyword (leafAt mode first)])]
        (past mode first)
  | opened {construct : Construct} {levels : Nat} {mode : Mode} {first last : Cursor Lexeme}
      {inner : List Part} :
      (look mode first).kind = .openBrace →
      Derives (.contents construct levels (look mode first).stop) mode.bracketed (past mode first)
        inner last →
      Derives (.head construct levels) mode first
        (.child .openBrace (leafAt mode first) :: inner) last
  | unopened {construct : Construct} {levels : Nat} {mode : Mode} {first : Cursor Lexeme} :
      (look mode first).kind ≠ .openBrace →
      Derives (.head construct levels) mode first
        [.problem ⟨.openBraceExpected, (look mode first).token⟩ []] (settle mode first)
  | condition {construct : Construct} {levels anchor : Nat} {mode : Mode}
      {first second last : Cursor Lexeme} {tested close : List Part} :
      construct.hasCondition = true →
      Derives (.operand levels 0 .condition) mode first tested second →
      Derives (.expected (isOfKind .closeBrace) .closeBrace .closeBraceExpected) mode second close
        last →
      Derives (.contents construct levels anchor) mode first (tested ++ close) last
  | iteration {levels anchor : Nat} {mode : Mode} {first second third fourth last : Cursor Lexeme}
      {counter link range close : List Part} :
      Derives (.expected (isOfKind .identifier) .loopVariable .identifierExpected) mode first
        counter second →
      Derives (.expected isIn .inKeyword .inKeywordExpected) mode second link third →
      Derives (.operand levels 0 .sequence) mode third range fourth →
      Derives (.expected (isOfKind .closeBrace) .closeBrace .closeBraceExpected) mode fourth close
        last →
      Derives (.contents .forLoop levels anchor) mode first (counter ++ link ++ range ++ close)
        last
  | formals {levels anchor : Nat} {mode : Mode} {first second last : Cursor Lexeme}
      {list close : List Part} :
      Derives (.arguments .formals .brace levels anchor .formals) mode first list second →
      Derives (.expected (isOfKind .closeBrace) .closeBrace .closeBraceExpected) mode second close
        last →
      Derives (.contents .functionDefinition levels anchor) mode first (list ++ close) last
  -- Bodies.
  | blockBody {levels : Nat} {role : Role} {mode : Mode} {first last : Cursor Lexeme}
      {parts : List Part} :
      (look mode (beyond first)).kind = .openCurlyBrace →
      Derives (.block levels role) mode (settle mode (beyond first)) parts last →
      Derives (.body levels role) mode first parts last
  | simpleBody {levels : Nat} {role : Role} {mode : Mode} {first last : Cursor Lexeme}
      {tree : Tree} :
      (look mode (beyond first)).kind ≠ .openCurlyBrace →
      Derives (.statement levels .statement) mode (settle mode (beyond first))
        [.child .statement tree] last →
      Derives (.body levels role) mode first
        [.child role (.ofParts .simpleScope [.child .statement tree])] last
  | noBody {levels : Nat} {role : Role} {mode : Mode} {first last : Cursor Lexeme} :
      (look mode (beyond first)).kind ≠ .openCurlyBrace →
      Derives (.statement levels .statement) mode (settle mode (beyond first)) [] last →
      Derives (.body levels role) mode first
        [.problem ⟨.statementExpected, (look mode (beyond first)).token⟩ []] last
  | elseBranch {levels : Nat} {mode : Mode} {first last : Cursor Lexeme} {other : List Part} :
      seesElse mode first = true →
      Derives (.body levels .elseBody) mode (past mode (beyond first)) other last →
      Derives (.elseBranch levels) mode first
        (.child .elseKeyword (leafAt mode (beyond first)) :: other) last
  | noElse {levels : Nat} {mode : Mode} {first : Cursor Lexeme} :
      seesElse mode first = false →
      Derives (.elseBranch levels) mode first [] first
  -- Arguments.
  | itemsStart {style : ArgumentStyle} {delimiter : Delimiter} {levels : Nat} {mode : Mode}
      {first : Cursor Lexeme} :
      Derives (.items style delimiter levels) mode first [] first
  | itemsMore {style : ArgumentStyle} {delimiter : Delimiter} {levels : Nat} {mode : Mode}
      {first second last : Cursor Lexeme} {parts item : List Part} :
      Derives (.items style delimiter levels) mode first parts second →
      endsItems delimiter (look mode second) = false →
      Derives (.item style levels) mode (settle mode second) item last →
      (look mode last).kind = .comma →
      Derives (.items style delimiter levels) mode first
        (parts ++ [.child .argument (.ofParts .argument
          (item ++ [.child .comma (leafAt mode last)]))]) (past mode last)
  | closedList {style : ArgumentStyle} {delimiter : Delimiter} {levels anchor : Nat} {role : Role}
      {mode : Mode} {first last : Cursor Lexeme} {parts : List Part} :
      Derives (.items style delimiter levels) mode first parts last →
      endsItems delimiter (look mode last) = true →
      Derives (.arguments style delimiter levels anchor role) mode first
        [.child role (listOf anchor parts)] (settle mode last)
  | lastItem {style : ArgumentStyle} {delimiter : Delimiter} {levels anchor : Nat} {role : Role}
      {mode : Mode} {first second last : Cursor Lexeme} {parts item : List Part} :
      Derives (.items style delimiter levels) mode first parts second →
      endsItems delimiter (look mode second) = false →
      Derives (.item style levels) mode (settle mode second) item last →
      (look mode last).kind ≠ .comma → Part.anyChild item = true →
      Derives (.arguments style delimiter levels anchor role) mode first
        [.child role (listOf anchor (parts ++ [.child .argument (.ofParts .argument item)]))]
        (settle mode last)
  | noItem {style : ArgumentStyle} {delimiter : Delimiter} {levels anchor : Nat} {role : Role}
      {mode : Mode} {first second last : Cursor Lexeme} {parts item : List Part} :
      Derives (.items style delimiter levels) mode first parts second →
      endsItems delimiter (look mode second) = false →
      Derives (.item style levels) mode (settle mode second) item last →
      (look mode last).kind ≠ .comma → Part.anyChild item = false →
      Derives (.arguments style delimiter levels anchor role) mode first
        [.child role (listOf anchor (parts ++ item))] (settle mode last)
  | named {levels : Nat} {mode : Mode} {first last : Cursor Lexeme} {value : List Part} :
      namesHere mode first = true →
      Derives (.expression levels 0 .value) mode (past mode (past mode first)) value last →
      Derives (.item .call levels) mode first (.child .name (leafAt mode first) ::
        .child .equals (leafAt mode (past mode first)) :: value) last
  | unnamed {levels : Nat} {mode : Mode} {first last : Cursor Lexeme} {value : List Part} :
      namesHere mode first = false →
      Derives (.expression levels 0 .value) mode (settle mode first) value last →
      Derives (.item .call levels) mode first value last
  | formalDefault {levels : Nat} {mode : Mode} {first last : Cursor Lexeme} {value : List Part} :
      (look mode first).kind = .identifier →
      (look mode (past mode first)).isOperator ['='] = true →
      Derives (.expression levels 0 .value) mode (past mode (past mode first)) value last →
      Derives (.item .formals levels) mode first (.child .name (leafAt mode first) ::
        .child .equals (leafAt mode (past mode first)) :: value) last
  | formal {levels : Nat} {mode : Mode} {first : Cursor Lexeme} :
      (look mode first).kind = .identifier →
      (look mode (past mode first)).isOperator ['='] = false →
      Derives (.item .formals levels) mode first [.child .name (leafAt mode first)]
        (settle mode (past mode first))
  | emptyFormal {levels : Nat} {mode : Mode} {first last : Cursor Lexeme} {value : List Part} :
      (look mode first).kind = .comma →
      Derives (.expression levels 0 .value) mode (settle mode first) value last →
      Derives (.item .formals levels) mode first value last
  | misplacedFormal {levels : Nat} {mode : Mode} {first last : Cursor Lexeme}
      {value : List Part} :
      (look mode first).kind ≠ .identifier → (look mode first).kind ≠ .comma →
      Derives (.expression levels 0 .value) mode (settle mode first) value last →
      Derives (.item .formals levels) mode first
        (.problem ⟨.identifierExpected, (look mode first).token⟩ [] :: value) last
  -- Statements.
  | noStatement {levels : Nat} {role : Role} {mode : Mode} {first last : Cursor Lexeme} :
      Derives (.expression levels 0 .expression) mode first [] last →
      Derives (.statement levels role) mode first [] last
  | statement {levels : Nat} {role : Role} {mode : Mode} {first second last : Cursor Lexeme}
      {tree : Tree} {semicolon : List Part} :
      Derives (.expression levels 0 .expression) mode first [.child .expression tree] second →
      Derives (.optional (isOfKind .semicolon) .semicolon) mode second semicolon last →
      Derives (.statement levels role) mode first
        [.child role (.ofParts .statement (.child .expression tree :: semicolon))] last
  | block {levels : Nat} {role : Role} {mode : Mode} {first second last : Cursor Lexeme}
      {items close : List Part} :
      (look mode first).kind = .openCurlyBrace →
      Derives (.statements (some .closeCurlyBrace) levels) mode.braced (past mode first) items
        second →
      Derives (.expected (isOfKind .closeCurlyBrace) .closeCurly .closeBraceExpected) mode.braced
        second close last →
      Derives (.block levels role) mode first
        [.child role (.ofParts .scope (.child .openCurly (leafAt mode first) ::
          (items ++ close)))] last
  | statements {terminator : Option TokenKind} {levels : Nat} {mode : Mode}
      {first last : Cursor Lexeme} {parts : List Part} :
      Derives (.listing terminator levels) mode first parts last →
      endsBlock terminator (look mode (pastSeparators last)) = true →
      Derives (.statements terminator levels) mode first parts
        (settle mode (pastSeparators last))
  | listingStart {terminator : Option TokenKind} {levels : Nat} {mode : Mode}
      {first : Cursor Lexeme} :
      Derives (.listing terminator levels) mode first [] first
  | stray {terminator : Option TokenKind} {levels : Nat} {mode : Mode}
      {first last : Cursor Lexeme} {parts : List Part} :
      Derives (.listing terminator levels) mode first parts last →
      endsBlock terminator (look mode (pastSeparators last)) = false →
      (look mode (pastSeparators last)).kind = .closeCurlyBrace →
      Derives (.listing terminator levels) mode first
        (parts ++ [.problem ⟨.unexpectedToken, (look mode (pastSeparators last)).token⟩
          [look mode (pastSeparators last)]]) (past mode (pastSeparators last))
  | unreadable {terminator : Option TokenKind} {levels : Nat} {mode : Mode}
      {first second last : Cursor Lexeme} {parts : List Part} :
      Derives (.listing terminator levels) mode first parts second →
      endsBlock terminator (look mode (pastSeparators second)) = false →
      (look mode (pastSeparators second)).kind ≠ .closeCurlyBrace →
      Derives (.statement levels .statements) mode (settle mode (pastSeparators second)) [] last →
      Derives (.listing terminator levels) mode first
        (parts ++ [.problem ⟨.unexpectedToken, (look mode (pastSeparators second)).token⟩
          (look mode last :: lineRest mode (past mode last))]) (boundary mode (past mode last))
  | listed {terminator : Option TokenKind} {levels : Nat} {mode : Mode}
      {first second last : Cursor Lexeme} {parts : List Part} {tree : Tree} :
      Derives (.listing terminator levels) mode first parts second →
      endsBlock terminator (look mode (pastSeparators second)) = false →
      (look mode (pastSeparators second)).kind ≠ .closeCurlyBrace →
      Derives (.statement levels .statements) mode (settle mode (pastSeparators second))
        [.child .statements tree] last →
      isSeparated mode tree last = true →
      Derives (.listing terminator levels) mode first (parts ++ [.child .statements tree])
        (settle mode last)
  | crowded {terminator : Option TokenKind} {levels : Nat} {mode : Mode}
      {first second last : Cursor Lexeme} {parts : List Part} {tree : Tree} :
      Derives (.listing terminator levels) mode first parts second →
      endsBlock terminator (look mode (pastSeparators second)) = false →
      (look mode (pastSeparators second)).kind ≠ .closeCurlyBrace →
      Derives (.statement levels .statements) mode (settle mode (pastSeparators second))
        [.child .statements tree] last →
      isSeparated mode tree last = false →
      Derives (.listing terminator levels) mode first
        (parts ++ [.child .statements tree,
          .problem ⟨.unexpectedToken, (look mode last).token⟩ (lineRest mode (settle mode last))])
        (boundary mode (settle mode last))

/-! ### Phrases that give one tree -/

/-- One tree, or the problem that it is missing. -/
def IsSingle (role : Role) (parts : List Part) : Prop :=
  (∃ tree, parts = [.child role tree]) ∨ ∃ found, parts = [.problem found []]

theorem Derives.isSingle_operand {levels minimum : Nat} {role : Role} {mode : Mode}
    {first last : Cursor Lexeme} {parts : List Part}
    (run : Derives (.operand levels minimum role) mode first parts last) : IsSingle role parts := by
  cases run with
  | operand _ => exact .inl ⟨_, rfl⟩
  | noOperand _ => exact .inr ⟨_, rfl⟩

theorem Derives.isSingle_body {levels : Nat} {role : Role} {mode : Mode}
    {first last : Cursor Lexeme} {parts : List Part}
    (run : Derives (.body levels role) mode first parts last) : IsSingle role parts := by
  cases run with
  | blockBody _ block =>
    cases block
    exact .inl ⟨_, rfl⟩
  | simpleBody _ _ => exact .inl ⟨_, rfl⟩
  | noBody _ _ => exact .inr ⟨_, rfl⟩

theorem Derives.isSingle_expected {accepts : Lexeme → Bool} {role : Role} {problem : ProblemKind}
    {mode : Mode} {first last : Cursor Lexeme} {parts : List Part}
    (run : Derives (.expected accepts role problem) mode first parts last) :
    IsSingle role parts := by
  cases run with
  | found _ _ => exact .inl ⟨_, rfl⟩
  | missing _ => exact .inr ⟨_, rfl⟩

end Grammar

end RSource
