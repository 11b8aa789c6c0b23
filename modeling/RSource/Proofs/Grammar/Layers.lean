/-
**Brackets in brackets, down to the last level.**

A `Layer` is a pair of parentheses or of curly braces. Layers around one another, with nested tokens
in the innermost, are read one level each, as long as there are levels left. Below the last level
the tokens of the next layer are passed over up to the bracket that closes it, since brackets that
are nested close one another whatever their kinds (`closingLength_of_isNested`). So each layer that
was read meets its own closing bracket again. Main statement: `Layer.derives`.
-/

import RSource.Proofs.Grammar.Balance

namespace RSource

open Grammar Reader Cursor Lexer

namespace Delimiter

theorem isOpening_opener (delimiter : Delimiter) : delimiter.opener.isOpening = true := by
  cases delimiter <;> rfl

theorem isOpening_closer (delimiter : Delimiter) : delimiter.closer.isOpening = false := by
  cases delimiter <;> rfl

theorem isClosing_closer (delimiter : Delimiter) : delimiter.closer.isClosing = true := by
  cases delimiter <;> rfl

/-- What a bracket opens its own kind closes. -/
theorem bracketsBehind_closer (delimiter : Delimiter) (opened : List TokenKind) :
    bracketsBehind delimiter.closer (bracketsBehind delimiter.opener opened) = opened := by
  cases delimiter <;> rfl

end Delimiter

/-! ### Nested tokens -/

/-- Tokens whose brackets are nested: each one is closed by one of its own kind. -/
inductive IsNested : List Lexeme → Prop where
  | nil : IsNested []
  | plain {token : Lexeme} {behind : List Lexeme} : token.kind.isOpening = false →
      token.kind.isClosing = false → IsNested behind → IsNested (token :: behind)
  | bracketed {opener closer : Lexeme} {inside behind : List Lexeme} (delimiter : Delimiter) :
      opener.kind = delimiter.opener → closer.kind = delimiter.closer → IsNested inside →
      IsNested behind → IsNested (opener :: (inside ++ closer :: behind))

/-- Nested tokens leave the square brackets open that were open in front of them. -/
theorem IsNested.isBalanced {tokens : List Lexeme} (nested : IsNested tokens) :
    IsBalanced tokens := by
  induction nested with
  | nil => exact isBalanced_nil
  | @plain token behind opens closes _ previous =>
    have plain : ∀ kind : TokenKind, kind.isOpening = false → kind.isClosing = false →
        kind.isSquareBracket = false := by
      intro kind
      cases kind <;> simp [TokenKind.isOpening, TokenKind.isClosing, TokenKind.isSquareBracket]
    exact previous.cons (plain _ opens closes)
  | @bracketed opener closer inside behind delimiter opens closes _ _ ofInside ofBehind =>
    intro opened
    rw [List.map_cons, List.map_append, List.map_cons, openedBehind_cons, openedBehind_append,
      ofInside, openedBehind_cons, opens, closes, delimiter.bracketsBehind_closer, ofBehind]

/-- **Nested tokens close no delimiter that was open in front of them.** -/
theorem closingLength_of_isNested {tokens : List Lexeme} (nested : IsNested tokens) (depth : Nat)
    (rest : List Lexeme) :
    closingLength (depth + 1) (tokens ++ rest)
      = tokens.length + closingLength (depth + 1) rest := by
  induction nested generalizing depth rest with
  | nil => exact (Nat.zero_add _).symm
  | @plain token behind opens closes _ previous =>
    have stays : closingLength (depth + 1) (token :: (behind ++ rest))
        = closingLength (depth + 1) (behind ++ rest) + 1 := by
      rw [closingLength, opens, closes]
      rfl
    rw [List.cons_append, stays, previous, List.length_cons]
    omega
  | @bracketed opener closer inside behind delimiter opens closes _ _ ofInside ofBehind =>
    have enters : closingLength (depth + 1) (opener :: (inside ++ closer :: (behind ++ rest)))
        = closingLength (depth + 2) (inside ++ closer :: (behind ++ rest)) + 1 := by
      rw [closingLength, opens, delimiter.isOpening_opener, if_pos rfl]
    have leaves : closingLength (depth + 2) (closer :: (behind ++ rest))
        = closingLength (depth + 1) (behind ++ rest) + 1 := by
      rw [closingLength, closes, delimiter.isOpening_closer, delimiter.isClosing_closer]
      rfl
    rw [List.cons_append, List.append_assoc, List.cons_append, enters, ofInside, leaves, ofBehind,
      List.length_cons, List.length_append, List.length_cons]
    omega

/-- Up to the token that closes the innermost delimiter. -/
theorem closingLength_closer {tokens : List Lexeme} (nested : IsNested tokens) {closer : Lexeme}
    {delimiter : Delimiter} (closes : closer.kind = delimiter.closer) (rest : List Lexeme) :
    closingLength 1 (tokens ++ closer :: rest) = (tokens ++ [closer]).length := by
  have outside : closingLength 0 rest = 0 := by cases rest <;> rfl
  have last : closingLength 1 (closer :: rest) = 1 := by
    rw [closingLength, closes, delimiter.isOpening_closer, delimiter.isClosing_closer]
    exact congrArg (· + 1) outside
  rw [closingLength_of_isNested nested 0, last, List.length_append, List.length_singleton]

/-! ### Layers -/

/-- A pair of parentheses or of curly braces. -/
structure Layer where
  delimiter : Delimiter
  opener : Lexeme
  closer : Lexeme
  enters : delimiter = .brace ∨ delimiter = .curlyBrace
  opens : opener.kind = delimiter.opener
  closes : closer.kind = delimiter.closer

namespace Layer

/-- The tokens of layers, the outermost one first, around other tokens. -/
def tokens (layers : List Layer) (inside : List Lexeme) : List Lexeme :=
  layers.map (·.opener) ++ inside ++ (layers.map (·.closer)).reverse

theorem tokens_cons (layer : Layer) (layers : List Layer) (inside : List Lexeme) :
    tokens (layer :: layers) inside = layer.opener :: (tokens layers inside ++ [layer.closer]) := by
  simp [tokens]

theorem tokens_append (outer inner : List Layer) (inside : List Lexeme) :
    tokens (outer ++ inner) inside = tokens outer (tokens inner inside) := by
  simp [tokens]

theorem isNested_tokens (layers : List Layer) {inside : List Lexeme} (nested : IsNested inside) :
    IsNested (tokens layers inside) := by
  induction layers with
  | nil => simpa [tokens] using nested
  | cons layer layers previous =>
    rw [tokens_cons]
    exact .bracketed layer.delimiter layer.opens layer.closes previous .nil

/-- An expression as a statement. -/
def statementOf (tree : Tree) : Tree := .ofParts .statement [.child .expression tree]

/-- A layer around an expression. -/
def enclose (layer : Layer) (tree : Tree) : Tree :=
  match layer.delimiter with
  | .brace => .ofParts .group
      [ .child .openBrace (.leaf layer.opener), .child .expression tree,
        .child .closeBrace (.leaf layer.closer) ]
  | _ => .ofParts .scope
      [ .child .openCurly (.leaf layer.opener), .child .statements (statementOf tree),
        .child .closeCurly (.leaf layer.closer) ]

/-- Layers, the outermost one first, around an expression. -/
def tree (layers : List Layer) (innermost : Tree) : Tree := layers.foldr enclose innermost

theorem problems_statementOf (tree : Tree) : (statementOf tree).problems = tree.problems := by
  simp [statementOf]

/-- Layers have no problems of their own. -/
theorem problems_tree (layers : List Layer) (innermost : Tree) :
    (tree layers innermost).problems = innermost.problems := by
  induction layers with
  | nil => rfl
  | cons layer layers previous =>
    rw [tree, List.foldr_cons, enclose]
    rw [tree] at previous
    split <;> simp [problems_statementOf, previous]

/-- The mode inside a layer. -/
def mode (layer : Layer) (mode : Mode) : Mode :=
  match layer.delimiter with
  | .brace => mode.bracketed
  | _ => mode.braced

end Layer

/-! ### Tokens that are seen -/

namespace Grammar

/-- A cursor in front of a token that the mode does not pass over, and of others. -/
structure StandsAt (mode : Mode) (cursor : Cursor Lexeme) (token : Lexeme) (more : List Lexeme) :
    Prop where
  rest : cursor.rest = token :: more
  seen : isLineBreak token = true → mode.lineBreaksIgnored = false

namespace StandsAt

variable {mode : Mode} {cursor : Cursor Lexeme} {token : Lexeme} {more : List Lexeme}
  (stands : StandsAt mode cursor token more)

include stands

theorem current : cursor.current = token := by rw [Cursor.current, stands.rest, List.headD_cons]

theorem settle : Reader.settle mode cursor = cursor := by
  by_cases breaks : isLineBreak token = true
  · exact settle_of_lined (stands.seen breaks) cursor
  · refine settle_of_current mode ?_
    rwa [stands.current, ← Bool.not_eq_true]

theorem look : Grammar.look mode cursor = token := by
  rw [Grammar.look, stands.settle, stands.current]

theorem past : (Grammar.past mode cursor).rest = more := by
  rw [past_rest, stands.settle, stands.rest, List.drop_one, List.tail_cons]

omit stands in
/-- A token that opens or closes something is seen in every mode. -/
theorem of_bracket (rest : cursor.rest = token :: more)
    (bracket : token.kind.isOpening = true ∨ token.kind.isClosing = true) :
    StandsAt mode cursor token more := by
  refine ⟨rest, fun breaks => ?_⟩
  rw [eq_of_beq breaks] at bracket
  rcases bracket with opens | closes
  · cases opens
  · cases closes

end StandsAt

/-- A token that ends an expression: a closing bracket, or a line break that is not ignored. -/
def EndsExpression (mode : Mode) (token : Lexeme) : Prop :=
  token.kind.isClosing = true ∨ token.kind = .lineBreak ∧ mode.lineBreaksIgnored = false

theorem StandsAt.of_ends {mode : Mode} {cursor : Cursor Lexeme} {token : Lexeme}
    {more : List Lexeme} (rest : cursor.rest = token :: more) (ends : EndsExpression mode token) :
    StandsAt mode cursor token more := by
  rcases ends with closes | ⟨_, lined⟩
  · exact .of_bracket rest (.inr closes)
  · exact ⟨rest, fun _ => lined⟩

theorem EndsExpression.stops {mode : Mode} {token : Lexeme} (ends : EndsExpression mode token) :
    opensList token.kind = false ∧ infixOf? token = none := by
  unfold EndsExpression at ends
  have all : ∀ kind : TokenKind, kind.isClosing = true ∨ kind = .lineBreak →
      opensList kind = false ∧ kind ≠ .operator := by
    intro kind
    cases kind <;> decide
  obtain ⟨noList, noOperator⟩ := all token.kind (ends.imp_right And.left)
  exact ⟨noList, infixOf?_of_kind noOperator⟩

/-- What an opening bracket is not. -/
structure Begins (token : Lexeme) : Prop where
  noSeparator : isSeparator token = false
  noEnd : endsNesting token.kind = false
  noOperator : token.kind ≠ .operator
  noBrace : token.kind ≠ .closeCurlyBrace
  goesOn : endsBlock none token = false
  goesOnInside : endsBlock (some .closeCurlyBrace) token = false

theorem begins_of_isOpening {token : Lexeme} (opens : token.kind.isOpening = true) :
    Begins token := by
  obtain ⟨kind, start, text⟩ := token
  cases kind <;> first | cases opens; done | exact ⟨rfl, rfl, nofun, nofun, rfl, rfl⟩

end Grammar

/-! ### Reading layers -/

namespace Layer

variable {mode : Mode} {role : Role} {first second : Cursor Lexeme} {levels : Nat}

theorem isOpening (layer : Layer) : layer.opener.kind.isOpening = true := by
  rw [layer.opens, layer.delimiter.isOpening_opener]

theorem isClosing (layer : Layer) : layer.closer.kind.isClosing = true := by
  rw [layer.closes, layer.delimiter.isClosing_closer]

/-- **A layer is read around an expression**, if the expression ends in front of its second
bracket. -/
theorem derives_enclose {layer : Layer} {inner : Tree} {next : Lexeme}
    {further more : List Lexeme} (opens : StandsAt mode first layer.opener (next :: further))
    (begins : next.kind.isOpening = true) (rest : second.rest = layer.closer :: more)
    (run : Derives (.expression levels 0 .expression) (layer.mode mode) (past mode first)
      [.child .expression inner] second) :
    Derives (.primary levels role) mode first [.child role (layer.enclose inner)]
      (past (layer.mode mode) second) := by
  have closes : StandsAt (layer.mode mode) second layer.closer more :=
    .of_bracket rest (.inr layer.isClosing)
  have looked := opens.look
  have close (role : Role) (problem : ProblemKind) :
      Derives (.expected (isOfKind layer.delimiter.closer) role problem) (layer.mode mode) second
        [.child role (.leaf layer.closer)] (past (layer.mode mode) second) := by
    rw [← closes.look]
    refine .found ?_ ?_
    · rw [closes.look, isOfKind, layer.closes, beq_self_eq_true]
    · rw [closes.look]
      exact isReadable_of_kind layer.closes (by cases layer.delimiter <;> rfl)
  have begun : StandsAt (layer.mode mode) (past mode first) next further :=
    .of_bracket opens.past (.inl begins)
  obtain ⟨delimiter, opener, closer, enters, opened, closed⟩ := layer
  rcases enters with rfl | rfl
  · have group := @Derives.group levels role mode first second _ _ _ (by rw [looked, opened]; rfl)
      (.operand run) (close .closeBrace .closeBraceExpected)
    rw [leafAt, looked] at group
    exact group
  · have begins := begins_of_isOpening begins
    have start : pastSeparators (past mode first) = past mode first :=
      skipWhile_of_current (by rw [begun.current]; exact begins.noSeparator)
    have listing := run.listing_of_expression begun.settle closes.settle start
      (by rw [begun.look]; exact begins.goesOnInside) (by rw [begun.look]; exact begins.noBrace)
      (by rw [closes.look, endsStatement, closed]; rfl)
    have stop : pastSeparators second = second :=
      skipWhile_of_current (by rw [closes.current, isSeparator, closed]; rfl)
    have statements := Derives.statements listing
      (by rw [stop, closes.look, endsBlock, closed]; rfl)
    rw [stop, closes.settle] at statements
    have block := @Derives.block levels role mode first _ _ _ _ (by rw [looked, opened]; rfl)
      statements (close .closeCurly .closeBraceExpected)
    rw [leafAt, looked] at block
    refine .blockPrimary (by rw [looked, opened]; rfl) ?_
    rw [opens.settle]
    exact block

/-- What is in layers begins with the bracket of one. -/
theorem tokens_exists_cons (layers : List Layer) (innermost : Layer) (inside : List Lexeme) :
    ∃ (next : Layer) (further : List Lexeme),
      tokens (layers ++ [innermost]) inside = next.opener :: further := by
  cases layers with
  | nil => exact ⟨innermost, _, tokens_cons innermost [] inside⟩
  | cons layer layers => exact ⟨layer, _, tokens_cons layer (layers ++ [innermost]) inside⟩

/-- **Layers are read down to the last level**, and what stands in the innermost is passed over. -/
theorem derives (layers : List Layer) {innermost : Layer} {inside : List Lexeme}
    (nested : IsNested inside) {token : Lexeme} {more : List Lexeme}
    (rest : first.rest = tokens (layers ++ [innermost]) inside ++ token :: more)
    (ends : EndsExpression mode token) :
    ∃ last : Cursor Lexeme, last.rest = token :: more
      ∧ Derives (.expression layers.length 0 role) mode first
        [.child role (tree layers (.cut innermost.opener (inside ++ [innermost.closer])))]
        last := by
  induction layers generalizing mode first role token more with
  | nil =>
    rw [List.nil_append, tokens_cons, List.cons_append, List.append_assoc] at rest
    have stands : StandsAt mode first innermost.opener _ :=
      .of_bracket rest (.inl innermost.isOpening)
    have begins := begins_of_isOpening innermost.isOpening
    have cut := @Derives.cutBracket 0 role mode first (by rw [stands.look]; exact begins.noEnd)
      (by rw [stands.look]; exact innermost.isOpening)
    have behind : (past mode first).rest = (inside ++ [innermost.closer]) ++ token :: more := by
      rw [stands.past]
      simp [tokens]
    have length : closingLength 1 (past mode first).rest
        = (inside ++ [innermost.closer]).length := by
      rw [behind, List.append_assoc]
      exact closingLength_closer nested innermost.closes _
    rw [length, stands.look, behind, List.take_left] at cut
    exact ⟨_, by rw [Cursor.drop, behind, List.drop_left], cut⟩
  | cons layer layers previous =>
    rw [List.cons_append, tokens_cons, List.cons_append, List.append_assoc, List.singleton_append]
      at rest
    have opens : StandsAt mode first layer.opener _ := .of_bracket rest (.inl layer.isOpening)
    obtain ⟨next, further, shape⟩ := tokens_exists_cons layers innermost inside
    obtain ⟨second, behind, inner⟩ := @previous (layer.mode mode) .expression (past mode first)
      layer.closer (token :: more) opens.past (.inl layer.isClosing)
    rw [shape, List.cons_append] at opens
    have primary := @derives_enclose mode role first second _ layer _ _ _ _ opens next.isOpening
      behind inner
    have closes : StandsAt (layer.mode mode) second layer.closer (token :: more) :=
      .of_bracket behind (.inr layer.isClosing)
    have stops : StandsAt mode (past (layer.mode mode) second) token more :=
      .of_ends closes.past ends
    refine ⟨_, stops.rest, .expression_of_suffixed opens.settle stops.settle ?_ ?_ ?_
      (.suffixedStart primary)⟩
    · rw [opens.look]
      exact leadingOf?_of_kind (begins_of_isOpening layer.isOpening).noOperator
    · rw [stops.look]
      exact ends.stops.1
    · rw [stops.look]
      exact ends.stops.2

/-- In front of a line break layers are a statement. -/
theorem derives_listing (layers : List Layer) {innermost : Layer} {inside : List Lexeme}
    (nested : IsNested inside) (lined : mode.lineBreaksIgnored = false) {broken : Lexeme}
    {more : List Lexeme} (breaks : broken.kind = .lineBreak)
    (rest : first.rest = tokens (layers ++ [innermost]) inside ++ broken :: more) :
    ∃ last : Cursor Lexeme, last.rest = broken :: more
      ∧ Derives (.listing none layers.length) mode first
        [.child .statements (statementOf
          (tree layers (.cut innermost.opener (inside ++ [innermost.closer]))))] last := by
  obtain ⟨last, behind, run⟩ := @derives mode .expression first layers innermost inside nested
    broken more rest (.inr ⟨breaks, lined⟩)
  obtain ⟨next, further, shape⟩ := tokens_exists_cons layers innermost inside
  rw [shape, List.cons_append] at rest
  have stands : StandsAt mode first next.opener _ := .of_bracket rest (.inl next.isOpening)
  have stops : StandsAt mode last broken more := ⟨behind, fun _ => lined⟩
  have begins := begins_of_isOpening next.isOpening
  refine ⟨last, behind, run.listing_of_expression stands.settle stops.settle ?_ ?_ ?_ ?_⟩
  · exact skipWhile_of_current (by rw [stands.current]; exact begins.noSeparator)
  · rw [stands.look]
    exact begins.goesOn
  · rw [stands.look]
    exact begins.noBrace
  · rw [stops.look, endsStatement, breaks]
    rfl

end Layer

end RSource
