/-
**Behind brackets that are nested too deeply reading goes on where it should.**

More than `maxNesting` opening parentheses and curly braces, nested tokens, and the brackets that
close them are one statement: each of the first `maxNesting` brackets meets its own closing bracket
(`Layer.derives`), the next one is met with the only problem, and what stands in it is passed over,
line breaks included. Behind the last bracket none is open, so the lexer starts anew behind the line
break there (`lexemes_append_lineBreak`), and any text behind it is read as it is alone. Main
statement: `Reading.skip_resumes`.
-/

import RSource.Proofs.Concatenation
import RSource.Proofs.Grammar.Layers
import RSource.Proofs.Token.Closed

namespace RSource

open Grammar Reader Cursor Lexer

/-! ### Two readings -/

/-- The reading of `whole` is that of `items`, and behind them that of `behind`, moved on. -/
structure Reading.GoesOn (whole behind : Text) (items : List Part) (comments : List Token)
    (offset : Nat) : Prop where
  tree : ∃ others, (read behind).tree = .node .globalScope ⟨0, behind.bytes⟩ others
    ∧ (read whole).tree
      = .node .globalScope ⟨0, whole.bytes⟩ (items ++ Tree.shiftParts offset others)
  comments : (read whole).comments = comments ++ (read behind).comments.map (·.shift offset)

namespace Reading.GoesOn

variable {whole behind rest : Text} {items : List Part} {comments : List Token} {offset : Nat}

theorem problems (goesOn : GoesOn whole behind items comments offset) :
    (read whole).problems
      = Tree.partsProblems items ++ (read behind).problems.map (·.shift offset) := by
  obtain ⟨others, alone, both⟩ := goesOn.tree
  rw [Reading.problems, Reading.problems, both, alone, Tree.problems_node, Tree.problems_node,
    Tree.partsProblems_append, Tree.partsProblems_shiftParts]

/-- What stands in front of the second text may be part of it. -/
theorem of_suffix {between : Nat} (far : GoesOn whole rest items comments (between + offset))
    (near : GoesOn behind rest [] [] between) : GoesOn whole behind items comments offset where
  tree := by
    obtain ⟨others, alone, both⟩ := far.tree
    obtain ⟨again, same, inside⟩ := near.tree
    obtain ⟨_, _, rfl⟩ := Tree.node.inj (alone.symm.trans same)
    refine ⟨_, inside, ?_⟩
    rw [both, List.nil_append, Tree.shiftParts_shiftParts]
  comments := by
    rw [far.comments, near.comments, List.nil_append, List.map_map]
    refine congrArg (comments ++ ·) (List.map_congr_left fun token _ => ?_)
    exact (token.shift_shift between offset).symm

end Reading.GoesOn

/-- **Behind a line break a text is read as it is alone.** -/
theorem Resumes.goesOn {text behind : Text} {front : List Lexeme} {broken : Lexeme} {offset : Nat}
    (resumes : Resumes text behind front broken offset) {items : List Part}
    {middle : Cursor Lexeme}
    (listing : Derives (.listing none maxNesting) .outermost (beginning text) items middle)
    (rest : middle.rest = broken :: (significant behind).map (·.shift offset)) :
    Reading.GoesOn text behind items ((front.filter (·.isComment)).map (·.token)) offset where
  tree := by
    obtain ⟨others, last, second⟩ := Reading.derivation behind
    have separates : isSeparator broken = true :=
      isSeparator_of_isLineBreak (beq_iff_eq.mpr resumes.breaks)
    have ended : (pastSeparators middle).rest
        = ((significant behind).map (·.shift offset)).dropWhile isSeparator := by
      show middle.rest.dropWhile isSeparator = _
      rw [rest, List.dropWhile_cons_of_pos separates]
    obtain ⟨final, derives⟩ := resumes.derives listing ended second
    exact ⟨others, second.tree, (derivation_of_derives derives).tree⟩
  comments := resumes.comments_eq

/-! ### The line break -/

/-- A line break in a text: what stands in front of it ends all of its words and brackets. -/
theorem resumes_append_lineBreak {before word behind : Text}
    (balanced : openedBehind [] ((lexemes before).map (·.kind)) = [])
    (closed : ∀ lexeme ∈ (lexemes before).getLast?, closes lexeme.kind = true)
    (breaks : IsLineBreak word behind) :
    Resumes (before ++ word ++ behind) behind (lexemes before) ⟨.lineBreak, before.bytes, word⟩
      (before ++ word).bytes where
  whole := lexemes_append_lineBreak balanced closed breaks
  breaks := rfl
  size := by
    rw [Text.bytes_append]
    exact Nat.add_comm _ _

/-- A line feed in front of a text adds nothing to what is read of it. -/
theorem goesOn_lineFeed (behind : Text) : Reading.GoesOn ('\n' :: behind) behind [] [] 1 := by
  have resumes : Resumes ('\n' :: behind) behind [] ⟨.lineBreak, 0, ['\n']⟩ 1 :=
    @resumes_append_lineBreak [] ['\n'] behind rfl nofun (.inl rfl)
  exact resumes.goesOn .listingStart resumes.significant_eq

/-! ### Layers in front of a line break -/

section Layers

variable {before : Text} {layers : List Layer} {inside : List Lexeme}
  (tokens : significant before = Layer.tokens layers inside)

include tokens

/-- Behind layers no square bracket is open. -/
theorem openedBehind_of_layers (nested : IsNested inside) :
    openedBehind [] ((lexemes before).map (·.kind)) = [] := by
  rw [← openedBehind_significant, tokens]
  exact (Layer.isNested_tokens layers nested).isBalanced []

/-- Layers end with a bracket, or with a blank or a comment behind it. -/
theorem closes_of_layers (some : layers ≠ []) :
    ∀ lexeme ∈ (lexemes before).getLast?, closes lexeme.kind = true := by
  intro lexeme last
  by_cases trivial : lexeme.kind.isTrivia = true
  · rw [closes, trivial, Bool.or_true]
  obtain ⟨front, shape⟩ := List.getLast?_eq_some_iff.mp last
  obtain ⟨layer, others, rfl⟩ := List.exists_cons_of_ne_nil some
  have kept : lexeme.isWhitespace = false ∧ lexeme.isComment = false := by
    unfold Lexeme.isWhitespace Lexeme.isComment
    revert trivial
    cases lexeme.kind <;> decide
  have final : (significant before).getLast? = Option.some lexeme := by
    rw [significant, shape, List.filter_append, List.filter_append, List.filter_cons_of_pos,
      List.filter_cons_of_pos, List.filter_nil, List.filter_nil, List.getLast?_concat]
    · rw [kept.2, Bool.not_false]
    · rw [kept.1, Bool.not_false]
  rw [tokens, Layer.tokens_cons, ← List.cons_append, List.getLast?_concat] at final
  rw [← Option.some.inj final, closes, layer.isClosing, Bool.true_or]

/-- **Behind the line break reading goes on**, where there is one layer more than are read. -/
theorem goesOn_of_layers {word behind : Text} {outer inner : List Layer} {tooDeep : Layer}
    (split : layers = outer ++ tooDeep :: inner) (limit : outer.length = maxNesting)
    (nested : IsNested inside) (breaks : IsLineBreak word behind) :
    Reading.GoesOn (before ++ word ++ behind) behind
      [.child .statements (Layer.statementOf (Layer.tree outer
        (.cut tooDeep.opener (Layer.tokens inner inside ++ [tooDeep.closer]))))]
      (read before).comments (before ++ word).bytes := by
  have resumes := resumes_append_lineBreak (openedBehind_of_layers tokens nested)
    (closes_of_layers tokens (split ▸ by simp)) breaks
  have rest : (beginning (before ++ word ++ behind)).rest
      = Layer.tokens (outer ++ [tooDeep]) (Layer.tokens inner inside)
        ++ ⟨.lineBreak, before.bytes, word⟩
          :: (significant behind).map (·.shift (before ++ word).bytes) := by
    have whole : outer ++ [tooDeep] ++ inner = layers := by simp [split]
    rw [← Layer.tokens_append, whole, ← tokens]
    exact resumes.significant_eq
  obtain ⟨last, stops, listing⟩ := @Layer.derives_listing .outermost _ outer _ _
    (Layer.isNested_tokens inner nested) rfl _ _ rfl rest
  rw [limit] at listing
  exact resumes.goesOn listing stops

end Layers

/-- The ways to end a line. -/
def lineBreaks : List Text := [['\n'], ['\r', '\n'], ['\r']]

/-- **Past the limit on nesting reading goes on where it should.** More than `maxNesting` opening
parentheses and curly braces, nested tokens, the closing brackets and a line break: the problem is
the only one in front of the line break, and is at the first opening bracket beyond the limit; all
of it is one statement, in which each bracket up to the limit has its closing bracket; and the text
behind the line break is read as it is alone, further on. -/
theorem Reading.skip_resumes {before word behind : Text} {layers : List Layer}
    {inside : List Lexeme} (tokens : significant before = Layer.tokens layers inside)
    (deep : maxNesting < layers.length) (nested : IsNested inside) (breaks : word ∈ lineBreaks) :
    let tooDeep := layers.get ⟨maxNesting, deep⟩
    let skipped := Layer.tokens (layers.drop (maxNesting + 1)) inside ++ [tooDeep.closer]
    let offset := (before ++ word).bytes
    ∃ others, (read behind).tree = .node .globalScope ⟨0, behind.bytes⟩ others
      ∧ (read (before ++ word ++ behind)).tree
        = .node .globalScope ⟨0, (before ++ word ++ behind).bytes⟩
          (.child .statements (Layer.statementOf
            (Layer.tree (layers.take maxNesting) (.cut tooDeep.opener skipped)))
            :: Tree.shiftParts offset others)
      ∧ (read (before ++ word ++ behind)).problems
        = ⟨.nestingTooDeep, tooDeep.opener.token⟩ :: (read behind).problems.map (·.shift offset)
      ∧ (read (before ++ word ++ behind)).comments
        = (read before).comments ++ (read behind).comments.map (·.shift offset) := by
  intro tooDeep skipped offset
  have split : layers = layers.take maxNesting ++ tooDeep :: layers.drop (maxNesting + 1) := by
    have behindLimit : layers.drop maxNesting = tooDeep :: layers.drop (maxNesting + 1) :=
      List.drop_eq_getElem_cons deep
    rw [← behindLimit, List.take_append_drop]
  have limit : (layers.take maxNesting).length = maxNesting :=
    List.length_take_of_le (Nat.le_of_lt deep)
  have goesOn : GoesOn (before ++ word ++ behind) behind
      [.child .statements (Layer.statementOf
        (Layer.tree (layers.take maxNesting) (.cut tooDeep.opener skipped)))]
      (read before).comments offset := by
    by_cases half : word = ['\r'] ∧ behind.head? = some '\n'
    · -- the carriage return and the first line feed of the other text are one line break
      obtain ⟨rfl, head⟩ := half
      obtain ⟨rest, rfl⟩ := List.head?_eq_some_iff.mp head
      have far := goesOn_of_layers tokens split limit nested
        (.inr (.inl rfl) : IsLineBreak ['\r', '\n'] rest)
      have whole : before ++ ['\r', '\n'] ++ rest = before ++ ['\r'] ++ '\n' :: rest := by simp
      have further : (before ++ ['\r', '\n']).bytes = 1 + offset := by
        have narrow : '\r'.utf8Size = 1 ∧ '\n'.utf8Size = 1 := by decide
        simp only [offset, Text.bytes_append, Text.bytes_cons, Text.bytes_nil]
        omega
      rw [whole, further] at far
      exact far.of_suffix (goesOn_lineFeed rest)
    · have single : IsLineBreak word behind := by
        simp only [lineBreaks, List.mem_cons, List.not_mem_nil, or_false] at breaks
        rcases breaks with rfl | rfl | rfl
        · exact .inl rfl
        · exact .inr (.inl rfl)
        · exact .inr (.inr ⟨rfl, fun head => half ⟨rfl, head⟩⟩)
      exact goesOn_of_layers tokens split limit nested single
  have problems := goesOn.problems
  rw [Tree.partsProblems, Tree.partsProblems, Tree.partProblems, Layer.problems_statementOf,
    Layer.problems_tree] at problems
  obtain ⟨others, alone, both⟩ := goesOn.tree
  exact ⟨others, alone, both, problems, goesOn.comments⟩

/-- The `place`-th parenthesis of a text of 261 bytes, and the curly brace in it. -/
def Layer.turn (place : Nat) : List Layer :=
  [ ⟨.brace, ⟨.openBrace, 2 * place, ['(']⟩, ⟨.closeBrace, 260 - 2 * place, [')']⟩, .inl rfl, rfl,
      rfl⟩,
    ⟨.curlyBrace, ⟨.openCurlyBrace, 2 * place + 1, ['\x7b']⟩,
      ⟨.closeCurlyBrace, 259 - 2 * place, ['\x7d']⟩, .inr rfl, rfl, rfl⟩ ]

/-- Parentheses and curly braces by turns around a name: the limit is reached at a parenthesis. The
carriage return and the line feed behind them are one line break, and the bracket there is met with
a problem of its own. -/
theorem Reading.skip_resumes_by_turns :
    ∃ before layers inside, before = (List.replicate 65 ['(', '\x7b']).flatten ++ ['x']
        ++ (List.replicate 65 ['\x7d', ')']).flatten
      ∧ significant before = Layer.tokens layers inside ∧ maxNesting < layers.length
      ∧ IsNested inside ∧ ['\r'] ∈ lineBreaks
      ∧ (read (before ++ ['\r'] ++ ['\n', ')'])).problems
        = ⟨.nestingTooDeep, ⟨.openBrace, 128, 1⟩⟩
          :: (read ['\n', ')']).problems.map (·.shift 262) := by
  obtain ⟨before, text⟩ : ∃ before : Text,
      before = (List.replicate 65 ['(', '\x7b']).flatten ++ ['x']
        ++ (List.replicate 65 ['\x7d', ')']).flatten := ⟨_, rfl⟩
  obtain ⟨layers, shape⟩ : ∃ layers, layers = (List.range 65).flatMap Layer.turn := ⟨_, rfl⟩
  have tokens : significant before = Layer.tokens layers [⟨.identifier, 130, ['x']⟩] := by
    rw [text, shape]
    decide +kernel
  have deep : maxNesting < layers.length := by
    rw [shape]
    decide +kernel
  have nested : IsNested [⟨.identifier, 130, ['x']⟩] := .plain rfl rfl .nil
  have breaks : ['\r'] ∈ lineBreaks := by decide
  obtain ⟨_, _, _, problems, _⟩ :=
    @Reading.skip_resumes _ _ ['\n', ')'] _ _ tokens deep nested breaks
  have opener : layers[maxNesting]?.map (·.opener.token) = some ⟨.openBrace, 128, 1⟩ := by
    rw [shape]
    decide +kernel
  rw [List.getElem?_eq_getElem deep] at opener
  have atLimit : (layers.get ⟨maxNesting, deep⟩).opener.token = ⟨.openBrace, 128, 1⟩ :=
    Option.some.inj opener
  have offset : (before ++ ['\r']).bytes = 262 := by
    rw [text]
    decide +kernel
  rw [offset, atLimit] at problems
  exact ⟨before, layers, _, text, tokens, deep, nested, breaks, problems⟩

end RSource
