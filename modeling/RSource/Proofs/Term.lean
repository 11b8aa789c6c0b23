/-
**Terms come back from their text.**

Main statement: `Term.read_term`, the text of a term whose arguments are nested fewer than
`maxNesting` deep is read without problems as one statement, whose expression is the term. The
brackets, single and double, close in the tree as they open in the term.
-/

import RSource.Proofs.Term.Reading

namespace RSource

open Cursor Grammar Reader Lexer Pattern TokenRules

namespace Term

/-- A term over names that are not reserved. A name between backticks has both of them where the
term goes on behind it: without its second one it would take in the rest. -/
structure IsProper (term : Term) : Prop where
  names : ∀ word ∈ term.names, IsName word
  closed : ∀ word ∈ term.names, term = .name word ∨ IsClosed word

/-- **The pieces of a term's text are its words.** -/
theorem IsProper.pieces {term : Term} (proper : term.IsProper) :
    Lexer.pieces term.text [] term.text = term.pieces := by
  cases term with
  | name word =>
    have name := proper.names word List.mem_cons_self
    show Lexer.pieces word [] word = [(.identifier, word)]
    rw [pieces_word [] name.isWord (Nat.le_refl _), name.wordKind]
  | applied bracket target arguments =>
    have closed : ∀ word ∈ (applied bracket target arguments).names, IsClosedName word :=
      fun word member => ⟨proper.names word member, (proper.closed word member).resolve_left nofun⟩
    have run := (@runs [] [] (applied bracket target arguments) closed nofun).pieces
    rw [List.append_nil] at run
    rw [run]
    exact List.append_nil _

/-- The grammar reads all of them. -/
theorem IsProper.significant {term : Term} (proper : term.IsProper) :
    significant term.text = place 0 term.pieces := by
  have whole : lexemes term.text = place 0 term.pieces := by
    rw [lexemes, lexemesFrom, proper.pieces]
  have kept : ∀ lexeme ∈ lexemes term.text, lexeme.kind ∈ kinds := by
    intro lexeme member
    rw [whole] at member
    exact kind_mem_of_mem_pieces term (mem_of_mem_place member)
  have read {lexeme : Lexeme} (member : lexeme ∈ lexemes term.text) :
      lexeme.isWhitespace = false ∧ lexeme.isComment = false := by
    have all : ∀ kind ∈ kinds, (kind == .whitespace) = false ∧ (kind == .comment) = false := by
      decide
    exact all _ (kept lexeme member)
  rw [RSource.significant, ← whole, List.filter_eq_self.mpr, List.filter_eq_self.mpr]
  · exact fun lexeme member => by rw [(read member).1, Bool.not_false]
  · exact fun lexeme member => by rw [(read (List.mem_filter.mp member).1).2, Bool.not_false]

/-- No separator stands in front of a term or behind it. -/
theorem Faces.pastSeparators {cursor : Cursor Lexeme} {tokens : List Lexeme}
    (faces : Faces cursor tokens) : Grammar.pastSeparators cursor = cursor := by
  refine skipWhile_of_current ?_
  rw [isSeparator, beq_eq_false_iff_ne.mpr (faces.kind_ne (by decide)),
    beq_eq_false_iff_ne.mpr (faces.kind_ne (by decide)), Bool.false_or]

/-- An expression over all tokens is the only statement. -/
theorem Faces.statements {levels : Nat} {first last : Cursor Lexeme} {token : Lexeme}
    {front : List Lexeme} {tree : Tree} (before : Faces first (token :: front))
    (behind : Faces last [])
    (run : Derives (.expression levels 0 .expression) .outermost first [.child .expression tree]
      last) :
    Derives (.statements none levels) .outermost first
      [.child .statements (.ofParts .statement [.child .expression tree])] last := by
  have ended := behind.kind_look_nil .outermost
  have looked := before.look_cons .outermost
  have kind := before.kinds token List.mem_cons_self
  have others : ∀ kind ∈ Term.kinds,
      kind ≠ .closeCurlyBrace ∧ endsBlock none ⟨kind, 0, []⟩ = false := by decide
  have list := run.listing_of_expression (before.settle _) (behind.settle _) before.pastSeparators
    (show endsBlock none _ = false by rw [looked]; exact (others _ kind).2)
    (by rw [looked]; exact (others _ kind).1) (by rw [endsStatement, ended]; rfl)
  have whole := Derives.statements list
    (by rw [behind.pastSeparators, endsBlock, ended]; rfl)
  rwa [behind.pastSeparators, behind.settle] at whole

/-- **A term is read as itself.** -/
theorem read_term {term : Term} (proper : term.IsProper) (shallow : term.depth < maxNesting) :
    (read term.text).problems = []
      ∧ (read term.text).tree = .node .globalScope ⟨0, term.text.bytes⟩
          [.child .statements (.ofParts .statement [.child .expression (term.treeAt 0)])] := by
  obtain ⟨word, rest, shape⟩ := place_exists_cons 0 term
  have faces : Faces (beginning term.text) (place 0 term.pieces ++ []) := by
    rw [List.append_nil]
    refine ⟨proper.significant, fun lexeme member => ?_, rfl⟩
    exact kind_mem_of_mem_pieces term (mem_of_mem_place member)
  obtain ⟨last, behind, run⟩ := @derives_suffixed _ _ .expression .outermost _ _ term
    (Nat.le_of_lt_succ shallow) faces
  have expression := faces.expression behind (by rw [behind.kind_look_nil]; rfl) run
  rw [shape, List.append_nil] at faces
  have tree := (derivation_of_derives (faces.statements behind expression)).tree
  refine ⟨?_, tree⟩
  rw [Reading.problems, tree]
  simp [Tree.problems, Tree.partsProblems, Tree.partProblems, Tree.ofParts, problems_treeAt]

/-- Calls and indexes in one another: three closing brackets behind each other belong to a double
bracket and a single one, three others to a single bracket and a double one. -/
theorem read_nested :
    ∃ term : Term, term.text = "f(x[y[[z]]],`a b`[[i[]]])()".toList ∧ term.IsProper
      ∧ term.depth < maxNesting ∧ (read term.text).problems = []
      ∧ (read term.text).tree = .node .globalScope ⟨0, term.text.bytes⟩
          [.child .statements (.ofParts .statement [.child .expression (term.treeAt 0)])] := by
  let term : Term :=
    .applied .round (.applied .round (.name ['f'])
      [ .applied .square (.name ['x']) [.applied .doubleSquare (.name ['y']) [.name ['z']]],
        .applied .doubleSquare (.name "`a b`".toList) [.applied .square (.name ['i']) []] ]) []
  have name {word : Text} (matched : identifier.accepts word = true)
      (free : classifyWord word = .identifier) : IsName word := ⟨(accepts_iff _ _).mp matched, free⟩
  have plain (c : Char) (free : c ≠ '`' ∧ c ≠ '%') : IsClosed [c] := by
    intro quote kinds first
    obtain rfl : c = quote := Option.some.inj first
    exact absurd kinds (not_or.mpr free)
  have quoted : IsClosed "`a b`".toList := by
    intro quote _ first
    obtain rfl : '`' = quote := Option.some.inj first
    exact ⟨"a b".toList, by decide, rfl⟩
  have proper : term.IsProper := by
    constructor
    · show ∀ word ∈ [['f'], ['x'], ['y'], ['z'], "`a b`".toList, ['i']], IsName word
      simp only [List.forall_mem_cons]
      exact ⟨name rfl rfl, name rfl rfl, name rfl rfl, name rfl rfl, name rfl rfl, name rfl rfl,
        nofun⟩
    · show ∀ word ∈ [['f'], ['x'], ['y'], ['z'], "`a b`".toList, ['i']],
        term = .name word ∨ IsClosed word
      simp only [List.forall_mem_cons]
      exact ⟨.inr (plain _ (by decide)), .inr (plain _ (by decide)), .inr (plain _ (by decide)),
        .inr (plain _ (by decide)), .inr quoted, .inr (plain _ (by decide)), nofun⟩
  exact ⟨term, rfl, proper, by decide, read_term proper (by decide)⟩

end Term

end RSource
