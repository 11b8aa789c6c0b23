/-
**A chain of infix operators, from its text to its tree.**

A chain is an operand with operators and operands behind it, written with single blanks. Main
statement: `Chain.read_eq`, a text that is a chain of fewer than `maxNesting` operators is read
without problems as one statement, whose expression is the reference tree of its tokens.
-/

import RSource.Proofs.Chain.Reading
import RSource.Proofs.Token.Spaced

namespace RSource

open Pattern TokenRules Grammar

/-- A name that is not reserved, or a number. -/
def IsOperandWord (word : Text) : Prop :=
  Matches identifier word ∧ (classifyWord word = .identifier ∨ classifyWord word = .number)
    ∨ Matches number word

/-- An operator between two operands, of which the right one is an expression. -/
def IsInfixWord (word : Text) : Prop :=
  Matches operator word
    ∧ ∃ operator, Operator.ofInfixText? word = some operator ∧ operator.isAccessor = false

theorem IsOperandWord.isWord {word : Text} (operand : IsOperandWord word) : IsWord word := by
  rcases operand with ⟨name, _⟩ | number
  · exact .inl name
  · exact .inr (.inl number)

theorem IsInfixWord.isWord {word : Text} (sign : IsInfixWord word) : IsWord word :=
  .inr (.inr sign.1)

/-- The words of a chain: an operand, and operators with the operands behind them. -/
structure Chain where
  first : Text
  links : List (Text × Text)
  deriving Repr, DecidableEq

namespace Chain

def operands (chain : Chain) : List Text := chain.first :: chain.links.map (·.2)

def words (chain : Chain) : List Text :=
  chain.first :: chain.links.flatMap fun link => [link.1, link.2]

/-- A chain as it is written. -/
def text (chain : Chain) : Text := spaced chain.words

/-- A chain of names and numbers with infix operators between them. A name between backticks has
both of them where the chain goes on behind it: without its second one it would take in the rest. -/
structure IsProper (chain : Chain) : Prop where
  operands : ∀ word ∈ chain.operands, IsOperandWord word
  signs : ∀ link ∈ chain.links, IsInfixWord link.1
  closed : ∀ word ∈ chain.operands.dropLast, Matches identifier word → IsClosed word

/-- A chain without its first operand and operator. -/
theorem IsProper.tail {first : Text} {link : Text × Text} {links : List (Text × Text)}
    (proper : IsProper ⟨first, link :: links⟩) : IsProper ⟨link.2, links⟩ where
  operands word member := proper.operands word (List.mem_cons_of_mem _ member)
  signs other member := proper.signs other (List.mem_cons_of_mem _ member)
  closed word member := proper.closed word (List.mem_cons_of_mem _ member)

theorem IsProper.isWord {chain : Chain} (proper : chain.IsProper) :
    ∀ word ∈ chain.words, IsWord word := by
  intro word member
  rcases List.mem_cons.mp member with rfl | behind
  · exact (proper.operands _ List.mem_cons_self).isWord
  obtain ⟨link, listed, inLink⟩ := List.mem_flatMap.mp behind
  have operand : link.2 ∈ chain.operands :=
    List.mem_cons_of_mem _ (List.mem_map_of_mem listed)
  simp only [List.mem_cons, List.not_mem_nil, or_false] at inLink
  rcases inLink with rfl | rfl
  · exact (proper.signs link listed).isWord
  · exact (proper.operands _ operand).isWord

/-- Every word of a chain but the last one ends with its second quote. -/
theorem IsProper.isClosed {chain : Chain} (proper : chain.IsProper) :
    ∀ word ∈ chain.words.dropLast, IsClosed word := by
  obtain ⟨first, links⟩ := chain
  induction links generalizing first with
  | nil => nofun
  | cons link links previous =>
    have closedFirst : IsClosed first := by
      rcases proper.operands first List.mem_cons_self with ⟨name, _⟩ | number
      · exact proper.closed first List.mem_cons_self name
      · exact isClosed_of_number number
    have closedSign := isClosed_of_operator (proper.signs link List.mem_cons_self).1
    intro word member
    have split : word = first ∨ word = link.1 ∨ word ∈ (words ⟨link.2, links⟩).dropLast := by
      simpa [words] using member
    rcases split with rfl | rfl | behind
    · exact closedFirst
    · exact closedSign
    · exact previous link.2 proper.tail word behind

end Chain

/-! ### The tokens of a chain -/

/-- The words of a link. -/
def Link.texts (link : Link) : Text × Text := (link.sign.text, link.operand.text)

/-- A token of an operand's kind is an atom. -/
theorem isAtom_of_operand {lexeme : Lexeme} (operand : IsOperandWord lexeme.text)
    (kind : lexeme.kind = wordKind lexeme.text) : isAtom lexeme = true := by
  have found : lexeme.kind = .identifier ∨ lexeme.kind = .number := by
    rw [kind]
    rcases operand with ⟨name, word⟩ | number
    · rwa [wordKind_of_identifier name]
    · exact .inr (wordKind_of_number number)
  rcases found with found | found <;> rw [isAtom, found] <;> rfl

theorem Link.isPlain_of_words {link : Link} (sign : IsInfixWord link.sign.text)
    (operand : IsOperandWord link.operand.text)
    (signKind : link.sign.kind = wordKind link.sign.text)
    (operandKind : link.operand.kind = wordKind link.operand.text) : link.IsPlain where
  infixOf := by
    obtain ⟨operator, found, plain⟩ := sign.2
    refine ⟨operator, ?_, plain⟩
    rw [infixOf?, signKind, wordKind_of_operator sign.1]
    exact found
  atom := isAtom_of_operand operand operandKind

/-- Tokens over the words of links are links. -/
theorem exists_links {words : List (Text × Text)} {tokens : List Lexeme}
    (signs : ∀ link ∈ words, IsInfixWord link.1) (operands : ∀ link ∈ words, IsOperandWord link.2)
    (same : tokens.map Lexeme.piece
      = (words.flatMap fun link => [link.1, link.2]).map fun word => (wordKind word, word)) :
    ∃ links, tokens = linkTokens links ∧ links.map Link.texts = words
      ∧ ∀ link ∈ links, link.IsPlain := by
  induction words generalizing tokens with
  | nil => exact ⟨[], List.map_eq_nil_iff.mp same, rfl, nofun⟩
  | cons word words previous =>
    rw [List.forall_mem_cons] at signs operands
    obtain ⟨sign, behind, rfl, signPiece, same⟩ := List.map_eq_cons_iff.mp same
    obtain ⟨operand, rest, rfl, operandPiece, same⟩ := List.map_eq_cons_iff.mp same
    obtain ⟨links, rfl, texts, plain⟩ := previous signs.2 operands.2 same
    obtain ⟨signKind, signText⟩ := Prod.mk.inj signPiece
    obtain ⟨operandKind, operandText⟩ := Prod.mk.inj operandPiece
    refine ⟨⟨sign, operand⟩ :: links, rfl, ?_, List.forall_mem_cons.mpr ⟨?_, plain⟩⟩
    · rw [List.map_cons, texts, Link.texts, signText, operandText]
    · refine Link.isPlain_of_words ?_ ?_ ?_ ?_
      · rw [signText]
        exact signs.1
      · rw [operandText]
        exact operands.1
      · rw [signText]
        exact signKind
      · rw [operandText]
        exact operandKind

/-- **The tokens of a chain are its words.** -/
theorem Chain.IsProper.tokens {chain : Chain} (proper : chain.IsProper) :
    ∃ first links, significant chain.text = first :: linkTokens links
      ∧ first.text = chain.first ∧ links.map Link.texts = chain.links
      ∧ isAtom first = true ∧ ∀ link ∈ links, link.IsPlain := by
  have same := significant_spaced proper.isWord proper.isClosed
  obtain ⟨first, behind, shape, piece, same⟩ := List.map_eq_cons_iff.mp same
  obtain ⟨kind, text⟩ := Prod.mk.inj piece
  obtain ⟨links, rfl, texts, plain⟩ := exists_links proper.signs
    (fun link member =>
      proper.operands _ (List.mem_cons_of_mem _ (List.mem_map_of_mem member))) same
  refine ⟨first, links, shape, text, texts, isAtom_of_operand ?_ ?_, plain⟩
  · rw [text]
    exact proper.operands _ List.mem_cons_self
  · rw [text]
    exact kind

/-! ### The tree of a chain -/

/-- In front of a chain statements are one statement over all of it. -/
theorem Grammar.Derives.takesAll {levels : Nat} {mode : Mode} {first last : Cursor Lexeme}
    {items : List Part} {word : Lexeme} {links : List Link}
    (run : Derives (.statements none levels) mode first items last)
    (stands : Stands first word links) (short : links.length < levels) :
    ∃ tree, items = [.child .statements (.ofParts .statement [.child .expression tree])]
      ∧ Spells tree word links := by
  cases run with
  | statements listing ends =>
    rcases listing.reads word links stands short with ⟨_, same⟩ | ⟨tree, same, spells, _⟩
    · have goesOn : (look mode first).kind ≠ .endOfStream := stands.kind_ne mode rfl
      rw [same, stands.pastSeparators, endsBlock, Bool.or_eq_true, beq_iff_eq] at ends
      rcases ends with ended | never
      · exact absurd ended goesOn
      · cases never
    · exact ⟨tree, same, spells⟩

/-- **A chain is read as its reference tree.** -/
theorem Chain.read_eq {chain : Chain} (proper : chain.IsProper)
    (short : chain.links.length < maxNesting) :
    ∃ first links, significant chain.text = first :: linkTokens links
      ∧ first.text = chain.first ∧ links.map Link.texts = chain.links
      ∧ (read chain.text).problems = []
      ∧ (read chain.text).tree = .node .globalScope ⟨0, chain.text.bytes⟩
          [.child .statements (.ofParts .statement
            [.child .expression (reference first links)])] := by
  obtain ⟨first, links, tokens, firstText, texts, atom, plain⟩ := proper.tokens
  obtain ⟨items, last, derivation⟩ := Reading.derivation chain.text
  have stands : Stands (beginning chain.text) first links := ⟨tokens, atom, plain, rfl⟩
  have fewer : links.length < maxNesting := by rwa [← texts, List.length_map] at short
  obtain ⟨tree, rfl, spells⟩ := derivation.derives.takesAll stands fewer
  have clean : Tree.partsProblems
      [.child .statements (.ofParts .statement [.child .expression tree])] = [] := by
    simp [spells.problems]
  have statement : (Tree.ofParts .statement [.child .expression tree]).All Tree.IsWellGrouped :=
    (derivation.derives.grouped clean).below _ List.mem_cons_self
  have grouped : tree.All Tree.IsWellGrouped := by
    simpa using ((Tree.all_ofParts_iff _ _).mp statement).2
  obtain ⟨rfl, _⟩ := spells.eq_reference plain grouped
  refine ⟨first, links, tokens, firstText, texts, ?_, derivation.tree⟩
  rw [Reading.problems, derivation.tree]
  exact clean

/-- A word is an operand as soon as its pattern and its kind say so. -/
theorem isOperandWord_of_accepts {word : Text} (name : identifier.accepts word = true)
    (kind : classifyWord word = .identifier) : IsOperandWord word :=
  .inl ⟨(accepts_iff _ _).mp name, .inl kind⟩

/-- The chain of an assignment, a difference, a power and an operator between percent signs, with a
name between backticks. -/
theorem Chain.read_assignment :
    ∃ chain : Chain, chain.text = "a <- `b c` - 2 ^ x %in% d".toList ∧ chain.IsProper
      ∧ ∃ first links, significant chain.text = first :: linkTokens links
        ∧ first.text = chain.first ∧ links.map Link.texts = chain.links
        ∧ (read chain.text).problems = []
        ∧ (read chain.text).tree = .node .globalScope ⟨0, chain.text.bytes⟩ [.child .statements
            (.ofParts .statement [.child .expression (reference first links)])] := by
  have proper : Chain.IsProper ⟨['a'], [("<-".toList, "`b c`".toList), (['-'], ['2']),
      (['^'], ['x']), ("%in%".toList, ['d'])]⟩ := by
    refine ⟨?_, ?_, ?_⟩
    · simp only [Chain.operands, List.map_cons, List.map_nil, List.forall_mem_cons]
      exact ⟨isOperandWord_of_accepts rfl rfl, isOperandWord_of_accepts rfl rfl,
        .inr ((accepts_iff _ _).mp rfl), isOperandWord_of_accepts rfl rfl,
        isOperandWord_of_accepts rfl rfl, nofun⟩
    · simp only [List.forall_mem_cons]
      exact ⟨⟨(accepts_iff _ _).mp rfl, _, rfl, rfl⟩, ⟨(accepts_iff _ _).mp rfl, _, rfl, rfl⟩,
        ⟨(accepts_iff _ _).mp rfl, _, rfl, rfl⟩, ⟨(accepts_iff _ _).mp rfl, _, rfl, rfl⟩, nofun⟩
    · simp only [Chain.operands, List.map_cons, List.map_nil, List.dropLast_cons_cons,
        List.dropLast_singleton, List.forall_mem_cons]
      refine ⟨fun _ => ?_, fun _ => ?_, fun _ => ?_, fun _ => ?_, nofun⟩
      all_goals
        rintro quote (rfl | rfl) first
        all_goals first
          | exact absurd first (by decide)
          | exact ⟨"b c".toList, by decide, rfl⟩
  exact ⟨_, by decide, proper, Chain.read_eq proper (by decide)⟩

end RSource
