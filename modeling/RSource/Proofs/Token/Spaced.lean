/-
**Words between single blanks are the tokens of their text.**

`wordKind word` is the kind of the token that a word is alone. Main statement: `significant_spaced`,
the tokens of names, numbers and operators with a blank between every two are these words, one for
one and of these kinds. A name between backticks has to be closed, unless it is the last word.
-/

import RSource.Proofs.Program
import RSource.Proofs.Token.Words

namespace RSource

open Pattern TokenRules Lexer

/-- The kind of the token that a word is. -/
def wordKind (word : Text) : TokenKind :=
  match kindOf? tokenRules word with
  | some .identifier => classifyWord word
  | some kind => kind
  | none => .unknown

theorem wordKind_of_identifier {word : Text} (name : Matches identifier word) :
    wordKind word = classifyWord word := by
  rw [wordKind, kindOf?_of_identifier name]

theorem wordKind_of_number {word : Text} (number : Matches TokenRules.number word) :
    wordKind word = .number := by
  rw [wordKind, kindOf?_of_number number]

theorem wordKind_of_operator {word : Text} (operator : Matches TokenRules.operator word) :
    wordKind word = .operator := by
  rw [wordKind, kindOf?_of_operator operator]

/-- A word is no blank and no comment. -/
theorem kind_of_classifyWord (word : Text) :
    classifyWord word ≠ .whitespace ∧ classifyWord word ≠ .comment :=
  classifyWord_of_reserved (fun kind => kind ≠ .whitespace ∧ kind ≠ .comment) (by decide)
    (by decide) word

/-- A word is a token that the grammar reads. -/
theorem IsWord.wordKind_significant {word : Text} (isWord : IsWord word) :
    wordKind word ≠ .whitespace ∧ wordKind word ≠ .comment := by
  rcases isWord with name | number | operator
  · rw [wordKind_of_identifier name]
    exact kind_of_classifyWord word
  · rw [wordKind_of_number number]
    exact ⟨nofun, nofun⟩
  · rw [wordKind_of_operator operator]
    exact ⟨nofun, nofun⟩

/-- A word leaves the square brackets as they are. -/
theorem IsWord.settle {word : Text} (isWord : IsWord word) (opened : List TokenKind) :
    ∃ kind, kindOf? tokenRules word = some kind
      ∧ Lexer.settle kind word opened = ⟨[(wordKind word, word)], opened, word.length⟩ := by
  rcases isWord with name | number | operator
  · refine ⟨.identifier, kindOf?_of_identifier name, ?_⟩
    rw [wordKind_of_identifier name]
    rfl
  · refine ⟨.number, kindOf?_of_number number, ?_⟩
    rw [wordKind_of_number number]
    rfl
  · refine ⟨.operator, kindOf?_of_operator operator, ?_⟩
    rw [wordKind_of_operator operator]
    rfl

theorem IsWord.ne_nil {word : Text} (isWord : IsWord word) : word ≠ [] := by
  obtain ⟨c, rest, rfl, _⟩ := isWord.exists_cons
  exact List.cons_ne_nil c rest

/-! ### Pieces -/

/-- Words with a blank between every two. -/
def spaced (words : List Text) : Text := [' '].intercalate words

theorem spaced_cons_cons (word other : Text) (words : List Text) :
    spaced (word :: other :: words) = word ++ ' ' :: spaced (other :: words) := by
  simp [spaced]

/-- The pieces of words with a blank between every two. -/
def spacedPieces (words : List Text) : List Piece :=
  (words.map fun word => (wordKind word, word)).intersperse (.whitespace, [' '])

/-- The last word of a text is its last piece. -/
theorem pieces_word {bound : Text} (opened : List TokenKind) {word : Text} (isWord : IsWord word)
    (enough : word.length ≤ bound.length) : pieces bound opened word = [(wordKind word, word)] := by
  obtain ⟨kind, found, settled⟩ := isWord.settle opened
  have longest : ∀ more : Text, more ≠ [] → more <+: [] →
      kindOf? tokenRules (word ++ more) = none :=
    fun more nonempty front => absurd (List.prefix_nil.mp front) nonempty
  obtain ⟨further, _, cut⟩ := @pieces_longest bound opened word [] _ _ isWord.ne_nil found longest
    settled (by rwa [List.append_nil])
  rw [List.append_nil] at cut
  rw [cut]
  cases further <;> rfl

/-- A word with a blank behind it is one piece. -/
theorem pieces_word_blank {bound : Text} (opened : List TokenKind) {word : Text} (rest : Text)
    (isWord : IsWord word) (closed : IsClosed word)
    (enough : (word ++ ' ' :: rest).length ≤ bound.length) :
    ∃ further : Text, (' ' :: rest).length ≤ further.length
      ∧ pieces bound opened (word ++ ' ' :: rest)
        = (wordKind word, word) :: pieces further opened (' ' :: rest) := by
  obtain ⟨kind, found, settled⟩ := isWord.settle opened
  refine pieces_longest opened isWord.ne_nil found (fun more nonempty front => ?_) settled enough
  obtain ⟨c, more, rfl⟩ := List.exists_cons_of_ne_nil nonempty
  obtain ⟨rfl, _⟩ := List.cons_prefix_cons.mp front
  exact kindOf?_append_break more isWord closed (by decide)

/-- A blank in front of a word is one piece. -/
theorem pieces_blank {bound : Text} (opened : List TokenKind) {c : Char} (rest : Text)
    (noSign : c ∉ signs) (enough : (' ' :: c :: rest).length ≤ bound.length) :
    ∃ further : Text, (c :: rest).length ≤ further.length
      ∧ pieces bound opened (' ' :: c :: rest)
        = (.whitespace, [' ']) :: pieces further opened (c :: rest) := by
  refine @pieces_longest bound opened [' '] (c :: rest) .whitespace _ (List.cons_ne_nil _ _) rfl
    (fun more nonempty front => ?_) rfl enough
  obtain ⟨d, more, rfl⟩ := List.exists_cons_of_ne_nil nonempty
  obtain ⟨rfl, _⟩ := List.cons_prefix_cons.mp front
  exact kindOf?_blank more noSign

theorem spaced_exists_cons {word : Text} (words : List Text) (isWord : IsWord word) :
    ∃ c rest, spaced (word :: words) = c :: rest ∧ c ∉ signs := by
  obtain ⟨c, rest, rfl, noSign⟩ := isWord.exists_cons
  cases words with
  | nil => exact ⟨c, rest, by simp [spaced], noSign⟩
  | cons other words =>
    rw [spaced_cons_cons]
    exact ⟨c, _, rfl, noSign⟩

/-- **The pieces of a text of words are the words and the blanks.** -/
theorem pieces_spaced {bound : Text} (opened : List TokenKind) {words : List Text}
    (isWord : ∀ word ∈ words, IsWord word) (closed : ∀ word ∈ words.dropLast, IsClosed word)
    (enough : (spaced words).length ≤ bound.length) :
    pieces bound opened (spaced words) = spacedPieces words := by
  induction words generalizing bound with
  | nil => cases bound <;> rfl
  | cons word words previous =>
    rw [List.forall_mem_cons] at isWord
    cases words with
    | nil =>
      have alone : spaced [word] = word := by simp [spaced]
      rw [alone] at enough ⊢
      rw [pieces_word opened isWord.1 enough]
      rfl
    | cons other words =>
      rw [List.dropLast_cons_cons, List.forall_mem_cons] at closed
      obtain ⟨c, rest, shape, noSign⟩ :=
        spaced_exists_cons words (isWord.2 other List.mem_cons_self)
      rw [spaced_cons_cons] at enough ⊢
      obtain ⟨further, more, cutWord⟩ := pieces_word_blank opened _ isWord.1 closed.1 enough
      rw [shape] at more
      obtain ⟨inner, least, cutBlank⟩ := pieces_blank opened rest noSign more
      rw [← shape] at least cutBlank
      rw [cutWord, cutBlank, previous isWord.2 closed.2 least]
      rfl

/-! ### Tokens -/

/-- A lexeme as a piece. -/
def Lexeme.piece (lexeme : Lexeme) : Piece := (lexeme.kind, lexeme.text)

/-- Whether the grammar reads tokens of a piece's kind. -/
def isSignificant (piece : Piece) : Bool := piece.1 != .whitespace && piece.1 != .comment

theorem map_piece_significant (text : Text) :
    (significant text).map Lexeme.piece = (pieces text [] text).filter isSignificant := by
  have placed : (lexemes text).map Lexeme.piece = pieces text [] text := map_place 0 _
  have same : (fun lexeme : Lexeme => !lexeme.isComment && !lexeme.isWhitespace)
      = isSignificant ∘ Lexeme.piece := by
    funext lexeme
    rw [Bool.and_comm]
    rfl
  rw [← placed, significant, List.filter_filter, same, List.filter_map]

theorem filter_spacedPieces {words : List Text} (isWord : ∀ word ∈ words, IsWord word) :
    (spacedPieces words).filter isSignificant = words.map fun word => (wordKind word, word) := by
  have kept {word : Text} (own : IsWord word) : isSignificant (wordKind word, word) = true := by
    simpa [isSignificant] using own.wordKind_significant
  induction words with
  | nil => rfl
  | cons word words previous =>
    rw [List.forall_mem_cons] at isWord
    have others := previous isWord.2
    cases words with
    | nil => exact List.filter_cons_of_pos (kept isWord.1)
    | cons other words =>
      have shape : spacedPieces (word :: other :: words)
          = (wordKind word, word) :: (.whitespace, [' ']) :: spacedPieces (other :: words) := rfl
      have blank : isSignificant (.whitespace, [' ']) = false := rfl
      rw [shape, List.filter_cons_of_pos (kept isWord.1),
        List.filter_cons_of_neg (by rw [blank]; exact Bool.false_ne_true), others]
      rfl

/-- **The tokens of words between blanks are the words.** -/
theorem significant_spaced {words : List Text} (isWord : ∀ word ∈ words, IsWord word)
    (closed : ∀ word ∈ words.dropLast, IsClosed word) :
    (significant (spaced words)).map Lexeme.piece
      = words.map fun word => (wordKind word, word) := by
  rw [map_piece_significant, pieces_spaced [] isWord closed (Nat.le_refl _),
    filter_spacedPieces isWord]

end RSource
