/-
**The tokens of a window, one finding behind the other.**

Between two findings of its matcher a stream holds nothing back, and what it goes on to give depends
on the place it has come to, the square brackets open there and the text left (`Matcher.Reads`): the
rules say what one finding becomes. Main statement: `Matcher.IsSteady.yields_iff`, a stream gives
exactly these tokens. `Matcher.Tokenizes` are the tokens of a window of a text, and
`windowTokens_eq` says that the lexer of whole lists gives those of the rules.
-/

import RSource.Proofs.Token.Coverage

namespace RSource

namespace Lexer

/-- The tokens that a matcher gives from a place on, where square brackets are open and a text is
left. -/
inductive Matcher.Reads (matcher : Matcher) : (position : Nat) → (opened : List TokenKind) →
    (left : Text) → List Token → Prop where
  | done {position : Nat} {opened : List TokenKind} : Reads matcher position opened [] []
  /-- No word begins here: each character passed is a token. -/
  | unknown {position : Nat} {opened : List TokenKind} {word rest : Text} {tokens : List Token} :
      word ≠ [] → matcher (word ++ rest) = ⟨none, word.length⟩ →
      Reads matcher (position + word.bytes) opened rest tokens →
      Reads matcher position opened (word ++ rest) (unknownTokens position word ++ tokens)
  | word {position : Nat} {opened : List TokenKind} {kind : TokenKind} {word rest : Text}
      {tokens : List Token} :
      word ≠ [] → matcher (word ++ rest) = ⟨some kind, word.length⟩ →
      (kind = .closeDoubleSquareBracket → ∀ outer, opened ≠ .openSquareBracket :: outer) →
      Reads matcher (position + word.bytes) (bracketsBehind kind opened) rest tokens →
      Reads matcher position opened (word ++ rest)
        (⟨finalKind kind word, position, word.bytes⟩ :: tokens)
  /-- In a single bracket a `]]` is read anew behind its first half. -/
  | split {position : Nat} {outer : List TokenKind} {rest : Text} {tokens : List Token} :
      matcher (']' :: ']' :: rest) = ⟨some .closeDoubleSquareBracket, 2⟩ →
      Reads matcher (position + 1) outer (']' :: rest) tokens →
      Reads matcher position (.openSquareBracket :: outer) (']' :: ']' :: rest)
        (⟨.closeSquareBracket, position, 1⟩ :: tokens)

/-! ### Streams and findings -/

theorem length_lt_append {left : Text} (nonempty : left ≠ []) (right : Text) :
    right.length < (left ++ right).length := by
  rw [List.length_append]
  exact Nat.lt_add_of_pos_left (List.length_pos_iff.mpr nonempty)

/-- A stream that holds nothing back gives these tokens. -/
theorem Matcher.Reads.yields {matcher : Matcher} {position : Nat} {opened : List TokenKind}
    {left : Text} {tokens : List Token} (reads : matcher.Reads position opened left tokens)
    {stream : Stream} (idle : stream.waiting = []) (place : stream.position = position)
    (brackets : stream.opened = opened) (same : stream.left = left) :
    stream.Yields matcher tokens := by
  induction reads generalizing stream with
  | done => exact .done (Stream.next_nil idle same)
  | @unknown position opened word rest tokens nonempty found _ previous =>
    rw [← same] at found
    obtain ⟨c, others, rfl⟩ := List.exists_cons_of_ne_nil nonempty
    have front : stream.left.take (matcher stream.left).count = c :: others := by
      rw [found, same]
      exact List.take_left
    have behind := @previous (stream.pass (matcher stream.left).count) idle
      (by rw [← place, ← front]; simp [Stream.position, Stream.pass, Nat.add_assoc]) brackets
      (by rw [found]; simp only [Stream.pass, same]; exact List.drop_left)
    rw [← place]
    exact .more (Stream.next_unknown idle (by rw [found]) same front) (behind.waiting idle _)
  | @word position opened kind word rest tokens nonempty found whole _ previous =>
    rw [← same] at found
    subst place brackets
    have more : stream.left ≠ [] := by simp [same, nonempty]
    have front : stream.left.take (matcher stream.left).count = word := by
      rw [found, same]
      exact List.take_left
    refine .more (Stream.next_word idle more (by rw [found]) whole front) (previous idle ?_ rfl ?_)
    · rw [← front]
      simp [Stream.position, Stream.pass, Nat.add_assoc]
    · rw [found]
      simp only [Stream.pass, same]
      exact List.drop_left
  | @split position outer rest tokens found _ previous =>
    rw [← same] at found
    subst place
    exact .more (Stream.next_split idle (by rw [found]) brackets same)
      (previous rfl (Nat.add_assoc _ _ _).symm rfl rfl)

section Steady

variable {matcher : Matcher} (steady : matcher.IsSteady)

include steady

/-- What is found is a front of the text. -/
theorem Matcher.IsSteady.exists_front {text : Text} (more : text ≠ []) :
    ∃ word rest : Text, word ≠ [] ∧ text = word ++ rest ∧ (matcher text).count = word.length := by
  refine ⟨text.take (matcher text).count, text.drop (matcher text).count, ?_,
    (List.take_append_drop _ _).symm, ?_⟩
  · rw [ne_eq, List.take_eq_nil_iff, not_or]
    exact ⟨Nat.ne_of_gt (steady.positive text more), more⟩
  · rw [List.length_take, Nat.min_eq_left (steady.within text more)]

/-- From every place on there are tokens. -/
theorem Matcher.IsSteady.exists_reads (position : Nat) (opened : List TokenKind) (left : Text) :
    ∃ tokens, matcher.Reads position opened left tokens := by
  -- Each finding takes some of what is left.
  induction bound : left.length using Nat.strongRecOn generalizing position opened left with
  | _ size previous =>
    subst bound
    obtain rfl | more := eq_or_ne left []
    · exact ⟨[], .done⟩
    obtain ⟨word, rest, nonempty, rfl, count⟩ := steady.exists_front more
    have shorter := length_lt_append nonempty rest
    cases found : (matcher (word ++ rest)).kind with
    | none =>
      obtain ⟨tokens, reads⟩ := previous _ shorter (position + word.bytes) opened rest rfl
      exact ⟨_, .unknown nonempty (congrArg₂ Finding.mk found count) reads⟩
    | some kind =>
      by_cases split : kind = .closeDoubleSquareBracket
          ∧ ∃ outer, opened = .openSquareBracket :: outer
      · obtain ⟨rfl, outer, rfl⟩ := split
        obtain rfl : word = [']', ']'] := by
          have double := steady.double _ found
          rwa [count, List.take_left] at double
        obtain ⟨tokens, reads⟩ := previous _ (Nat.lt_succ_self _) (position + 1) outer
          (']' :: rest) rfl
        exact ⟨_, .split (congrArg₂ Finding.mk found count) reads⟩
      · rw [not_and, not_exists] at split
        obtain ⟨tokens, reads⟩ := previous _ shorter (position + word.bytes)
          (bracketsBehind kind opened) rest rfl
        exact ⟨_, .word nonempty (congrArg₂ Finding.mk found count) split reads⟩

/-- **A stream that holds nothing back gives exactly these tokens.** -/
theorem Matcher.IsSteady.yields_iff {stream : Stream} (idle : stream.waiting = [])
    {tokens : List Token} :
    stream.Yields matcher tokens
      ↔ matcher.Reads stream.position stream.opened stream.left tokens := by
  refine ⟨fun yields => ?_, fun reads => reads.yields idle rfl rfl rfl⟩
  obtain ⟨others, reads⟩ := steady.exists_reads stream.position stream.opened stream.left
  rwa [yields.unique (reads.yields idle rfl rfl rfl)]

/-- The tokens lie one behind the other over the text. -/
theorem Matcher.Reads.tiles {position : Nat} {opened : List TokenKind} {left : Text}
    {tokens : List Token} (reads : matcher.Reads position opened left tokens) :
    Tiles position left tokens := by
  obtain ⟨others, yields, tiles⟩ :=
    @Matcher.IsSteady.exists_tiles _ steady ⟨[], left, position, [], opened⟩ rfl
  rwa [yields.unique (reads.yields rfl rfl rfl rfl)] at tiles

end Steady

/-! ### Windows -/

/-- The tokens of the `length` bytes of a text from `start` on. -/
def Matcher.Tokenizes (matcher : Matcher) (text : Text) (start length : Nat)
    (tokens : List Token) : Prop :=
  ∃ window, text.slice? start (start + length) = some window
    ∧ (Stream.ofWindow start window).Yields matcher tokens

/-- The tokens of a window, from the lexer of whole lists. -/
def WindowTokens (text : Text) (start length : Nat) (tokens : List Token) : Prop :=
  ∃ found, windowLexemes text start length = .ok found ∧ found.map Lexeme.token = tokens

theorem windowLexemes_of_slice? {text window : Text} {start length : Nat}
    (inside : text.slice? start (start + length) = some window) :
    windowLexemes text start length = .ok (lexemesFrom start window) := by
  obtain ⟨before, after, rfl, _, stop⟩ := Text.exists_of_slice? inside
  rw [windowLexemes, if_neg, inside]
  simp only [Text.bytes_append]
  omega

/-- **The lexer of whole lists gives the tokens of the rules.** -/
theorem windowTokens_eq : WindowTokens = longestRule.Tokenizes := by
  funext text start length tokens
  apply propext
  constructor
  · rintro ⟨found, windowed, rfl⟩
    cases inside : text.slice? start (start + length) with
    | none =>
      rw [windowLexemes, inside] at windowed
      split at windowed <;> cases windowed
    | some window =>
      rw [windowLexemes_of_slice? inside] at windowed
      cases windowed
      exact ⟨window, inside, yields_pieces rfl (Nat.le_refl _)⟩
  · rintro ⟨window, inside, yields⟩
    refine ⟨_, windowLexemes_of_slice? inside, ?_⟩
    have listed : (Stream.ofWindow start window).Yields longestRule _ :=
      yields_pieces rfl (Nat.le_refl _)
    exact listed.unique yields

end Lexer

end RSource
