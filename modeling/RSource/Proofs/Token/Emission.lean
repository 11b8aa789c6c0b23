/-
**Every token is the longest word there is.**

Where a token begins, no rule stands for a longer front of what is left of the window, and the token
has the kind of the rules that stand for its text (`Token.IsLongest`). There are two exceptions: an
unknown character, and the first half of a `]]` that closes a single bracket (`SplitsAt`). Main
statements: `Matcher.Reads.exists_emitted`, from the findings of any matcher for longest words, and
`emitsLongest_windows`.
-/

import RSource.Proofs.Token.Windows
import Mathlib.Order.Bounds.Defs

namespace RSource

open Pattern

namespace Lexer

/-- The lengths of the words at the front of a text, whatever rule they are of. -/
def wordLengths (text : Text) : Set Nat :=
  {size | ∃ word : Text, word ≠ [] ∧ word <+: text ∧ (∃ rule ∈ tokenRules, Matches rule.2 word)
    ∧ word.bytes = size}

/-- A `]]` is at the front of a text, and the innermost square bracket is a single one. -/
def SplitsAt (opened : List TokenKind) (text : Text) : Prop :=
  opened.head? = some .openSquareBracket ∧ [']', ']'] <+: text

end Lexer

open Lexer

/-- A token over the longest word at the front of a text, of the kind that this word has. -/
structure Token.IsLongest (text : Text) (token : Token) : Prop where
  greatest : IsGreatest (wordLengths text) token.length
  kind : ∀ word : Text, word <+: text → word.bytes = token.length →
    ∀ rule ∈ tokenRules, Matches rule.2 word → token.kind = finalKind rule.1 word

/-- What a token is at the front of the text left where it begins, inside square brackets. -/
structure Token.IsEmitted (opened : List TokenKind) (text : Text) (token : Token) : Prop where
  longest : token.kind ≠ .unknown → ¬ SplitsAt opened text → token.IsLongest text
  split : token.kind ≠ .unknown → SplitsAt opened text →
    token.kind = .closeSquareBracket ∧ token.length = 1
  /-- Names are not reserved. -/
  name : ∀ word : Text, word <+: text → word.bytes = token.length → token.kind = .identifier →
    ∀ entry ∈ reservedWords, entry.1 ≠ word
  /-- Keywords are. -/
  keyword : ∀ word : Text, word <+: text → word.bytes = token.length → token.kind = .keyword →
    (word, .keyword) ∈ reservedWords

theorem Token.IsEmitted.of_unknown {opened : List TokenKind} {text : Text} {token : Token}
    (unknown : token.kind = .unknown) : token.IsEmitted opened text where
  longest known := absurd unknown known
  split known := absurd unknown known
  name _ _ _ name := absurd (unknown.symm.trans name) nofun
  keyword _ _ _ keyword := absurd (unknown.symm.trans keyword) nofun

namespace Lexer

/-! ### Unknown characters -/

/-- The tokens of an error around one of them. -/
theorem exists_of_unknownTokens {position : Nat} {word : Text} {before behind : List Token}
    {token : Token} (shape : unknownTokens position word = before ++ token :: behind) :
    ∃ passed own more, word = passed ++ own :: more
      ∧ before = unknownTokens position passed
      ∧ token = ⟨.unknown, position + passed.bytes, own.utf8Size⟩
      ∧ behind = unknownTokens (position + (passed ++ [own]).bytes) more := by
  induction word generalizing position before with
  | nil => exact absurd shape (by simp [unknownTokens])
  | cons c word previous =>
    rw [unknownTokens] at shape
    cases before with
    | nil =>
      obtain ⟨rfl, rfl⟩ := List.cons.inj shape
      exact ⟨[], c, word, rfl, rfl, rfl, by simp⟩
    | cons first before =>
      obtain ⟨rfl, others⟩ := List.cons.inj shape
      obtain ⟨passed, own, more, rfl, rfl, rfl, rfl⟩ := previous others
      exact ⟨c :: passed, own, more, rfl, rfl, by simp [Nat.add_assoc], by simp [Nat.add_assoc]⟩

/-! ### One word -/

theorem eq_of_prefix_of_bytes {word other text : Text} (front : word <+: text)
    (also : other <+: text) (sizes : word.bytes = other.bytes) : word = other := by
  obtain ⟨rest, rfl⟩ := front
  obtain ⟨rest', same⟩ := also
  exact (Text.append_inj same.symm sizes).1

theorem bytes_le_of_prefix {word text : Text} (front : word <+: text) :
    word.bytes ≤ text.bytes := by
  obtain ⟨rest, rfl⟩ := front
  rw [Text.bytes_append]
  exact Nat.le_add_right _ _

theorem mem_reservedWords_of_lookup {word : Text} {kind : TokenKind}
    (found : reservedWords.lookup word = some kind) : (word, kind) ∈ reservedWords := by
  obtain ⟨before, after, shape, _⟩ := List.lookup_eq_some_iff.mp found
  simp [shape]

/-- A word that is classified as a name is not reserved. -/
theorem ne_of_classifyWord {word : Text} (name : classifyWord word = .identifier) :
    ∀ entry ∈ reservedWords, entry.1 ≠ word := by
  have other : ∀ entry ∈ reservedWords, entry.2 ≠ .identifier := by decide
  rintro entry member rfl
  cases found : reservedWords.lookup entry.1 with
  | none =>
    have differs := List.lookup_eq_none_iff.mp found entry member
    exact absurd rfl (bne_iff_ne.mp differs)
  | some kind =>
    rw [classifyWord, found] at name
    exact other _ (mem_reservedWords_of_lookup found) name

/-- A word that is classified as a keyword is reserved. -/
theorem mem_of_classifyWord {word : Text} (keyword : classifyWord word = .keyword) :
    (word, .keyword) ∈ reservedWords := by
  cases found : reservedWords.lookup word with
  | none =>
    rw [classifyWord, found] at keyword
    cases keyword
  | some kind =>
    rw [classifyWord, found] at keyword
    obtain rfl : kind = .keyword := keyword
    exact mem_reservedWords_of_lookup found

/-- The kind of a token that is a name or a keyword comes from the table of reserved words. -/
theorem classifyWord_of_finalKind {kind : TokenKind} {word : Text}
    (rule : ∃ rule ∈ tokenRules, rule.1 = kind)
    (final : finalKind kind word = .identifier ∨ finalKind kind word = .keyword) :
    classifyWord word = finalKind kind word := by
  have other : ∀ rule ∈ tokenRules, rule.1 ≠ .keyword := by simp [tokenRules]
  obtain ⟨rule, member, rfl⟩ := rule
  by_cases name : rule.1 = .identifier
  · rw [name]
    rfl
  · have plain : finalKind rule.1 word = rule.1 := by
      unfold finalKind
      split
      · rename_i same
        exact absurd same name
      · rfl
    rw [plain] at final
    rcases final with same | same
    · exact absurd same name
    · exact absurd same (other rule member)

section Word

variable {matcher : Matcher} (steady : matcher.IsSteady) (longest : matcher.IsLongest)

include steady longest

/-- A `]]` is found as such. -/
theorem Matcher.IsLongest.double (rest : Text) :
    matcher ([']', ']'] ++ rest) = ⟨some .closeDoubleSquareBracket, 2⟩ := by
  have pair : (.closeDoubleSquareBracket, .literal [']', ']']) ∈ tokenRules := by simp [tokenRules]
  obtain ⟨some, most⟩ := longest.longest _ _ (List.prefix_append [']', ']'] rest)
    ⟨_, pair, (accepts_iff _ _).mp rfl⟩
  obtain ⟨kind, found⟩ := Option.ne_none_iff_exists'.mp some
  obtain ⟨rule, member, rfl, matched⟩ := longest.word _ _ found
  have within := steady.within ([']', ']'] ++ rest) (List.cons_ne_nil _ _)
  obtain ⟨size, count⟩ := Nat.exists_eq_add_of_le' most
  rw [count] at matched within
  -- Of the words that begin with a bracket only one has two of them and nothing behind.
  have bracket : rest.take size = [] ∧ rule.1 = .closeDoubleSquareBracket := by
    simpa [bracketWords] using mem_bracketWords (.inr rfl) member matched
  have nothing : size = 0 := by
    have length := congrArg List.length bracket.1
    simp only [List.length_take, List.length_append, List.length_nil] at length within
    omega
  rw [bracket.2] at found
  rw [nothing] at count
  exact congrArg₂ Finding.mk found count

/-- A word that is found is the longest one, and of its kind. -/
theorem Matcher.IsLongest.isEmitted_word {kind : TokenKind} {word rest : Text}
    {opened : List TokenKind} (position : Nat)
    (found : matcher (word ++ rest) = ⟨some kind, word.length⟩)
    (whole : kind = .closeDoubleSquareBracket → ∀ outer, opened ≠ .openSquareBracket :: outer) :
    (⟨finalKind kind word, position, word.bytes⟩ : Token).IsEmitted opened (word ++ rest) := by
  obtain ⟨rule, member, rfl, matched⟩ := longest.word (word ++ rest) kind (by rw [found])
  rw [found, List.take_left] at matched
  have front : word <+: word ++ rest := List.prefix_append _ _
  have own : ∃ other ∈ tokenRules, other.1 = rule.1 := ⟨rule, member, rfl⟩
  refine ⟨fun _ _ => ⟨⟨?_, ?_⟩, ?_⟩, fun _ splits => ?_, ?_, ?_⟩
  · exact ⟨word, ne_nil_of_matches_rule member matched, front, ⟨rule, member, matched⟩, rfl⟩
  · rintro _ ⟨other, _, inFront, isWord, rfl⟩
    have short := (longest.longest _ other inFront isWord).2
    rw [found] at short
    exact bytes_le_of_prefix (List.prefix_of_prefix_length_le inFront front short)
  · intro other inFront sizes another also matchedToo
    obtain rfl := eq_of_prefix_of_bytes inFront front sizes
    rw [kind_unique member also matched matchedToo]
  · obtain ⟨single, behind, shape⟩ := splits
    have double := longest.double steady behind
    rw [shape, found] at double
    obtain ⟨outer, brackets⟩ := List.head?_eq_some_iff.mp single
    have kind : rule.1 = .closeDoubleSquareBracket :=
      Option.some.inj (congrArg Finding.kind double)
    exact absurd brackets (whole kind outer)
  · intro other inFront sizes name
    obtain rfl := eq_of_prefix_of_bytes inFront front sizes
    exact ne_of_classifyWord ((classifyWord_of_finalKind own (.inl name)).trans name)
  · intro other inFront sizes keyword
    obtain rfl := eq_of_prefix_of_bytes inFront front sizes
    exact mem_of_classifyWord ((classifyWord_of_finalKind own (.inr keyword)).trans keyword)

/-- **Every token that is given is emitted as it should be.** -/
theorem Matcher.Reads.exists_emitted {position : Nat} {opened : List TokenKind} {left : Text}
    {before behind : List Token} {token : Token}
    (reads : matcher.Reads position opened left (before ++ token :: behind)) :
    ∃ front rest : Text, left = front ++ rest ∧ token.start = position + front.bytes
      ∧ token.IsEmitted (openedBehind opened (before.map (·.kind))) rest := by
  generalize all : before ++ token :: behind = tokens at reads
  -- A token behind the first finding is one of the tokens of what is left there.
  have further {before : List Token} {word rest : Text} {place : Nat}
      {brackets : List TokenKind} (found : ∃ front last : Text, rest = front ++ last
        ∧ token.start = place + Text.bytes word + front.bytes
        ∧ token.IsEmitted (openedBehind brackets (before.map (·.kind))) last) :
      ∃ front last : Text, word ++ rest = front ++ last ∧ token.start = place + front.bytes
        ∧ token.IsEmitted (openedBehind brackets (before.map (·.kind))) last := by
    obtain ⟨front, last, rfl, start, emitted⟩ := found
    exact ⟨word ++ front, last, (List.append_assoc _ _ _).symm,
      by rw [start, Text.bytes_append, Nat.add_assoc], emitted⟩
  induction reads generalizing before with
  | done => exact absurd all (by simp)
  | @unknown position opened word rest tokens nonempty found _ previous =>
    have behindWord {more : List Token} (shape : before = unknownTokens position word ++ more)
        (others : more ++ token :: behind = tokens) :
        ∃ front last : Text, word ++ rest = front ++ last ∧ token.start = position + front.bytes
          ∧ token.IsEmitted (openedBehind opened (before.map (·.kind))) last := by
      rw [shape, List.map_append, openedBehind_append, openedBehind_unknownTokens]
      exact further (previous others)
    rcases List.append_eq_append_iff.mp all with ⟨more, shape, others⟩ | ⟨more, shape, others⟩
    · cases more with
      | nil => exact behindWord (by rw [shape, List.append_nil, List.append_nil]) others
      | cons first more =>
        obtain ⟨rfl, _⟩ := List.cons.inj others
        obtain ⟨front, own, last, rfl, _, rfl, _⟩ := exists_of_unknownTokens shape
        exact ⟨front, own :: last ++ rest, List.append_assoc _ _ _, rfl, .of_unknown rfl⟩
    · exact behindWord shape others.symm
  | @word position opened kind word rest tokens nonempty found whole _ previous =>
    cases before with
    | nil =>
      obtain ⟨rfl, rfl⟩ := List.cons.inj all
      exact ⟨[], _, rfl, rfl, longest.isEmitted_word steady position found whole⟩
    | cons first before =>
      obtain ⟨rfl, rest⟩ := List.cons.inj all
      have inside := further (previous rest)
      rwa [← bracketsBehind_finalKind kind word, ← openedBehind_cons] at inside
  | @split position outer rest tokens found _ previous =>
    cases before with
    | nil =>
      obtain ⟨rfl, rfl⟩ := List.cons.inj all
      have splits : SplitsAt (.openSquareBracket :: outer) (']' :: ']' :: rest) :=
        ⟨rfl, List.prefix_append [']', ']'] rest⟩
      exact ⟨[], _, rfl, rfl, fun _ whole => absurd splits whole, fun _ _ => ⟨rfl, rfl⟩, nofun,
        nofun⟩
    | cons first before =>
      obtain ⟨rfl, rest⟩ := List.cons.inj all
      exact @further _ [']'] _ _ _ (previous rest)

end Word

/-! ### Windows -/

/-- Every token of a window is the longest word at the front of what is left of the window where it
begins: `gives text start length` are the tokens of the `length` bytes of a text from `start` on. -/
def EmitsLongest (gives : Text → (start length : Nat) → List Token → Prop) : Prop :=
  ∀ text start length before token behind,
    gives text start length (before ++ token :: behind) →
    ∃ rest, text.slice? token.start (start + length) = some rest
      ∧ token.IsEmitted (openedBehind [] (before.map (·.kind))) rest

/-- **Every token is the longest word there is**, for a matcher that finds the longest words. -/
theorem Matcher.IsSteady.emitsLongest {matcher : Matcher} (steady : matcher.IsSteady)
    (longest : matcher.IsLongest) : EmitsLongest matcher.Tokenizes := by
  intro text start length before token behind given
  obtain ⟨window, inside, yields⟩ := given
  have reads := (steady.tokenizes_iff inside).mp ⟨window, inside, yields⟩
  obtain ⟨front, rest, rfl, begins, emitted⟩ := reads.exists_emitted steady longest
  refine ⟨rest, ?_, emitted⟩
  obtain ⟨before, after, rfl, place, stop⟩ := Text.exists_of_slice? inside
  have slice := Text.slice?_middle (before ++ front) rest after
  rw [begins, stop, place]
  simpa [Nat.add_assoc] using slice

end Lexer

open Lexer

/-- **Every token of a window is the longest word where it begins**, for any matcher that finds the
longest words, and so for the rules. -/
theorem emitsLongest_windows :
    (∀ matcher : Matcher, matcher.IsSteady → matcher.IsLongest → EmitsLongest matcher.Tokenizes)
    ∧ longestRule.IsSteady ∧ longestRule.IsLongest ∧ EmitsLongest WindowTokens := by
  refine ⟨fun matcher steady => steady.emitsLongest, longestRule_isSteady,
    longestRule_isLongest, ?_⟩
  rw [windowTokens_eq]
  exact longestRule_isSteady.emitsLongest longestRule_isLongest

/-- The digits of a number whose exponent lacks its own. -/
theorem emitsLongest_windows_exponent :
    WindowTokens "-12e+".toList 0 5
      [⟨.operator, 0, 1⟩, ⟨.number, 1, 2⟩, ⟨.identifier, 3, 1⟩, ⟨.operator, 4, 1⟩]
    ∧ (⟨.number, 1, 2⟩ : Token).IsEmitted [] "12e+".toList := by
  have given : WindowTokens "-12e+".toList 0 5
      [⟨.operator, 0, 1⟩, ⟨.number, 1, 2⟩, ⟨.identifier, 3, 1⟩, ⟨.operator, 4, 1⟩] :=
    ⟨lexemes "-12e+".toList, rfl, by decide⟩
  obtain ⟨rest, slice, emitted⟩ := emitsLongest_windows.2.2.2 "-12e+".toList 0 5
    [⟨.operator, 0, 1⟩] ⟨.number, 1, 2⟩ [⟨.identifier, 3, 1⟩, ⟨.operator, 4, 1⟩] given
  have found : Text.slice? "-12e+".toList 1 (0 + 5) = some "12e+".toList := by decide
  obtain rfl := Option.some.inj (slice.symm.trans found)
  exact ⟨given, emitted⟩

end RSource
