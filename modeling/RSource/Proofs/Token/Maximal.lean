/-
**Matchers that find the longest word.**

`matcher.IsLongest` says that what is found is a word of its kind and that no front of the text that
is a word is longer. Words of different rules differ (`kindOf?_of_rule`), so what such a matcher
finds in the front of a text does not depend on what stands behind that front
(`Matcher.IsLongest.eq_of_append`). Main statement: `longestRule_isLongest`, following the rules
finds the longest word.
-/

import RSource.Proofs.Token.Restart

namespace RSource

open Pattern TokenRules

namespace Lexer

/-! ### One rule for each word -/

/-- The kinds of the rules for texts that begin with a character. -/
def kindsOf (c : Char) : List TokenKind :=
  (tokenRules.filter fun rule => rule.2.begins c).map (·.1)

theorem mem_kindsOf {rule : TokenKind × Pattern} {c : Char} {rest : Text}
    (member : rule ∈ tokenRules) (found : Matches rule.2 (c :: rest)) : rule.1 ∈ kindsOf c :=
  List.mem_map_of_mem (List.mem_filter.mpr ⟨member, begins_of_matches found⟩)

/-- Of the characters that begin no name, number or operator only square brackets begin the words of
two rules. -/
theorem kindsOf_sign {c : Char} (sign : c ∈ signs) (noBracket : ¬ (c = '[' ∨ c = ']')) :
    ∃ kind, kindsOf c = [kind] := by
  have all : signs.all (fun c => c == '[' || c == ']' || (kindsOf c).length == 1) = true := by
    decide
  have one := List.all_eq_true.mp all c sign
  rw [Bool.or_eq_true, Bool.or_eq_true, beq_iff_eq, beq_iff_eq, beq_iff_eq] at one
  exact List.length_eq_one_iff.mp (one.resolve_left noBracket)

/-- The square brackets. -/
def bracketWords : List (Text × TokenKind) :=
  [ (['['], .openSquareBracket), ([']'], .closeSquareBracket),
    (['[', '['], .openDoubleSquareBracket), ([']', ']'], .closeDoubleSquareBracket) ]

/-- A word that begins with a square bracket is one or two of them. -/
theorem mem_bracketWords {rule : TokenKind × Pattern} {c : Char} {rest : Text}
    (bracket : c = '[' ∨ c = ']') (member : rule ∈ tokenRules)
    (found : Matches rule.2 (c :: rest)) : (c :: rest, rule.1) ∈ bracketWords := by
  have begins := begins_of_matches found
  simp only [tokenRules, List.mem_cons, List.not_mem_nil, or_false] at member
  rcases member with rfl | rfl | rfl | rfl | rfl | rfl | rfl | rfl | rfl | rfl | rfl | rfl | rfl
    | rfl | rfl | rfl | rfl
  all_goals
    first
    | rw [eq_of_matches_literal found]
      decide
    | rcases bracket with rfl | rfl <;> exact absurd begins (by decide)

theorem lookup_bracketWords {word : Text} {kind : TokenKind}
    (member : (word, kind) ∈ bracketWords) : bracketWords.lookup word = some kind := by
  have all :
      bracketWords.all (fun entry => bracketWords.lookup entry.1 == some entry.2) = true := by
    decide
  exact eq_of_beq (List.all_eq_true.mp all _ member)

/-- The empty text is no word. -/
theorem ne_nil_of_matches_rule {rule : TokenKind × Pattern} (member : rule ∈ tokenRules)
    {word : Text} (found : Matches rule.2 word) : word ≠ [] := by
  have all : tokenRules.all (fun rule => !rule.2.acceptsEmpty) = true := by decide
  rintro rfl
  have filled := List.all_eq_true.mp all rule member
  rw [(matches_nil_iff _).mp found] at filled
  cases filled

/-- **A word of a rule is a word of no other rule.** -/
theorem kindOf?_of_rule {rule : TokenKind × Pattern} (member : rule ∈ tokenRules) {word : Text}
    (found : Matches rule.2 word) : kindOf? tokenRules word = some rule.1 := by
  obtain ⟨c, rest, rfl⟩ := List.exists_cons_of_ne_nil (ne_nil_of_matches_rule member found)
  by_cases sign : c ∈ signs
  · refine kindOf?_eq_some ⟨rule, member, found⟩ fun other also matched => ?_
    by_cases bracket : c = '[' ∨ c = ']'
    · have own := lookup_bracketWords (mem_bracketWords bracket member found)
      have same := lookup_bracketWords (mem_bracketWords bracket also matched)
      exact Option.some.inj (same.symm.trans own)
    · obtain ⟨kind, only⟩ := kindsOf_sign sign bracket
      have own := mem_kindsOf member found
      have same := mem_kindsOf also matched
      rw [only, List.mem_singleton] at own same
      rw [own, same]
  · have isRule := mem_wordRules member sign (begins_of_matches found)
    simp only [wordRules, List.mem_cons, List.not_mem_nil, or_false] at isRule
    rcases isRule with rfl | rfl | rfl
    · exact kindOf?_of_identifier found
    · exact kindOf?_of_number found
    · exact kindOf?_of_operator found

/-- Two rules that stand for one word are for the same kind. -/
theorem kind_unique {rule other : TokenKind × Pattern} (member : rule ∈ tokenRules)
    (also : other ∈ tokenRules) {word : Text} (found : Matches rule.2 word)
    (matched : Matches other.2 word) : rule.1 = other.1 :=
  Option.some.inj ((kindOf?_of_rule member found).symm.trans (kindOf?_of_rule also matched))

/-! ### The longest word -/

/-- A matcher that finds the longest word at the front of every text. -/
structure Matcher.IsLongest (matcher : Matcher) : Prop where
  /-- What is found is a word of its kind. -/
  word : ∀ text kind, (matcher text).kind = some kind →
    ∃ rule ∈ tokenRules, rule.1 = kind ∧ Matches rule.2 (text.take (matcher text).count)
  /-- Where a front of the text is a word, one that is no shorter is found. -/
  longest : ∀ text word, word <+: text → (∃ rule ∈ tokenRules, Matches rule.2 word) →
    (matcher text).kind ≠ none ∧ word.length ≤ (matcher text).count

section Longest

variable {matcher : Matcher} (steady : matcher.IsSteady) (longest : matcher.IsLongest)
  {text : Text} {kind : TokenKind}

include steady longest

/-- **What is found in the front of a text is found in that front alone.** -/
theorem Matcher.IsLongest.eq_of_append {others : Text} (more : text ≠ [])
    (found : (matcher (text ++ others)).kind = some kind)
    (short : (matcher (text ++ others)).count ≤ text.length) :
    matcher text = matcher (text ++ others) := by
  obtain ⟨rule, member, rfl, matched⟩ := longest.word _ _ found
  rw [List.take_append_of_le_length short] at matched
  obtain ⟨some, most⟩ := longest.longest text _ (List.take_prefix _ _) ⟨rule, member, matched⟩
  obtain ⟨own, foundOwn⟩ := Option.ne_none_iff_exists'.mp some
  obtain ⟨other, also, rfl, matchedOwn⟩ := longest.word _ _ foundOwn
  have least := (longest.longest (text ++ others) _
    ((List.take_prefix _ _).trans (List.prefix_append _ _)) ⟨other, also, matchedOwn⟩).2
  rw [List.length_take, Nat.min_eq_left short] at most
  rw [List.length_take, Nat.min_eq_left (steady.within text more)] at least
  have count := Nat.le_antisymm least most
  rw [count] at matchedOwn
  have kinds : (matcher text).kind = (matcher (text ++ others)).kind := by
    rw [foundOwn, found, kind_unique also member matchedOwn matched]
  exact congrArg₂ Finding.mk kinds count

/-- A text that is a word of a rule is found. -/
theorem Matcher.IsLongest.eq_of_matches {rule : TokenKind × Pattern} (member : rule ∈ tokenRules)
    (matched : Matches rule.2 text) : matcher text = ⟨some rule.1, text.length⟩ := by
  obtain ⟨some, most⟩ := longest.longest text text (List.prefix_refl _) ⟨rule, member, matched⟩
  obtain ⟨own, found⟩ := Option.ne_none_iff_exists'.mp some
  have within := steady.within text (ne_nil_of_matches_rule member matched)
  have count : (matcher text).count = text.length := Nat.le_antisymm within most
  obtain ⟨other, also, rfl, matchedOwn⟩ := longest.word _ _ found
  rw [count, List.take_length] at matchedOwn
  rw [kind_unique also member matchedOwn matched] at found
  exact congrArg₂ Finding.mk found count

end Longest

/-- Where a front of a text is a word, no shorter one is found. -/
theorem exists_of_word {rules : List (TokenKind × Pattern)} {word text : Text}
    (nonempty : word ≠ []) (front : word <+: text) (isWord : kindOf? rules word ≠ none) :
    ∃ kind count, (scan rules text).longest = some (kind, count) ∧ word.length ≤ count := by
  induction text generalizing rules word with
  | nil => exact absurd (List.prefix_nil.mp front) nonempty
  | cons c rest previous =>
    obtain ⟨d, behind, rfl⟩ := List.exists_cons_of_ne_nil nonempty
    obtain ⟨rfl, inRest⟩ := List.cons_prefix_cons.mp front
    rw [kindOf?_cons] at isWord
    have still : ¬ (advance d rules).isEmpty = true := by
      intro none
      rw [List.isEmpty_iff.mp none] at isWord
      exact isWord rfl
    unfold scan
    simp only [if_neg still]
    by_cases last : behind = []
    · subst last
      cases further : (scan (advance d rules) rest).longest with
      | some result => exact ⟨_, _, rfl, Nat.succ_le_succ (Nat.zero_le _)⟩
      | none =>
        obtain ⟨kind, accepted⟩ := Option.ne_none_iff_exists'.mp isWord
        rw [kindOf?_nil] at accepted
        exact ⟨kind, 1, by rw [accepted]; rfl, Nat.le_refl 1⟩
    · obtain ⟨kind, count, further, short⟩ := previous last inRest isWord
      rw [further]
      exact ⟨kind, count + 1, rfl, Nat.succ_le_succ short⟩

/-- **Following the rules finds the longest word.** -/
theorem longestRule_isLongest : longestRule.IsLongest where
  word text kind found := by
    unfold longestRule at found ⊢
    split at found
    · rename_i scanned
      cases found
      obtain ⟨pattern, member, matched⟩ := exists_of_kindOf? (kindOf?_of_scan_longest scanned).2
      exact ⟨_, member, rfl, matched⟩
    · cases found
  longest text word front := by
    rintro ⟨rule, member, matched⟩
    have isWord : kindOf? tokenRules word ≠ none := by
      rw [kindOf?_of_rule member matched]
      exact Option.some_ne_none _
    obtain ⟨kind, count, found, short⟩ :=
      exists_of_word (ne_nil_of_matches_rule member matched) front isWord
    unfold longestRule
    rw [found]
    exact ⟨Option.some_ne_none _, short⟩

end Lexer

end RSource
