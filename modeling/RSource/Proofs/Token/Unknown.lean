/-
**Unknown characters are those that begin no word, and those behind a lone percent sign.**

Where no rule has a word, all that was read before the last rule failed becomes unknown. Every
character but the percent sign that begins a rule is a word by itself, so an error is over one
character, or it is over a percent sign and the rest of its line (`longestRule_error`). The
characters on that line become unknown whatever they are: letters, digits and blanks too. Main
statement: `unknown_iff_windows`; `not_unknown_only_wordless` shows that the second way matters.
-/

import RSource.Proofs.Token.Emission
import Mathlib.Data.Set.Basic

namespace RSource

open Pattern TokenRules

namespace Pattern

/-- Of a pattern that begins with other characters nothing is left. -/
theorem after_eq_never {pattern : Pattern} {c : Char} (other : pattern.begins c = false) :
    pattern.after c = .never := by
  induction pattern with
  | never | empty => rfl
  | char accepts =>
    rw [begins] at other
    rw [after, other, if_neg Bool.false_ne_true]
  | seq first second ofFirst ofSecond =>
    rw [begins, Bool.or_eq_false_iff, Bool.and_eq_false_iff] at other
    rw [after, ofFirst other.1]
    split
    · rename_i nothing
      rw [ofSecond (other.2.resolve_left (by simp [nothing]))]
      rfl
    · rfl
  | alt left right ofLeft ofRight =>
    rw [begins, Bool.or_eq_false_iff] at other
    rw [after, ofLeft other.1, ofRight other.2]
    rfl
  | star body ofBody =>
    rw [after, ofBody other]
    rfl

end Pattern

namespace Lexer

/-! ### How far an error reaches -/

theorem advance_eq_nil {c : Char} {rules : List (TokenKind × Pattern)}
    (other : ∀ rule ∈ rules, rule.2.begins c = false) : advance c rules = [] := by
  rw [advance, List.filter_eq_nil_iff, List.forall_mem_map]
  intro rule member
  rw [after_eq_never (other rule member)]
  exact Bool.false_ne_true

/-- Where nothing is found, nothing is found behind the first character, and that is one more. -/
theorem scan_cons_of_none {rules : List (TokenKind × Pattern)} {c : Char} {rest : Text}
    (still : advance c rules ≠ []) (unfound : (scan rules (c :: rest)).longest = none) :
    (scan (advance c rules) rest).longest = none
      ∧ (scan rules (c :: rest)).reach = (scan (advance c rules) rest).reach + 1 := by
  rw [ne_eq, ← List.isEmpty_iff] at still
  rw [scan] at unfound ⊢
  simp only [if_neg still] at unfound ⊢
  cases further : (scan (advance c rules) rest).longest with
  | none => exact ⟨rfl, trivial⟩
  | some result =>
    rw [further] at unfound
    cases unfound

/-- A character other than a percent sign that begins a rule is a word by itself. -/
theorem exists_word_of_begins {c : Char} (plain : c ≠ '%') {rule : TokenKind × Pattern}
    (member : rule ∈ tokenRules) (begins : rule.2.begins c = true) :
    ∃ own ∈ tokenRules, Matches own.2 [c] := by
  have name (matched : Matches identifier [c]) : ∃ own ∈ tokenRules, Matches own.2 [c] :=
    ⟨(.identifier, identifier), by simp [tokenRules], matched⟩
  have ofList {list : List Char} (listed : c ∈ list)
      (all : list.all (fun c => tokenRules.any fun rule => rule.2.accepts [c]) = true) :
      ∃ own ∈ tokenRules, Matches own.2 [c] := by
    obtain ⟨own, also, accepted⟩ := List.any_eq_true.mp (List.all_eq_true.mp all c listed)
    exact ⟨own, also, (accepts_iff _ _).mp accepted⟩
  by_cases sign : c ∈ signs
  · exact ofList sign (by decide)
  have isRule := mem_wordRules member sign begins
  simp only [wordRules, List.mem_cons, List.not_mem_nil, or_false] at isRule
  rcases isRule with rfl | rfl | rfl
  · rcases begins_identifier begins with letter | rfl | rfl
    · refine name (matches_oneOf_iff.mpr ⟨_, List.mem_cons_self, ?_⟩)
      exact matches_sequence_cons_iff.mpr
        ⟨[c], [], rfl, .char letter, matches_sequence_singleton_iff.mpr .done⟩
    · exact name ((accepts_iff _ _).mp (by decide))
    · exact name ((accepts_iff _ _).mp (by decide))
  · rcases begins_number begins with digit | rfl
    · refine ⟨(.number, number), by simp [tokenRules], ?_⟩
      refine matches_oneOf_iff.mpr ⟨_, List.mem_cons_self, ?_⟩
      have one : Matches digits ([c] ++ []) := .seq (.char digit) .done
      exact matches_sequence_cons_iff.mpr ⟨[c], [], rfl, one, (matches_nil_iff _).mpr rfl⟩
    · exact name ((accepts_iff _ _).mp (by decide))
  · have listed : c ∈ operatorSigns.filter (· != '%') :=
      List.mem_filter.mpr ⟨begins_operator begins, bne_iff_ne.mpr plain⟩
    exact ofList listed (by decide)

/-- Behind a percent sign only the rule for operators is open. -/
theorem advance_percent :
    advance '%' tokenRules = [(.operator, percentOperator.after '%')] := rfl

/-- On its line an operator may go on with any character but a percent sign. -/
theorem after_percent_inside {c : Char} (other : c ≠ '%') (onLine : isLineEnd c = false) :
    (percentOperator.after '%').after c = percentOperator.after '%' := by
  simp [percentOperator, Pattern.after, Pattern.sequence, literal, join, merge, acceptsEmpty, other,
    onLine]

/-- Behind the end of its line nothing is left of an operator. -/
theorem after_percent_lineEnd {c : Char} (ends : isLineEnd c = true) :
    (percentOperator.after '%').after c = .never := by
  have other : c ≠ '%' := by
    rintro rfl
    exact absurd ends (by decide)
  simp [percentOperator, Pattern.after, Pattern.sequence, literal, join, merge, acceptsEmpty, other,
    ends]

/-- An operator without its second percent sign is followed to the end of its line. -/
theorem exists_line_of_scan {text : Text}
    (unfound : (scan [(.operator, percentOperator.after '%')] text).longest = none) :
    ∃ line rest, text = line ++ rest
      ∧ (scan [(.operator, percentOperator.after '%')] text).reach = line.length
      ∧ (∀ c ∈ line, c ≠ '%' ∧ isLineEnd c = false) ∧ ∀ c ∈ rest.head?, isLineEnd c = true := by
  induction text with
  | nil => exact ⟨[], [], rfl, rfl, nofun, nofun⟩
  | cons c text previous =>
    by_cases second : c = '%'
    · -- the operator would be found
      subst second
      obtain ⟨kind, count, found, _⟩ := exists_of_word (List.cons_ne_nil '%' [])
        (List.prefix_append ['%'] text)
        (show kindOf? [(.operator, percentOperator.after '%')] ['%'] ≠ none by decide)
      rw [List.singleton_append] at found
      cases unfound.symm.trans found
    by_cases ends : isLineEnd c = true
    · have closed : advance c [(.operator, percentOperator.after '%')] = [] := by
        simp [advance, after_percent_lineEnd ends, isNever]
      refine ⟨[], c :: text, rfl, ?_, nofun, by simpa using ends⟩
      rw [scan, closed]
      rfl
    · rw [Bool.not_eq_true] at ends
      have still : advance c [(.operator, percentOperator.after '%')]
          = [(.operator, percentOperator.after '%')] := by
        simp only [advance, List.map_cons, List.map_nil, after_percent_inside second ends]
        rfl
      obtain ⟨none, reach⟩ := scan_cons_of_none (by rw [still]; exact List.cons_ne_nil _ _) unfound
      rw [still] at none reach
      obtain ⟨line, rest, rfl, same, inside, closed⟩ := previous none
      exact ⟨c :: line, rest, rfl, by rw [reach, same, List.length_cons],
        List.forall_mem_cons.mpr ⟨⟨second, ends⟩, inside⟩, closed⟩

theorem scan_of_error {text : Text} {count : Nat} (found : longestRule text = ⟨none, count⟩) :
    (scan tokenRules text).longest = none ∧ count = max (scan tokenRules text).reach 1 := by
  unfold longestRule at found
  split at found
  · cases found
  · rename_i unfound
    cases found
    exact ⟨unfound, rfl⟩

/-- **An error is over one character, or over a percent sign and the rest of its line**, where no
other percent sign is. -/
theorem longestRule_error {word rest : Text} (nonempty : word ≠ [])
    (found : longestRule (word ++ rest) = ⟨none, word.length⟩) :
    (∃ c, c ≠ '%' ∧ word = [c])
      ∨ ∃ line, word = '%' :: line ∧ (∀ c ∈ line, c ≠ '%' ∧ isLineEnd c = false)
        ∧ ∀ c ∈ rest.head?, isLineEnd c = true := by
  obtain ⟨unfound, count⟩ := scan_of_error found
  obtain ⟨c, line, rfl⟩ := List.exists_cons_of_ne_nil nonempty
  rw [List.cons_append] at unfound count
  by_cases percent : c = '%'
  · subst percent
    obtain ⟨none, reach⟩ := scan_cons_of_none
      (by rw [advance_percent]; exact List.cons_ne_nil _ _) unfound
    rw [advance_percent] at none reach
    obtain ⟨passed, behind, shape, same, inside, closed⟩ := exists_line_of_scan none
    rw [reach, same, List.length_cons] at count
    obtain ⟨rfl, rfl⟩ := List.append_inj shape (by omega)
    exact .inr ⟨line, rfl, inside, closed⟩
  · refine .inl ⟨c, percent, ?_⟩
    have begins : ∀ rule ∈ tokenRules, rule.2.begins c = false := by
      intro rule member
      refine Bool.eq_false_iff.mpr fun begins => ?_
      obtain ⟨own, also, matched⟩ := exists_word_of_begins percent member begins
      obtain ⟨some, _⟩ := longestRule_isLongest.longest (c :: line ++ rest) [c]
        (List.prefix_append [c] (line ++ rest)) ⟨own, also, matched⟩
      exact some (by rw [found])
    have reach : (scan tokenRules (c :: (line ++ rest))).reach = 0 := by
      rw [scan, advance_eq_nil begins]
      rfl
    rw [reach, List.length_cons] at count
    have nothing : line.length = 0 := by omega
    rw [List.length_eq_zero_iff.mp nothing]

/-! ### Where an unknown token comes from -/

/-- An error of a matcher, and the token of it that stands over `own`: the tokens of a text from
`position` on are `before`, that token and `behind`. -/
structure Matcher.ErrorAt (matcher : Matcher) (position : Nat) (left : Text) (before : List Token)
    (token : Token) (behind : List Token) where
  /-- What stands in front of the error, in it in front of the token, in it behind the token, and
  behind the error. -/
  (front passed more rest : Text)
  own : Char
  (earlier tokens : List Token)
  opened : List TokenKind
  text : left = front ++ (passed ++ own :: more) ++ rest
  found : matcher (passed ++ own :: more ++ rest) = ⟨none, (passed ++ own :: more).length⟩
  before : before = earlier ++ unknownTokens (position + front.bytes) passed
  token : token = ⟨.unknown, position + (front ++ passed).bytes, own.utf8Size⟩
  behind : behind = unknownTokens (position + (front ++ passed ++ [own]).bytes) more ++ tokens
  reads : matcher.Reads (position + (front ++ (passed ++ own :: more)).bytes) opened rest tokens

section Steady

variable {matcher : Matcher} {position : Nat} {left : Text} {before behind : List Token}
  {token : Token}

/-- An error behind a first finding is an error of the whole. -/
def Matcher.ErrorAt.further {word : Text} (first : List Token)
    (error : matcher.ErrorAt (position + word.bytes) left before token behind) :
    matcher.ErrorAt position (word ++ left) (first ++ before) token behind where
  front := word ++ error.front
  passed := error.passed
  more := error.more
  rest := error.rest
  own := error.own
  earlier := first ++ error.earlier
  tokens := error.tokens
  opened := error.opened
  text := by simp [error.text]
  found := error.found
  before := by simp [error.before, Nat.add_assoc]
  token := by simp [error.token, Nat.add_assoc]
  behind := by simp [error.behind, Nat.add_assoc]
  reads := by simpa [Nat.add_assoc] using error.reads

/-- **An unknown token is one of an error.** -/
theorem Matcher.Reads.exists_error (steady : matcher.IsSteady) {opened : List TokenKind}
    (reads : matcher.Reads position opened left (before ++ token :: behind))
    (unknown : token.kind = .unknown) :
    Nonempty (matcher.ErrorAt position left before token behind) := by
  generalize all : before ++ token :: behind = tokens at reads
  induction reads generalizing before with
  | done => exact absurd all (by simp)
  | @unknown position opened word rest tokens nonempty found reads previous =>
    rcases List.append_eq_append_iff.mp all with ⟨more, shape, others⟩ | ⟨more, shape, others⟩
    · cases more with
      | nil =>
        rw [List.append_nil] at shape
        obtain ⟨error⟩ := @previous [] others
        have whole := error.further (unknownTokens position word)
        rw [List.append_nil, shape] at whole
        exact ⟨whole⟩
      | cons first more =>
        obtain ⟨rfl, rfl⟩ := List.cons.inj others
        obtain ⟨passed, own, more, rfl, rfl, rfl, rfl⟩ := exists_of_unknownTokens shape
        exact ⟨[], passed, more, rest, own, [], tokens, opened, by simp, found, by simp, by simp,
          by simp, by simpa using reads⟩
    · obtain ⟨error⟩ := previous others.symm
      exact shape ▸ ⟨error.further _⟩
  | @word position opened kind word rest tokens nonempty found whole _ previous =>
    cases before with
    | nil =>
      obtain ⟨rfl, _⟩ := List.cons.inj all
      have known : kind ≠ .unknown := by
        rintro rfl
        exact steady.known _ (by rw [found])
      exact absurd unknown (finalKind_ne_unknown known word)
    | cons first before =>
      obtain ⟨rfl, others⟩ := List.cons.inj all
      obtain ⟨error⟩ := previous others
      exact ⟨error.further [_]⟩
  | @split position outer rest tokens found _ previous =>
    cases before with
    | nil =>
      obtain ⟨rfl, _⟩ := List.cons.inj all
      cases unknown
    | cons first before =>
      obtain ⟨rfl, others⟩ := List.cons.inj all
      obtain ⟨error⟩ := previous others
      exact ⟨@Matcher.ErrorAt.further _ _ _ _ _ _ [']'] [_] error⟩

/-- Tokens lie behind the place at which they begin to be given, and none is empty. -/
theorem Tiles.lt_stop {start : Nat} {text : Text} {tokens : List Token}
    (tiles : Tiles start text tokens) (member : token ∈ tokens) : start < token.stop := by
  induction tiles with
  | nil => exact absurd member List.not_mem_nil
  | @cons _ _ word _ _ begins length nonempty _ _ previous =>
    have positive := Text.bytes_pos nonempty
    rcases List.mem_cons.mp member with rfl | further
    · rw [Token.stop]
      omega
    · exact Nat.lt_of_le_of_lt (Nat.le_add_right _ _) (previous further)

end Steady

/-- A slice that begins where a word does and goes on behind it holds the character there. -/
theorem mem_of_slice? {text before word rest slice : Text} {c : Char} {start stop : Nat}
    (shape : text = before ++ word ++ c :: rest) (place : start = before.bytes)
    (found : text.slice? start stop = some slice) (further : start + word.bytes < stop) :
    c ∈ slice := by
  obtain ⟨front, after, same, begins, ends⟩ := Text.exists_of_slice? found
  rw [shape, List.append_assoc, List.append_assoc] at same
  obtain ⟨rfl, behind⟩ := Text.append_inj same (place.symm.trans begins)
  rcases List.append_eq_append_iff.mp behind with ⟨more, rfl, others⟩ | ⟨more, rfl, _⟩
  · cases more with
    | nil => simp at ends further; omega
    | cons d more =>
      obtain ⟨rfl, _⟩ := List.cons.inj others
      exact List.mem_append_right _ List.mem_cons_self
  · rw [Text.bytes_append] at further
    omega

end Lexer

open Lexer

/-- In front of a token an unknown percent sign stands, on the same line. -/
def Token.IsBehindPercent (text : Text) (before : List Token) (token : Token) : Prop :=
  ∃ lead ∈ before, lead.kind = .unknown ∧ lead.slice? text = some ['%']
    ∧ ∃ line, text.slice? lead.start token.stop = some line ∧ ∀ c ∈ line, isLineEnd c = false

namespace Lexer

section Windows

variable {text : Text} {start length : Nat} {before behind : List Token} {token : Token}

/-- An unknown token of a window comes from an error in it. -/
theorem exists_error_of_windowTokens
    (given : WindowTokens text start length (before ++ token :: behind))
    (unknown : token.kind = .unknown) :
    ∃ outside window after, text = outside ++ window ++ after ∧ start = outside.bytes
      ∧ start + length = start + window.bytes
      ∧ Nonempty (longestRule.ErrorAt start window before token behind) := by
  rw [windowTokens_eq] at given
  obtain ⟨window, inside, yields⟩ := given
  have reads := (longestRule_isSteady.tokenizes_iff inside).mp ⟨window, inside, yields⟩
  obtain ⟨outside, after, shape, place, stop⟩ := Text.exists_of_slice? inside
  exact ⟨outside, window, after, shape, place, stop, reads.exists_error longestRule_isSteady unknown⟩

/-- Where no word begins a token is unknown. -/
theorem kind_of_wordless (given : WindowTokens text start length (before ++ token :: behind))
    {rest : Text} (left : text.slice? token.start (start + length) = some rest)
    (wordless : wordLengths rest = ∅) : token.kind = .unknown := by
  rw [windowTokens_eq] at given
  obtain ⟨same, slice, emitted⟩ :=
    longestRule_isSteady.emitsLongest longestRule_isLongest _ _ _ _ _ _ given
  obtain rfl := Option.some.inj (slice.symm.trans left)
  by_contra known
  by_cases split : SplitsAt (openedBehind [] (before.map (·.kind))) same
  · have pair : (.closeDoubleSquareBracket, .literal [']', ']']) ∈ tokenRules := by
      simp [tokenRules]
    have word : Text.bytes [']', ']'] ∈ wordLengths same :=
      ⟨_, List.cons_ne_nil _ _, split.2, ⟨_, pair, (accepts_iff _ _).mp rfl⟩, rfl⟩
    rw [wordless] at word
    exact word
  · have word := (emitted.longest known split).greatest.1
    rw [wordless] at word
    exact word

end Windows

/-! ### Both ways -/

theorem wordLengths_of_error {text : Text} (found : (longestRule text).kind = none) :
    wordLengths text = ∅ := by
  refine Set.eq_empty_iff_forall_notMem.mpr ?_
  rintro _ ⟨word, _, front, isWord, rfl⟩
  exact (longestRule_isLongest.longest text word front isWord).1 found

namespace Matcher.ErrorAt

variable {outside window after : Text} {before behind : List Token} {token : Token}
  (error : longestRule.ErrorAt outside.bytes window before token behind)

theorem slice?_token : token.slice? (outside ++ window ++ after) = some [error.own] := by
  obtain ⟨front, passed, more, rest, own, _, _, _, rfl, _, rfl, rfl, rfl, _⟩ := error
  have slice := Text.slice?_middle (outside ++ (front ++ passed)) [own] (more ++ rest ++ after)
  simpa [Token.slice?, Token.stop, Nat.add_assoc] using slice

theorem slice?_left : (outside ++ window ++ after).slice? token.start
    (outside.bytes + window.bytes) = some (error.own :: error.more ++ error.rest) := by
  obtain ⟨front, passed, more, rest, own, _, _, _, rfl, _, rfl, rfl, rfl, _⟩ := error
  have slice := Text.slice?_middle (outside ++ (front ++ passed)) (own :: more ++ rest) after
  simpa [Nat.add_assoc] using slice

/-- The first token of an error has no word where it begins. -/
theorem wordless (first : error.passed = []) :
    wordLengths (error.own :: error.more ++ error.rest) = ∅ := by
  have found := error.found
  rw [first, List.nil_append] at found
  exact wordLengths_of_error (by rw [found])

/-- The further tokens of an error stand behind a percent sign, on its line. -/
theorem isBehindPercent (further : error.passed ≠ []) :
    token.IsBehindPercent (outside ++ window ++ after) before := by
  obtain ⟨front, passed, more, rest, own, earlier, _, _, rfl, found, rfl, rfl, rfl, _⟩ := error
  obtain ⟨c, passed, rfl⟩ := List.exists_cons_of_ne_nil further
  rcases longestRule_error (by simp) found with ⟨_, _, one⟩ | ⟨line, whole, inside, _⟩
  · simp at one
  obtain ⟨rfl, rfl⟩ := List.cons.inj whole
  refine ⟨⟨.unknown, outside.bytes + front.bytes, '%'.utf8Size⟩, ?_, rfl, ?_,
    '%' :: passed ++ [own], ?_, ?_⟩
  · exact List.mem_append_right _ List.mem_cons_self
  · have slice := Text.slice?_middle (outside ++ front) ['%']
      (passed ++ own :: more ++ rest ++ after)
    simpa [Token.slice?, Token.stop, Nat.add_assoc] using slice
  · have slice := Text.slice?_middle (outside ++ front) ('%' :: passed ++ [own])
      (more ++ rest ++ after)
    simpa [Token.stop, Nat.add_assoc] using slice
  · intro c member
    rcases List.mem_cons.mp member with rfl | member
    · decide
    · have onLine : c ∈ passed ++ own :: more := by
        rw [List.append_cons]
        exact List.mem_append_left more member
      exact (inside c onLine).2

/-- **What stands behind a percent sign of an error, on its line, is unknown too.** -/
theorem kind_behind (percent : error.own = '%') {later : Token} {line : Text}
    (member : later ∈ behind)
    (slice : (outside ++ window ++ after).slice? token.start later.stop = some line)
    (onLine : ∀ c ∈ line, isLineEnd c = false) : later.kind = .unknown := by
  obtain ⟨front, passed, more, rest, own, _, tokens, _, rfl, found, rfl, rfl, rfl, reads⟩ := error
  obtain rfl : own = '%' := percent
  -- the percent sign is the first character of the error
  obtain ⟨rfl, closed⟩ : passed = [] ∧ ∀ c ∈ rest.head?, isLineEnd c = true := by
    rcases longestRule_error (by simp) found with ⟨c, other, one⟩ | ⟨line, whole, inside, closed⟩
    · cases passed with
      | nil => exact absurd (List.cons.inj one).1.symm other
      | cons d passed => simp at one
    · refine ⟨?_, closed⟩
      cases passed with
      | nil => rfl
      | cons d passed =>
        obtain ⟨_, rfl⟩ := List.cons.inj whole
        exact absurd rfl (inside '%' (List.mem_append_right _ List.mem_cons_self)).1
  rcases List.mem_append.mp member with inError | beyond
  · exact kind_of_mem_unknownTokens inError
  -- behind the error the line has ended
  have tiles := reads.tiles longestRule_isSteady
  have some : rest ≠ [] := by
    rw [ne_eq, tiles.nil_iff]
    exact List.ne_nil_of_mem beyond
  obtain ⟨c, rest, rfl⟩ := List.exists_cons_of_ne_nil some
  have further : outside.bytes + (front ++ []).bytes + Text.bytes ('%' :: more) < later.stop := by
    simpa [Nat.add_assoc] using tiles.lt_stop beyond
  have shape : outside ++ (front ++ ([] ++ '%' :: more) ++ c :: rest) ++ after
      = outside ++ front ++ '%' :: more ++ c :: (rest ++ after) := by simp
  have onIt := onLine c (mem_of_slice? shape (by simp) slice further)
  cases onIt.symm.trans (closed c rfl)

end Matcher.ErrorAt

end Lexer

/-- **A token is unknown where no word begins, and behind an unknown percent sign on its line.** -/
theorem unknown_iff_windows {text : Text} {start length : Nat} {before behind : List Token}
    {token : Token} {rest : Text}
    (given : WindowTokens text start length (before ++ token :: behind))
    (left : text.slice? token.start (start + length) = some rest) :
    token.kind = .unknown ↔ wordLengths rest = ∅ ∨ token.IsBehindPercent text before := by
  constructor
  · intro unknown
    obtain ⟨outside, window, after, rfl, rfl, stop, ⟨error⟩⟩ :=
      exists_error_of_windowTokens given unknown
    by_cases first : error.passed = []
    · rw [stop] at left
      obtain rfl := Option.some.inj (error.slice?_left.symm.trans left)
      exact .inl (error.wordless first)
    · exact .inr (error.isBehindPercent first)
  · rintro (wordless | ⟨lead, member, unknown, percent, line, slice, onLine⟩)
    · exact kind_of_wordless given left wordless
    obtain ⟨front, between, rfl⟩ := List.append_of_mem member
    rw [List.append_assoc, List.cons_append] at given
    obtain ⟨outside, window, after, rfl, rfl, stop, ⟨error⟩⟩ :=
      exists_error_of_windowTokens given unknown
    have own := Option.some.inj (error.slice?_token.symm.trans percent)
    exact error.kind_behind (List.cons.inj own).1
      (List.mem_append_right _ List.mem_cons_self) slice onLine

/-- Behind the lone percent sign a letter is unknown, though a name begins there. -/
theorem unknown_iff_windows_letter :
    WindowTokens "x %in y".toList 0 7
        ([⟨.identifier, 0, 1⟩, ⟨.whitespace, 1, 1⟩, ⟨.unknown, 2, 1⟩] ++ ⟨.unknown, 3, 1⟩
          :: [⟨.unknown, 4, 1⟩, ⟨.unknown, 5, 1⟩, ⟨.unknown, 6, 1⟩])
      ∧ Text.slice? "x %in y".toList 3 (0 + 7) = some "in y".toList
      ∧ ((⟨.unknown, 3, 1⟩ : Token).kind = .unknown
        ↔ wordLengths "in y".toList = ∅
          ∨ (⟨.unknown, 3, 1⟩ : Token).IsBehindPercent "x %in y".toList
            [⟨.identifier, 0, 1⟩, ⟨.whitespace, 1, 1⟩, ⟨.unknown, 2, 1⟩]) := by
  have given : WindowTokens "x %in y".toList 0 7
      ([⟨.identifier, 0, 1⟩, ⟨.whitespace, 1, 1⟩, ⟨.unknown, 2, 1⟩] ++ ⟨.unknown, 3, 1⟩
        :: [⟨.unknown, 4, 1⟩, ⟨.unknown, 5, 1⟩, ⟨.unknown, 6, 1⟩]) :=
    ⟨lexemes "x %in y".toList, rfl, by decide⟩
  have left : Text.slice? "x %in y".toList 3 (0 + 7) = some "in y".toList := by decide
  exact ⟨given, left, unknown_iff_windows given left⟩

/-- **An unknown token may stand where a word begins**: the letters of `x %in y`. -/
theorem not_unknown_only_wordless :
    ¬∀ (text : Text) (start length : Nat) (before behind : List Token) (token : Token)
      (rest : Text), WindowTokens text start length (before ++ token :: behind) →
        text.slice? token.start (start + length) = some rest → token.kind = .unknown →
        wordLengths rest = ∅ := by
  intro only
  have none := only "x %in y".toList 0 7
    [⟨.identifier, 0, 1⟩, ⟨.whitespace, 1, 1⟩, ⟨.unknown, 2, 1⟩]
    [⟨.unknown, 4, 1⟩, ⟨.unknown, 5, 1⟩, ⟨.unknown, 6, 1⟩] ⟨.unknown, 3, 1⟩ "in y".toList
    ⟨lexemes "x %in y".toList, rfl, by decide⟩ (by decide) rfl
  have name : (.identifier, identifier) ∈ tokenRules := by simp [tokenRules]
  have word : Text.bytes "in".toList ∈ wordLengths "in y".toList :=
    ⟨"in".toList, by decide, by decide, ⟨_, name, (accepts_iff _ _).mp (by decide)⟩, rfl⟩
  rw [none] at word
  exact word

end RSource
