/-
**The tokens of a window cover it.**

The lexer of whole lists gives what a stream over its rules gives one by one (`yields_lexemesFrom`),
and a stream over any steady matcher covers its window (`Matcher.IsSteady.covers`): no token is
empty, each begins where the one before it ends, from the start of the window up to its end, all of
them end between characters, an unknown one holds a single character, and their texts put together
are the window. Main statement: `windowLexemes_covers`.
-/

import RSource.Proofs.Text.Slices
import RSource.Proofs.Token.Stream
import RSource.Proofs.Token.Words
import Mathlib.Data.List.Chain

namespace RSource

namespace Lexer

/-! ### Covering -/

/-- The tokens cover the part `window` of `text` that begins at `start`. -/
structure Covers (text window : Text) (start : Nat) (tokens : List Token) : Prop where
  nonempty : ∀ token ∈ tokens, 0 < token.length
  first : ∀ token ∈ tokens.head?, token.start = start
  adjacent : tokens.IsChain fun token next => next.start = token.stop
  last : ∀ token ∈ tokens.getLast?, token.stop = start + window.bytes
  empty : window = [] → tokens = []
  /-- Both ends of every token lie between characters, and the texts put together are the window. -/
  texts : ∃ words : List Text, tokens.map (·.slice? text) = words.map some ∧ words.flatten = window
  unknown : ∀ token ∈ tokens, token.kind = .unknown → ∃ c, token.slice? text = some [c]

/-- Tokens one behind the other over a window cover it. -/
theorem Tiles.covers {before window after : Text} {tokens : List Token}
    (tiles : Tiles before.bytes window tokens) :
    Covers (before ++ window ++ after) window before.bytes tokens := by
  generalize place : before.bytes = start at tiles
  induction tiles generalizing before with
  | nil =>
    exact ⟨by simp, by simp, .nil, by simp, fun _ => rfl, ⟨[], rfl, rfl⟩, by simp⟩
  | @cons start token word rest tokens begins length nonempty single tiles previous =>
    have further := @previous (before ++ word) (by rw [Text.bytes_append, place])
    have slice : token.slice? (before ++ (word ++ rest) ++ after) = some word := by
      have middle := Text.slice?_middle before word (rest ++ after)
      rw [Token.slice?, Token.stop, begins, length, ← place]
      simpa only [List.append_assoc] using middle
    have stop : token.stop = start + word.bytes := by rw [Token.stop, begins, length]
    rw [show before ++ word ++ rest ++ after = before ++ (word ++ rest) ++ after by
      simp only [List.append_assoc]] at further
    obtain ⟨words, slices, whole⟩ := further.texts
    refine ⟨?_, ?_, ?_, ?_, ?_, ⟨word :: words, ?_, ?_⟩, ?_⟩
    · rw [List.forall_mem_cons, length]
      exact ⟨Text.bytes_pos nonempty, further.nonempty⟩
    · simp [begins]
    · rw [List.isChain_cons]
      exact ⟨fun next member => (further.first next member).trans stop.symm, further.adjacent⟩
    · cases tokens with
      | nil =>
        cases tiles
        simp [stop]
      | cons next others =>
        rw [List.getLast?_cons_cons, Text.bytes_append, ← Nat.add_assoc]
        exact further.last
    · intro none
      exact absurd (List.append_eq_nil_iff.mp none).1 nonempty
    · rw [List.map_cons, slice, slices, List.map_cons]
    · rw [List.flatten_cons, whole]
    · rw [List.forall_mem_cons]
      refine ⟨fun unknown => ?_, further.unknown⟩
      obtain ⟨c, rfl⟩ := List.length_eq_one_iff.mp (single unknown)
      exact ⟨c, slice⟩

/-- **A stream ends, and its tokens cover its window.** -/
theorem Matcher.IsSteady.covers {matcher : Matcher} (steady : matcher.IsSteady)
    {text window : Text} {start stop : Nat} (inside : text.slice? start stop = some window) :
    ∃ tokens, (Stream.ofWindow start window).Yields matcher tokens
      ∧ Covers text window start tokens := by
  obtain ⟨before, after, rfl, rfl, _⟩ := Text.exists_of_slice? inside
  obtain ⟨tokens, yields, tiles⟩ :=
    @Matcher.IsSteady.exists_tiles _ steady (.ofWindow before.bytes window) rfl
  exact ⟨tokens, yields, Tiles.covers tiles⟩

/-! ### The rules as a matcher -/

/-- The longest word of the rules, or what was read before every rule had failed. -/
def longestRule : Matcher := fun text =>
  match (scan tokenRules text).longest with
  | some (kind, count) => ⟨some kind, count⟩
  | none => ⟨none, max (scan tokenRules text).reach 1⟩

theorem reach_le_length (rules : List (TokenKind × Pattern)) (text : Text) :
    (scan rules text).reach ≤ text.length := by
  induction text generalizing rules with
  | nil => exact Nat.le_refl 0
  | cons c rest previous =>
    unfold scan
    simp only
    split
    · exact Nat.zero_le _
    · exact Nat.succ_le_succ (previous _)

/-- What is found is the front of the text, and a rule stands for it. -/
theorem kindOf?_of_scan_longest {rules : List (TokenKind × Pattern)} {text : Text}
    {kind : TokenKind} {count : Nat} (found : (scan rules text).longest = some (kind, count)) :
    count ≤ text.length ∧ kindOf? rules (text.take count) = some kind := by
  induction text generalizing rules count with
  | nil => simp [scan] at found
  | cons c rest previous =>
    unfold scan at found
    simp only at found
    split at found
    · simp at found
    simp only at found
    split at found
    · rename_i further
      cases found
      obtain ⟨short, word⟩ := previous further
      refine ⟨Nat.succ_le_succ short, ?_⟩
      rw [List.take_succ_cons, kindOf?_cons]
      exact word
    · obtain ⟨other, first, same⟩ := Option.map_eq_some_iff.mp found
      cases same
      refine ⟨Nat.succ_le_succ (Nat.zero_le _), ?_⟩
      rw [List.take_succ_cons, List.take_zero, kindOf?_cons, kindOf?_nil]
      exact first

theorem exists_of_kindOf? {rules : List (TokenKind × Pattern)} {word : Text} {kind : TokenKind}
    (found : kindOf? rules word = some kind) :
    ∃ pattern, (kind, pattern) ∈ rules ∧ pattern.Matches word := by
  obtain ⟨rule, first, rfl⟩ := Option.map_eq_some_iff.mp found
  have accepted := List.find?_some first
  exact ⟨rule.2, List.mem_of_find?_eq_some first, (Pattern.accepts_iff _ _).mp accepted⟩

/-- The rules name no character unknown, and only `]]` closes a double bracket. -/
theorem tokenRules_shape {rule : TokenKind × Pattern} (member : rule ∈ tokenRules) :
    rule.1 ≠ .unknown
      ∧ (rule.1 = .closeDoubleSquareBracket → rule.2 = .literal [']', ']']) := by
  simp only [tokenRules, List.mem_cons, List.not_mem_nil, or_false] at member
  rcases member with rfl | rfl | rfl | rfl | rfl | rfl | rfl | rfl | rfl | rfl | rfl | rfl | rfl
    | rfl | rfl | rfl | rfl <;> simp

/-- **The rules go on over every text.** -/
theorem longestRule_isSteady : longestRule.IsSteady where
  positive text more := by
    unfold longestRule
    split
    · rename_i found
      exact scan_longest_pos found
    · exact Nat.lt_of_lt_of_le Nat.one_pos (Nat.le_max_right _ _)
  within text more := by
    unfold longestRule
    split
    · rename_i found
      exact (kindOf?_of_scan_longest found).1
    · exact Nat.max_le.mpr ⟨reach_le_length _ _, List.length_pos_iff.mpr more⟩
  known text unknown := by
    unfold longestRule at unknown
    split at unknown
    · rename_i found
      cases unknown
      obtain ⟨pattern, rule, _⟩ := exists_of_kindOf? (kindOf?_of_scan_longest found).2
      exact (tokenRules_shape rule).1 rfl
    · cases unknown
  double text closes := by
    unfold longestRule at closes ⊢
    split at closes
    · rename_i found
      cases closes
      obtain ⟨pattern, rule, word⟩ := exists_of_kindOf? (kindOf?_of_scan_longest found).2
      have pair : pattern = .literal [']', ']'] := (tokenRules_shape rule).2 rfl
      rw [pair] at word
      exact Pattern.eq_of_matches_literal word
    · cases closes

/-! ### Lists and streams -/

/-- A word that is not split is one piece. -/
theorem settle_whole {kind : TokenKind} {opened : List TokenKind} (word : Text)
    (whole : kind = .closeDoubleSquareBracket → ∀ outer, opened ≠ .openSquareBracket :: outer) :
    settle kind word opened
      = ⟨[(finalKind kind word, word)], bracketsBehind kind opened, word.length⟩ := by
  unfold settle
  split
  case h_5 outer => exact absurd rfl (whole rfl outer)
  all_goals simp_all [finalKind, bracketsBehind]

theorem place_append (start : Nat) (first second : List Piece) :
    place start (first ++ second)
      = place start first ++ place (start + (texts first).bytes) second := by
  induction first generalizing start with
  | nil => rfl
  | cons piece first previous =>
    rw [List.cons_append, place, previous, place, List.cons_append, Nat.add_assoc,
      ← Text.bytes_append]
    rfl

theorem place_unknown (start : Nat) (word : Text) :
    (place start (word.map fun c => (.unknown, [c]))).map Lexeme.token
      = unknownTokens start word := by
  induction word generalizing start with
  | nil => rfl
  | cons c word previous =>
    rw [List.map_cons, place, List.map_cons, previous, unknownTokens]
    rfl

theorem pieces_of_ne_nil {c : Char} {bound text : Text} (opened : List TokenKind)
    (more : text ≠ []) :
    pieces (c :: bound) opened text = (step opened text).pieces
      ++ pieces bound (step opened text).opened (text.drop (step opened text).count) := by
  obtain ⟨first, rest, rfl⟩ := List.exists_cons_of_ne_nil more
  rfl

theorem settle_count_pos (kind : TokenKind) (opened : List TokenKind) {word : Text}
    (nonempty : word ≠ []) : 0 < (settle kind word opened).count := by
  have positive := List.length_pos_iff.mpr nonempty
  unfold settle
  split <;> first | exact positive | exact Nat.one_pos

theorem step_count_pos (opened : List TokenKind) {text : Text} (more : text ≠ []) :
    0 < (step opened text).count := by
  unfold step
  simp only
  split
  · rename_i found
    refine settle_count_pos _ _ ?_
    rw [ne_eq, List.take_eq_nil_iff, not_or]
    exact ⟨Nat.ne_of_gt (scan_longest_pos found), more⟩
  · exact Nat.lt_of_lt_of_le Nat.one_pos (Nat.le_max_right _ _)

/-- **One step of the list is given by the stream**, token by token, if the stream behind it gives
the rest. -/
theorem yields_step {stream : Stream} (idle : stream.waiting = []) (more : stream.left ≠ [])
    {front : Step} (stepped : step stream.opened stream.left = front) {tokens : List Token}
    (behind : ∀ after : Stream, after.waiting = [] → after.left = stream.left.drop front.count →
      after.position = stream.position + (texts front.pieces).bytes →
      after.opened = front.opened → after.Yields longestRule tokens) :
    stream.Yields longestRule
      ((place stream.position front.pieces).map Lexeme.token ++ tokens) := by
  have covered : (longestRule stream.left).count ≤ stream.left.length :=
    longestRule_isSteady.within _ more
  unfold step at stepped
  cases found : (scan tokenRules stream.left).longest with
  | none =>
    have finds : longestRule stream.left = ⟨none, max (scan tokenRules stream.left).reach 1⟩ := by
      simp only [longestRule, found]
    obtain ⟨c, word, unknown⟩ := List.exists_cons_of_ne_nil (longestRule_isSteady.take_ne_nil more)
    have left : stream.left = c :: (word ++ stream.left.drop (longestRule stream.left).count) := by
      rw [← List.cons_append, ← unknown, List.take_append_drop]
    have counted : max (scan tokenRules stream.left).reach 1 = (longestRule stream.left).count := by
      rw [finds]
    simp only [found, counted, unknown] at stepped
    subst stepped
    rw [place_unknown]
    refine .more (Stream.next_unknown idle (by rw [finds]) left unknown)
      (Stream.Yields.waiting (behind (stream.pass _) idle rfl ?_ rfl) idle _)
    rw [texts_unknown, ← unknown]
    simp [Stream.position, Stream.pass, Nat.add_assoc]
  | some result =>
    obtain ⟨kind, count⟩ := result
    have finds : longestRule stream.left = ⟨some kind, count⟩ := by
      simp only [longestRule, found]
    simp only [found] at stepped
    by_cases split : kind = .closeDoubleSquareBracket
      ∧ ∃ outer, stream.opened = .openSquareBracket :: outer
    · obtain ⟨rfl, outer, single⟩ := split
      have double := longestRule_isSteady.double stream.left (by rw [finds])
      rw [finds] at double
      have left : stream.left = [']'] ++ ([']'] ++ stream.left.drop count) := by
        have whole := List.take_append_drop count stream.left
        rw [double] at whole
        exact whole.symm
      rw [double, single] at stepped
      subst stepped
      refine .more (Stream.next_split idle (by rw [finds]) single left)
        (behind _ rfl ?_ (Nat.add_assoc _ _ _).symm rfl)
      conv_rhs => rw [left]
      rfl
    · rw [not_and, not_exists] at split
      rw [settle_whole _ split] at stepped
      subst stepped
      rw [finds] at covered
      refine .more (Stream.next_word idle more (by rw [finds]) split (by rw [finds]))
        (behind _ idle ?_ ?_ rfl)
      · rw [finds, List.length_take, Nat.min_eq_left covered]
        rfl
      · rw [finds]
        simp [Stream.position, Stream.pass, Nat.add_assoc, texts]

/-- **The stream over the rules gives the tokens of the list.** -/
theorem yields_pieces {bound : Text} {stream : Stream} (idle : stream.waiting = [])
    (enough : stream.left.length ≤ bound.length) :
    stream.Yields longestRule
      ((place stream.position (pieces bound stream.opened stream.left)).map Lexeme.token) := by
  induction bound generalizing stream with
  | nil =>
    have empty : stream.left = [] := List.eq_nil_of_length_eq_zero (Nat.le_zero.mp enough)
    rw [empty]
    exact .done (Stream.next_nil idle empty)
  | cons _ bound previous =>
    obtain empty | more := eq_or_ne stream.left []
    · rw [empty]
      exact .done (Stream.next_nil idle empty)
    rw [pieces_of_ne_nil _ more, place_append, List.map_append]
    refine yields_step idle more rfl fun after idle left position opened => ?_
    rw [← position, ← opened, ← left]
    refine previous idle ?_
    have positive := step_count_pos stream.opened more
    rw [left, List.length_drop]
    rw [List.length_cons] at enough
    omega

end Lexer

open Lexer

/-- A lexeme is found where its token says. -/
theorem slice?_of_mem_lexemes {text : Text} {lexeme : Lexeme} (member : lexeme ∈ lexemes text) :
    text.slice? lexeme.start lexeme.stop = some lexeme.text := by
  obtain ⟨before, behind, whole, start⟩ := exists_of_mem_lexemes member
  rw [Lexeme.stop, start, whole]
  exact Text.slice?_middle before lexeme.text behind

/-- **The tokens of a window cover it**, for any matcher that goes on over every text, and so for
the rules. -/
theorem windowLexemes_covers {text window : Text} {start length : Nat}
    (inside : text.slice? start (start + length) = some window) :
    (∀ matcher : Matcher, matcher.IsSteady → ∃ tokens,
      (Stream.ofWindow start window).Yields matcher tokens ∧ Covers text window start tokens)
    ∧ longestRule.IsSteady
    ∧ ∃ found, windowLexemes text start length = .ok found
      ∧ (Stream.ofWindow start window).Yields longestRule (found.map Lexeme.token)
      ∧ Covers text window start (found.map Lexeme.token) := by
  refine ⟨fun matcher steady => steady.covers inside, longestRule_isSteady,
    lexemesFrom start window, ?_, yields_pieces rfl (Nat.le_refl _), ?_⟩
  · obtain ⟨before, after, rfl, _, stop⟩ := Text.exists_of_slice? inside
    rw [windowLexemes, if_neg, inside]
    simp only [Text.bytes_append]
    omega
  · obtain ⟨tokens, yields, covers⟩ := longestRule_isSteady.covers inside
    rwa [← (yields_pieces rfl (Nat.le_refl _)).unique yields] at covers

/-- Behind a character of two bytes, with a `]]` that is split and one that is not. -/
theorem windowLexemes_covers_brackets :
    ∃ found, windowLexemes "éx[y[1]]z[[2]]".toList 2 13 = .ok found
      ∧ (Stream.ofWindow 2 "x[y[1]]z[[2]]".toList).Yields longestRule (found.map Lexeme.token)
      ∧ Covers "éx[y[1]]z[[2]]".toList "x[y[1]]z[[2]]".toList 2 (found.map Lexeme.token) :=
  (windowLexemes_covers (by decide)).2.2

end RSource
