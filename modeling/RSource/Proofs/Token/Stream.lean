/-
**Tokens, one at a time.**

A stream gives the tokens of a window one by one. It holds a matcher, which reads a source from its
front on; the place of that source in the whole text; tokens that were found and wait to be given;
and the square brackets open so far. A `]]` that closes a single bracket is given as one `]`, and
the matcher starts again behind it, on a source of its own. `Stream.Yields` says which tokens a
stream gives until it ends.

Of the matcher only this is known (`Matcher.IsSteady`): on a text that is not empty it takes at
least one character and no more than there are, and what it calls `]]` is that text. Main statement:
`Matcher.IsSteady.exists_tiles`, the tokens that a stream gives lie one behind the other over all of
its window (`Tiles`).
-/

import RSource.Proofs.Token.Places
import Mathlib.Data.List.Basic

namespace RSource

namespace Lexer

/-- What stands at the front of a text: the kind of a word, or none where no word begins, and the
number of its characters. -/
structure Finding where
  kind : Option TokenKind
  count : Nat

/-- Finds something at the front of every text. -/
abbrev Matcher := Text → Finding

/-- A matcher that goes on over every text, step by step. -/
structure Matcher.IsSteady (matcher : Matcher) : Prop where
  positive : ∀ text, text ≠ [] → 0 < (matcher text).count
  within : ∀ text, text ≠ [] → (matcher text).count ≤ text.length
  known : ∀ text, (matcher text).kind ≠ some .unknown
  double : ∀ text, (matcher text).kind = some .closeDoubleSquareBracket →
    text.take (matcher text).count = [']', ']']

/-- A window on its way through a matcher. -/
structure Stream where
  /-- What the matcher has read of the source it was started on. -/
  passed : Text
  /-- What is left of that source. -/
  left : Text
  /-- Where that source begins in the whole text. -/
  offset : Nat
  /-- Tokens found and not yet given. -/
  waiting : List Token
  /-- The square brackets that are open, the innermost first. -/
  opened : List TokenKind

/-- One token of the kind `unknown` for each character. -/
def unknownTokens : (start : Nat) → Text → List Token
  | _, [] => []
  | start, c :: rest => ⟨.unknown, start, c.utf8Size⟩ :: unknownTokens (start + c.utf8Size) rest

/-- The kind of a word, where reserved words are told from names. -/
def finalKind (kind : TokenKind) (word : Text) : TokenKind :=
  match kind with
  | .identifier => classifyWord word
  | kind => kind

/-- The square brackets open behind a token. -/
def bracketsBehind : TokenKind → (opened : List TokenKind) → List TokenKind
  | .openSquareBracket, opened => .openSquareBracket :: opened
  | .openDoubleSquareBracket, opened => .openDoubleSquareBracket :: opened
  | .closeSquareBracket, .openSquareBracket :: outer => outer
  | .closeDoubleSquareBracket, .openDoubleSquareBracket :: outer => outer
  | _, opened => opened

namespace Stream

/-- A window in front of its first token. -/
def ofWindow (start : Nat) (window : Text) : Stream := ⟨[], window, start, [], []⟩

/-- The place in the whole text up to which the matcher has read. -/
def position (stream : Stream) : Nat := stream.offset + stream.passed.bytes

/-- Reads `count` characters. -/
def pass (count : Nat) (stream : Stream) : Stream :=
  { stream with
    passed := stream.passed ++ stream.left.take count, left := stream.left.drop count }

/-- Starts the matcher again, `relative` bytes into its source. -/
def resume? (relative : Nat) (stream : Stream) : Option Stream :=
  ((stream.passed ++ stream.left).dropBytes? relative).map fun left =>
    { stream with passed := [], left, offset := stream.offset + relative }

/-- The next token and the stream behind it. -/
def next (matcher : Matcher) (stream : Stream) : Option (Token × Stream) :=
  match stream.waiting, stream.left with
  | token :: waiting, _ => some (token, { stream with waiting })
  | [], [] => none
  | [], _ :: _ =>
    let found := matcher stream.left
    let word : Text := stream.left.take found.count
    match found.kind, stream.opened with
    | none, _ =>
      match unknownTokens stream.position word with
      | [] => none
      | token :: waiting => some (token, { stream.pass found.count with waiting })
    -- In `x[y[1]]` the first `]` closes the inner bracket only.
    | some .closeDoubleSquareBracket, .openSquareBracket :: outer =>
      (stream.resume? (stream.passed.bytes + 1)).map fun resumed =>
        (⟨.closeSquareBracket, stream.position, 1⟩, { resumed with opened := outer })
    | some kind, opened =>
      some (⟨finalKind kind word, stream.position, word.bytes⟩,
        { stream.pass found.count with opened := bracketsBehind kind opened })

/-- The tokens that a stream gives until it ends. -/
inductive Yields (matcher : Matcher) : Stream → List Token → Prop where
  | done {stream : Stream} : stream.next matcher = none → Yields matcher stream []
  | more {stream after : Stream} {token : Token} {tokens : List Token} :
      stream.next matcher = some (token, after) → Yields matcher after tokens →
      Yields matcher stream (token :: tokens)

variable {matcher : Matcher} {stream : Stream}

theorem Yields.unique {first second : List Token} (left : Yields matcher stream first)
    (right : Yields matcher stream second) : first = second := by
  induction left generalizing second with
  | done ended =>
    cases right with
    | done _ => rfl
    | more given _ =>
      rw [ended] at given
      cases given
  | more given _ previous =>
    cases right with
    | done ended =>
      rw [ended] at given
      cases given
    | more again further =>
      rw [given] at again
      cases again
      rw [previous further]

/-- Tokens that wait are given first. -/
theorem Yields.waiting {tokens : List Token} (behind : Yields matcher stream tokens)
    (idle : stream.waiting = []) (waiting : List Token) :
    Yields matcher { stream with waiting } (waiting ++ tokens) := by
  induction waiting with
  | nil =>
    obtain ⟨passed, left, offset, _, opened⟩ := stream
    cases idle
    exact behind
  | cons token waiting previous => exact .more (by simp [next]) previous

end Stream

/-! ### One step -/

theorem finalKind_ne_unknown {kind : TokenKind} (known : kind ≠ .unknown) (word : Text) :
    finalKind kind word ≠ .unknown := by
  unfold finalKind
  split
  · exact classifyWord_of_reserved (· ≠ .unknown) (by decide) (by decide) word
  · exact known

/-- What a stream gives over the text `word`, and the stream behind it. -/
structure Stream.StepsOver (matcher : Matcher) (stream : Stream) (word : Text) (token : Token)
    (after : Stream) : Prop where
  given : stream.next matcher = some (token, after)
  nonempty : word ≠ []
  left : stream.left = word ++ after.left
  start : token.start = stream.position
  length : token.length = word.bytes
  known : token.kind ≠ .unknown
  position : after.position = stream.position + word.bytes
  idle : after.waiting = []

section Step

variable {matcher : Matcher} {stream : Stream}

/-- A matcher that is started again takes up where the old one stood. -/
theorem Stream.resume?_eq {word rest : Text} (left : stream.left = word ++ rest) :
    stream.resume? (stream.passed.bytes + word.bytes)
      = some { stream with
          passed := [], left := rest,
          offset := stream.offset + (stream.passed.bytes + word.bytes) } := by
  rw [resume?, left, ← List.append_assoc, ← Text.bytes_append, Text.dropBytes?_bytes,
    Option.map_some]

/-- Behind its last token a stream ends. -/
theorem Stream.next_nil (idle : stream.waiting = []) (empty : stream.left = []) :
    stream.next matcher = none := by
  unfold next
  rw [idle, empty]

/-- A word is given as it is, unless it is a `]]` in a single bracket. -/
theorem Stream.next_word (idle : stream.waiting = []) (more : stream.left ≠ []) {kind : TokenKind}
    (found : (matcher stream.left).kind = some kind)
    (whole : kind = .closeDoubleSquareBracket →
      ∀ outer, stream.opened ≠ .openSquareBracket :: outer)
    {word : Text} (front : stream.left.take (matcher stream.left).count = word) :
    stream.next matcher = some (⟨finalKind kind word, stream.position, word.bytes⟩,
      { stream.pass (matcher stream.left).count with
        opened := bracketsBehind kind stream.opened }) := by
  obtain ⟨c, rest, shape⟩ := List.exists_cons_of_ne_nil more
  unfold next
  rw [idle, shape]
  simp only
  rw [← shape, found, front]
  split
  · contradiction
  · rename_i double single
    exact absurd single (whole (Option.some.inj double) _)
  · rename_i same _
    cases same
    rfl

/-- In a single bracket the first half of a `]]` is given. -/
theorem Stream.next_split (idle : stream.waiting = [])
    (found : (matcher stream.left).kind = some .closeDoubleSquareBracket)
    {outer : List TokenKind} (single : stream.opened = .openSquareBracket :: outer)
    {rest : Text} (left : stream.left = [']'] ++ rest) :
    stream.next matcher = some (⟨.closeSquareBracket, stream.position, 1⟩,
      ⟨[], rest, stream.offset + (stream.passed.bytes + 1), [], outer⟩) := by
  have resumed : stream.resume? (stream.passed.bytes + 1) = _ := resume?_eq left
  unfold next
  rw [idle, left]
  simp only [List.cons_append]
  rw [← List.cons_append, ← left, found, single]
  simp only
  rw [resumed, Option.map_some, idle]
  rfl

/-- Where no word begins, the characters passed are given one by one. -/
theorem Stream.next_unknown (idle : stream.waiting = [])
    (found : (matcher stream.left).kind = none) {c : Char} {word rest : Text}
    (left : stream.left = c :: rest)
    (front : stream.left.take (matcher stream.left).count = c :: word) :
    stream.next matcher = some (⟨.unknown, stream.position, c.utf8Size⟩,
      { stream.pass (matcher stream.left).count with
        waiting := unknownTokens (stream.position + c.utf8Size) word }) := by
  unfold next
  rw [idle, left]
  simp only
  rw [← left, found, front]
  rfl

variable (steady : matcher.IsSteady) (more : stream.left ≠ [])
include steady more

theorem Matcher.IsSteady.take_ne_nil : stream.left.take (matcher stream.left).count ≠ [] := by
  rw [ne_eq, List.take_eq_nil_iff, not_or]
  exact ⟨Nat.ne_of_gt (steady.positive _ more), more⟩

variable (idle : stream.waiting = [])
include idle

/-- **A step gives one token over the text it takes**: over a whole word, or over the first half of
a `]]`. -/
theorem Stream.exists_stepsOver {kind : TokenKind}
    (found : (matcher stream.left).kind = some kind) :
    ∃ word token after, stream.StepsOver matcher word token after := by
  have nonempty := steady.take_ne_nil more
  have known : kind ≠ .unknown := by
    rintro rfl
    exact steady.known _ found
  by_cases split : kind = .closeDoubleSquareBracket
      ∧ ∃ outer, stream.opened = .openSquareBracket :: outer
  · obtain ⟨rfl, outer, single⟩ := split
    have front :
        stream.left = [']'] ++ ([']'] ++ stream.left.drop (matcher stream.left).count) := by
      have whole := List.take_append_drop (matcher stream.left).count stream.left
      rw [steady.double _ found] at whole
      exact whole.symm
    exact ⟨[']'], _, _, next_split idle found single front, List.cons_ne_nil _ _, front, rfl, rfl,
      nofun, Nat.add_assoc _ _ _ |>.symm, rfl⟩
  · rw [not_and, not_exists] at split
    refine ⟨_, _, _, next_word idle more found split rfl, nonempty, ?_, rfl, rfl,
      finalKind_ne_unknown known _, ?_, idle⟩
    · exact (List.take_append_drop _ _).symm
    · simp [position, pass, Nat.add_assoc]

end Step

/-! ### A whole run -/

/-- Tokens one behind the other over a text that begins at `start`. None is empty, and an unknown
one holds a single character. -/
inductive Tiles : (start : Nat) → Text → List Token → Prop where
  | nil {start : Nat} : Tiles start [] []
  | cons {start : Nat} {token : Token} {word rest : Text} {tokens : List Token} :
      token.start = start → token.length = word.bytes → word ≠ [] →
      (token.kind = .unknown → word.length = 1) →
      Tiles (start + word.bytes) rest tokens →
      Tiles start (word ++ rest) (token :: tokens)

theorem tiles_unknownTokens {start : Nat} {word rest : Text} {tokens : List Token}
    (behind : Tiles (start + word.bytes) rest tokens) :
    Tiles start (word ++ rest) (unknownTokens start word ++ tokens) := by
  induction word generalizing start with
  | nil => exact behind
  | cons c word previous =>
    refine @Tiles.cons _ _ [c] _ _ rfl rfl (List.cons_ne_nil _ _) (fun _ => rfl) (previous ?_)
    simpa [Nat.add_assoc] using behind

/-- **A stream ends, and its tokens lie one behind the other over all it had left.** -/
theorem Matcher.IsSteady.exists_tiles {matcher : Matcher} (steady : matcher.IsSteady)
    {stream : Stream} (idle : stream.waiting = []) :
    ∃ tokens, stream.Yields matcher tokens ∧ Tiles stream.position stream.left tokens := by
  -- Each step takes some of what is left.
  induction bound : stream.left.length using Nat.strongRecOn generalizing stream with
  | _ size previous =>
    subst bound
    obtain empty | more := eq_or_ne stream.left []
    · refine ⟨[], .done (Stream.next_nil idle empty), ?_⟩
      rw [empty]
      exact .nil
    cases found : (matcher stream.left).kind with
    | some kind =>
      obtain ⟨word, token, after, step⟩ := Stream.exists_stepsOver steady more idle found
      have shorter : after.left.length < stream.left.length := by
        have positive := List.length_pos_iff.mpr step.nonempty
        rw [step.left, List.length_append]
        omega
      obtain ⟨tokens, yields, tiles⟩ := previous _ shorter step.idle rfl
      refine ⟨token :: tokens, .more step.given yields, ?_⟩
      rw [step.left]
      rw [step.position] at tiles
      exact .cons step.start step.length step.nonempty (fun unknown => absurd unknown step.known)
        tiles
    | none =>
      let after := stream.pass (matcher stream.left).count
      obtain ⟨c, word, front⟩ := List.exists_cons_of_ne_nil (steady.take_ne_nil more)
      have left : stream.left = c :: (word ++ after.left) := by
        rw [← List.cons_append, ← front]
        exact (List.take_append_drop _ _).symm
      have shorter : after.left.length < stream.left.length := by
        rw [left, List.length_cons, List.length_append]
        omega
      obtain ⟨tokens, yields, tiles⟩ := @previous _ shorter after idle rfl
      refine ⟨unknownTokens stream.position (c :: word) ++ tokens,
        .more (Stream.next_unknown idle found left front) (yields.waiting idle _), ?_⟩
      have position : after.position = stream.position + Text.bytes (c :: word) := by
        rw [← front]
        simp [after, Stream.position, Stream.pass, Nat.add_assoc]
      rw [position] at tiles
      have whole := tiles_unknownTokens tiles
      rwa [List.cons_append, ← left] at whole

end Lexer

end RSource
