/-
**Tokens of a window, without the text around it.**

A window begins anew: its tokens are those of its text alone, moved on to where the window stands
(`Matcher.Reads.shift`). A text may be cut where a token ends that a rule stands for, if no square
bracket is open there: what stands behind the cut is not looked at in front of it
(`Matcher.Reads.cut`), so the two sides give the tokens that they give together. Main statement:
`relexes_windows`.
-/

import RSource.Proofs.Token.Findings
import RSource.Proofs.Token.Maximal

namespace RSource

/-- Of two cuts of one text at the same place the halves are the same. -/
theorem Text.append_inj {left right other others : Text} (same : left ++ right = other ++ others)
    (sizes : left.bytes = other.bytes) : left = other ∧ right = others := by
  have cut := Text.dropBytes?_bytes left right
  rw [same, sizes, Text.dropBytes?_bytes] at cut
  obtain rfl := Option.some.inj cut
  exact ⟨List.append_cancel_right same, rfl⟩

namespace Lexer

/-! ### Tokens one behind the other -/

section Tiles

variable {start : Nat} {text : Text} {front back tokens : List Token}

/-- Where some of the tokens end the text is cut in two. -/
theorem Tiles.exists_cut (tiles : Tiles start text (front ++ back)) :
    ∃ before behind : Text, text = before ++ behind ∧ Tiles start before front
      ∧ Tiles (start + before.bytes) behind back := by
  induction front generalizing start text with
  | nil => exact ⟨[], text, rfl, .nil, tiles⟩
  | cons token front previous =>
    cases tiles with
    | @cons _ _ word rest _ begins length nonempty single further =>
      obtain ⟨before, behind, rfl, inFront, inBack⟩ := previous further
      refine ⟨word ++ before, behind, (List.append_assoc _ _ _).symm,
        .cons begins length nonempty single inFront, ?_⟩
      rwa [Text.bytes_append, ← Nat.add_assoc]

theorem Tiles.nil_iff (tiles : Tiles start text tokens) : text = [] ↔ tokens = [] := by
  cases tiles with
  | nil => exact ⟨fun _ => rfl, fun _ => rfl⟩
  | cons _ _ nonempty _ _ => simp [nonempty]

/-- The place where the last token ends, or where none begins. -/
def endOf : (start : Nat) → List Token → Nat
  | start, [] => start
  | _, token :: tokens => endOf token.stop tokens

theorem Tiles.endOf (tiles : Tiles start text tokens) :
    endOf start tokens = start + text.bytes := by
  induction tiles with
  | nil => rfl
  | cons begins length _ _ _ previous =>
    rw [Lexer.endOf, Token.stop, begins, length, previous, Text.bytes_append, Nat.add_assoc]

/-- Texts under the same tokens are equally long. -/
theorem Tiles.bytes_eq {other : Text} (tiles : Tiles start text tokens)
    (others : Tiles start other tokens) : text.bytes = other.bytes :=
  Nat.add_left_cancel (tiles.endOf.symm.trans others.endOf)

end Tiles

theorem tiles_unknown (start : Nat) (word : Text) :
    Tiles start word (unknownTokens start word) := by
  have tiles := @tiles_unknownTokens start word [] [] .nil
  rwa [List.append_nil, List.append_nil] at tiles

/-! ### Moving on -/

theorem unknownTokens_shift (start offset : Nat) (word : Text) :
    unknownTokens (start + offset) word = (unknownTokens start word).map (·.shift offset) := by
  induction word generalizing start with
  | nil => rfl
  | cons c word previous =>
    rw [unknownTokens, unknownTokens, List.map_cons, ← previous, Nat.add_right_comm]
    rfl

/-- **A text that stands further on gives the same tokens, further on.** -/
theorem Matcher.Reads.shift {matcher : Matcher} {position : Nat} {opened : List TokenKind}
    {left : Text} {tokens : List Token} (reads : matcher.Reads position opened left tokens)
    (offset : Nat) :
    matcher.Reads (position + offset) opened left (tokens.map (·.shift offset)) := by
  induction reads with
  | done => exact .done
  | unknown nonempty found _ previous =>
    rw [List.map_append, ← unknownTokens_shift]
    rw [Nat.add_right_comm] at previous
    exact .unknown nonempty found previous
  | word nonempty found whole _ previous =>
    rw [Nat.add_right_comm] at previous
    exact .word nonempty found whole previous
  | split found _ previous =>
    rw [Nat.add_right_comm] at previous
    exact .split found previous

/-! ### Cutting -/

/-- A matcher whose errors stay as they are when the text is cut where a later token ends. -/
def Matcher.KeepsErrors (matcher : Matcher) : Prop :=
  ∀ (stream : Stream) (text others : Text) (front back : List Token), stream.waiting = [] →
    stream.left = text ++ others → stream.Yields matcher (front ++ back) →
    Tiles stream.position text front → (matcher stream.left).kind = none →
    (matcher stream.left).count < text.length → matcher text = matcher stream.left

/-- The last token is one that a rule stands for. -/
def EndsKnown (tokens : List Token) : Prop := ∀ token ∈ tokens.getLast?, token.kind ≠ .unknown

theorem EndsKnown.of_append {front back : List Token} (known : EndsKnown (front ++ back)) :
    EndsKnown back := by
  intro token last
  refine known token ?_
  rw [List.getLast?_append, Option.mem_def.mp last]
  rfl

theorem kind_of_mem_unknownTokens {start : Nat} {word : Text} {token : Token}
    (member : token ∈ unknownTokens start word) : token.kind = .unknown := by
  induction word generalizing start with
  | nil => exact absurd member List.not_mem_nil
  | cons c word previous =>
    rcases List.mem_cons.mp member with rfl | further
    · rfl
    · exact previous further

/-- Unknown characters open and close no brackets. -/
theorem openedBehind_unknownTokens (opened : List TokenKind) (start : Nat) (word : Text) :
    openedBehind opened ((unknownTokens start word).map (·.kind)) = opened := by
  refine openedBehind_of_plain opened ?_
  rw [List.forall_mem_map]
  intro token member
  rw [kind_of_mem_unknownTokens member]
  rfl

/-- Tokens that end with a known one do not end among unknown ones. -/
theorem EndsKnown.exists_behind {start : Nat} {word : Text} {first others tokens : List Token}
    (known : EndsKnown first) (nonempty : first ≠ [])
    (same : first ++ others = unknownTokens start word ++ tokens) :
    ∃ further, further ≠ [] ∧ first = unknownTokens start word ++ further
      ∧ tokens = further ++ others := by
  have outside : ¬ ∃ more, unknownTokens start word = first ++ more := by
    rintro ⟨more, shape⟩
    have unknown : first.getLast nonempty ∈ unknownTokens start word := by
      rw [shape]
      exact List.mem_append_left _ (List.getLast_mem nonempty)
    exact known _ (List.getLast?_eq_some_getLast nonempty) (kind_of_mem_unknownTokens unknown)
  rcases List.append_eq_append_iff.mp same with ⟨more, shape, _⟩ | ⟨further, shape, rest⟩
  · exact absurd ⟨more, shape⟩ outside
  · refine ⟨further, ?_, shape, rest⟩
    rintro rfl
    exact outside ⟨[], by rw [shape, List.append_nil, List.append_nil]⟩

section Cut

variable {matcher : Matcher} (steady : matcher.IsSteady) (longest : matcher.IsLongest)

include steady longest

/-- A word that is found in front of more text is found where the text is cut behind it. -/
theorem Matcher.Reads.word_of_append {position : Nat} {opened : List TokenKind} {kind : TokenKind}
    {word front rest : Text} {tokens : List Token}
    (reads : matcher.Reads (position + word.bytes) (bracketsBehind kind opened) front tokens)
    (nonempty : word ≠ []) (found : matcher (word ++ (front ++ rest)) = ⟨some kind, word.length⟩)
    (single : kind = .closeDoubleSquareBracket → ∀ outer, opened ≠ .openSquareBracket :: outer) :
    matcher.Reads position opened (word ++ front)
      (⟨finalKind kind word, position, word.bytes⟩ :: tokens) := by
  rw [← List.append_assoc] at found
  have more : word ++ front ≠ [] := List.append_ne_nil_of_left_ne_nil nonempty front
  have same := longest.eq_of_append steady more (by rw [found]) (by rw [found]; simp)
  exact .word nonempty (same.trans found) single reads

/-- The first half of a `]]` that closes a single bracket closes it too where the text is cut behind
it. -/
theorem Matcher.Reads.half {position : Nat} {outer : List TokenKind} {front rest : Text}
    {tokens : List Token} (reads : matcher.Reads (position + 1) outer front tokens)
    (found : matcher ([']'] ++ (front ++ rest)) = ⟨some .closeDoubleSquareBracket, 2⟩) :
    matcher.Reads position (.openSquareBracket :: outer) ([']'] ++ front)
      (⟨.closeSquareBracket, position, 1⟩ :: tokens) := by
  cases front with
  | nil =>
    have rule : (.closeSquareBracket, .literal [']']) ∈ tokenRules := by simp [tokenRules]
    have alone : matcher ([']'] ++ []) = ⟨some .closeSquareBracket, 1⟩ :=
      longest.eq_of_matches steady rule ((Pattern.accepts_iff _ _).mp rfl)
    exact .word (List.cons_ne_nil _ _) alone (fun double => absurd double (by decide)) reads
  | cons c front =>
    rw [← List.append_assoc] at found
    have double := steady.double ([']'] ++ c :: front ++ rest) (by rw [found])
    rw [found] at double
    obtain rfl : c = ']' := (List.cons.inj (List.cons.inj double).2).1
    have more : [']'] ++ ']' :: front ≠ [] := List.cons_ne_nil _ _
    have same := longest.eq_of_append steady more (by rw [found])
      (by rw [found]; exact Nat.le_add_left 2 _)
    exact .split (same.trans found) reads

variable (keeps : matcher.KeepsErrors)

include keeps

/-- **Behind a known token a text may be cut**: what was given up to there is given by the front
alone, and the rest by what is behind it, inside the square brackets that are open. -/
theorem Matcher.Reads.cut {position : Nat} {opened : List TokenKind} {front rest : Text}
    {first others : List Token}
    (reads : matcher.Reads position opened (front ++ rest) (first ++ others))
    (tiles : Tiles position front first) (known : EndsKnown first) :
    matcher.Reads position opened front first
      ∧ matcher.Reads (position + front.bytes) (openedBehind opened (first.map (·.kind))) rest
        others := by
  induction size : front.length using Nat.strongRecOn generalizing position opened front first with
  | _ size previous =>
    subst size
    cases first with
    | nil =>
      cases tiles
      exact ⟨.done, reads⟩
    | cons token first =>
      have stays := keeps ⟨[], front ++ rest, position, [], opened⟩ front rest _ others rfl rfl
        (reads.yields rfl rfl rfl rfl) tiles
      generalize whole : front ++ rest = text at reads
      generalize all : token :: first ++ others = tokens at reads
      cases reads with
      | done => cases all
      | @unknown _ _ word left tokens nonempty found further =>
        obtain ⟨behind, more, shape, rfl⟩ := known.exists_behind (List.cons_ne_nil _ _) all
        rw [shape] at tiles known ⊢
        obtain ⟨passed, front, rfl, inWord, inFront⟩ := tiles.exists_cut
        rw [List.append_assoc] at whole
        obtain ⟨rfl, rfl⟩ := Text.append_inj whole (inWord.bytes_eq (tiles_unknown position word))
        have length : passed.length < (passed ++ front).length := by
          rw [List.length_append]
          exact Nat.lt_add_of_pos_right (List.length_pos_iff.mpr (mt inFront.nil_iff.mp more))
        obtain ⟨inside, outside⟩ := previous _ (length_lt_append nonempty front) further inFront
          known.of_append rfl
        rw [← List.append_assoc] at found
        have same := stays (by rw [found]) (by rw [found]; exact length)
        refine ⟨.unknown nonempty (same.trans found) inside, ?_⟩
        rwa [Text.bytes_append, ← Nat.add_assoc, List.map_append, openedBehind_append,
          openedBehind_unknownTokens]
      | @word _ _ kind word left tokens nonempty found single further =>
        obtain ⟨rfl, rfl⟩ := List.cons.inj all
        cases tiles with
        | @cons _ _ passed front _ begins length filled _ inFront =>
          rw [List.append_assoc] at whole
          obtain ⟨rfl, rfl⟩ := Text.append_inj whole length.symm
          obtain ⟨inside, outside⟩ := previous _ (length_lt_append nonempty front) further inFront
            (@EndsKnown.of_append [_] _ known) rfl
          refine ⟨inside.word_of_append steady longest nonempty found single, ?_⟩
          rwa [Text.bytes_append, ← Nat.add_assoc, List.map_cons, openedBehind_cons,
            bracketsBehind_finalKind]
      | @split _ outer left tokens found further =>
        obtain ⟨rfl, rfl⟩ := List.cons.inj all
        cases tiles with
        | @cons _ _ passed front _ begins length filled _ inFront =>
          rw [List.append_assoc] at whole
          have half : ']' :: ']' :: left = [']'] ++ (']' :: left) := rfl
          rw [half] at whole
          obtain ⟨rfl, behind⟩ := Text.append_inj whole length.symm
          rw [← behind] at further
          obtain ⟨inside, outside⟩ := previous _ (Nat.lt_succ_self _) further inFront
            (@EndsKnown.of_append [_] _ known) rfl
          rw [half, ← behind] at found
          refine ⟨inside.half steady longest found, ?_⟩
          rwa [Text.bytes_append, ← Nat.add_assoc]

end Cut

/-! ### Windows -/

/-- The tokens of windows stand by themselves: `gives text start length` are the tokens of the
`length` bytes of a text from `start` on. -/
structure Relexes (gives : Text → (start length : Nat) → List Token → Prop) : Prop where
  unique : ∀ text start length tokens others, gives text start length tokens →
    gives text start length others → tokens = others
  /-- The tokens of a window are those of its text, moved on. -/
  moved : ∀ text window start length, text.slice? start (start + length) = some window →
    ∃ tokens, gives window 0 window.bytes tokens
      ∧ gives text start length (tokens.map (·.shift start))
  /-- Where a known token ends and no square bracket is open, the tokens in front and those behind
  are the tokens of two windows. -/
  cut : ∀ text front back, gives text 0 text.bytes (front ++ back) → EndsKnown front →
    openedBehind [] (front.map (·.kind)) = [] →
    gives text 0 (endOf 0 front) front
      ∧ gives text (endOf 0 front) (text.bytes - endOf 0 front) back

theorem slice?_whole (text : Text) : text.slice? 0 (0 + text.bytes) = some text := by
  have whole := Text.slice?_middle [] text []
  rwa [List.nil_append, List.append_nil] at whole

section Windows

variable {matcher : Matcher} (steady : matcher.IsSteady)

include steady

/-- The tokens of a window as findings of the matcher. -/
theorem Matcher.IsSteady.tokenizes_iff {text window : Text} {start length : Nat}
    (inside : text.slice? start (start + length) = some window) {tokens : List Token} :
    matcher.Tokenizes text start length tokens ↔ matcher.Reads start [] window tokens := by
  have findings : (Stream.ofWindow start window).Yields matcher tokens
      ↔ matcher.Reads start [] window tokens := steady.yields_iff rfl
  rw [← findings]
  constructor
  · rintro ⟨other, again, yields⟩
    obtain rfl := Option.some.inj (inside.symm.trans again)
    exact yields
  · exact fun yields => ⟨window, inside, yields⟩

/-- **Windows stand by themselves**, for a matcher that finds the longest words and keeps its
errors. -/
theorem Matcher.IsSteady.relexes (longest : matcher.IsLongest) (keeps : matcher.KeepsErrors) :
    Relexes matcher.Tokenizes where
  unique text start length tokens others := by
    rintro ⟨window, inside, yields⟩ ⟨other, again, yieldsToo⟩
    obtain rfl := Option.some.inj (inside.symm.trans again)
    exact yields.unique yieldsToo
  moved text window start length inside := by
    obtain ⟨tokens, reads⟩ := steady.exists_reads 0 [] window
    refine ⟨tokens, (steady.tokenizes_iff (slice?_whole window)).mpr reads, ?_⟩
    have further := reads.shift start
    rw [Nat.zero_add] at further
    exact (steady.tokenizes_iff inside).mpr further
  cut text front back given known closed := by
    have reads := (steady.tokenizes_iff (slice?_whole text)).mp given
    obtain ⟨before, behind, rfl, inFront, inBack⟩ := (reads.tiles steady).exists_cut
    obtain ⟨first, second⟩ := reads.cut steady longest keeps inFront known
    rw [closed, Nat.zero_add] at second
    have last : endOf 0 front = 0 + before.bytes := inFront.endOf
    have frontSlice := Text.slice?_middle [] before behind
    have backSlice := Text.slice?_middle before behind []
    rw [List.append_nil] at backSlice
    rw [last, Nat.zero_add, Text.bytes_append, Nat.add_sub_cancel_left]
    exact ⟨(steady.tokenizes_iff frontSlice).mpr first, (steady.tokenizes_iff backSlice).mpr second⟩

end Windows

/-- **The errors of the rules do not depend on what stands behind them.** -/
theorem longestRule_keepsErrors : longestRule.KeepsErrors := by
  intro stream text others front back _ left _ _ unknown short
  rw [left] at unknown short ⊢
  cases found : (scan tokenRules (text ++ others)).longest with
  | some result =>
    simp only [longestRule, found] at unknown
    cases unknown
  | none =>
    simp only [longestRule, found, scan_longest_none_of_append found] at short ⊢
    have reached := @scan_reach_of_append tokenRules text others
    congr 1
    omega

end Lexer

open Lexer

/-- **The tokens of a window are those of its text, and a text may be cut behind a token where no
square bracket is open**, for any matcher that finds the longest words and keeps its errors, and so
for the rules. -/
theorem relexes_windows :
    (∀ matcher : Matcher, matcher.IsSteady → matcher.IsLongest → matcher.KeepsErrors →
      Relexes matcher.Tokenizes)
    ∧ longestRule.IsSteady ∧ longestRule.IsLongest ∧ longestRule.KeepsErrors
    ∧ Relexes WindowTokens := by
  refine ⟨fun matcher steady => steady.relexes, longestRule_isSteady, longestRule_isLongest,
    longestRule_keepsErrors, ?_⟩
  rw [windowTokens_eq]
  exact longestRule_isSteady.relexes longestRule_isLongest longestRule_keepsErrors

/-- Behind a `]]` that closes two single brackets. -/
theorem relexes_windows_nested :
    WindowTokens "a[b[1]]+".toList 0 7
      [ ⟨.identifier, 0, 1⟩, ⟨.openSquareBracket, 1, 1⟩, ⟨.identifier, 2, 1⟩,
        ⟨.openSquareBracket, 3, 1⟩, ⟨.number, 4, 1⟩, ⟨.closeSquareBracket, 5, 1⟩,
        ⟨.closeSquareBracket, 6, 1⟩ ]
    ∧ WindowTokens "a[b[1]]+".toList 7 1 [⟨.operator, 7, 1⟩] :=
  relexes_windows.2.2.2.2.cut "a[b[1]]+".toList
    [ ⟨.identifier, 0, 1⟩, ⟨.openSquareBracket, 1, 1⟩, ⟨.identifier, 2, 1⟩,
      ⟨.openSquareBracket, 3, 1⟩, ⟨.number, 4, 1⟩, ⟨.closeSquareBracket, 5, 1⟩,
      ⟨.closeSquareBracket, 6, 1⟩ ] [⟨.operator, 7, 1⟩]
    ⟨lexemes "a[b[1]]+".toList, rfl, by decide⟩ (by simp [EndsKnown]) rfl

end RSource
