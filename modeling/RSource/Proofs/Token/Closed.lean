/-
**A text that ends with a bracket or a blank is cut alike in front of a line break.**

A word goes on over the end of a line only inside quotes, or is a line break itself
(`exists_of_word_over_lineEnd`). A text whose last piece is a closing bracket, a blank or a comment
does not end inside such a word, so no step of the lexer takes more than the text when a line break
follows it (`step_count_le_of_closed`). Main statement: `lexemes_append_lineBreak`, the lexemes of
two texts with a line break between them.
-/

import RSource.Proofs.Token.Unknown

namespace RSource

open Pattern TokenRules

namespace Pattern

/-! ### Behind a quote -/

/-- What stands between two quotes where a backslash takes the next character with it. -/
abbrev escaped (ordinary : Char → Bool) : Pattern :=
  .star (.alt (.char ordinary) (sequence [literal ['\\'], .char fun _ => true]))

theorem matches_star_char {test : Char → Bool} {text : Text} (all : ∀ c ∈ text, test c = true) :
    Matches (.star (.char test)) text := by
  induction text with
  | nil => exact .done
  | cons c text previous =>
    rw [List.forall_mem_cons] at all
    exact @Matches.more _ [c] text (.char all.1) (previous all.2)

/-- The second quote may be missing. -/
theorem matches_unclosed {quote : Char} {inside : Pattern} {body : Text}
    (matched : Matches inside body) :
    Matches (sequence [literal [quote], inside, optional (literal [quote])]) (quote :: body) := by
  have opening : Matches (literal [quote]) ([quote] ++ []) :=
    matches_join_iff.mpr (.seq (.char (by simp)) .empty)
  refine matches_sequence_cons_iff.mpr ⟨[quote], body, rfl, opening, ?_⟩
  exact matches_sequence_cons_iff.mpr ⟨body, [], (List.append_nil body).symm, matched,
    matches_sequence_singleton_iff.mpr (.right .empty)⟩

/-- What stands behind a quote in front of another character is in front of the second quote. -/
theorem exists_front_of_unclosed {quote c : Char} {inside : Pattern} {text more : Text}
    (nonempty : text ≠ []) (other : c ≠ quote)
    (matched : Matches (sequence [literal [quote], inside, optional (literal [quote])])
      (text ++ c :: more)) :
    ∃ front back, text = quote :: front ∧ Matches inside (front ++ back) := by
  obtain ⟨first, further, whole, opening, behind⟩ := matches_sequence_cons_iff.mp matched
  obtain ⟨body, tail, rfl, matchedBody, closing⟩ := matches_sequence_cons_iff.mp behind
  obtain ⟨d, front, rfl⟩ := List.exists_cons_of_ne_nil nonempty
  rw [eq_of_matches_literal opening, List.cons_append, List.cons_append] at whole
  obtain ⟨rfl, same⟩ := List.cons.inj whole
  refine ⟨front, ?_⟩
  rw [List.nil_append] at same
  rcases List.append_eq_append_iff.mp same with ⟨back, rfl, _⟩ | ⟨back, rfl, shape⟩
  · exact ⟨back, rfl, matchedBody⟩
  -- otherwise the second quote stands where `c` does
  rcases matches_alt_iff.mp (matches_sequence_singleton_iff.mp closing) with closed | none
  · rw [eq_of_matches_literal closed] at shape
    cases back with
    | nil => exact absurd (List.cons.inj shape).1.symm other
    | cons e back => simp at shape
  · rw [matches_empty_iff.mp none] at shape
    simp at shape

/-- A front of what stands between two quotes may stand there itself, but for a backslash at its
end. -/
theorem exists_of_matches_escaped {ordinary : Char → Bool} {front back : Text}
    (matched : Matches (escaped ordinary) (front ++ back)) :
    ∃ body tail, front = body ++ tail ∧ (tail = [] ∨ tail = ['\\'])
      ∧ Matches (escaped ordinary) body := by
  induction size : front.length using Nat.strongRecOn generalizing front with
  | _ size previous =>
    subst size
    cases front with
    | nil => exact ⟨[], [], rfl, .inl rfl, .done⟩
    | cons c front =>
      obtain ⟨left, right, whole, round, others⟩ := exists_round_of_matches_star matched
      rcases matches_alt_iff.mp round with plain | pair
      · cases plain with
        | char accepted =>
          obtain rfl : right = front ++ back := whole.symm
          obtain ⟨body, tail, rfl, ends, inside⟩ :=
            previous front.length (Nat.lt_succ_self _) others rfl
          exact ⟨c :: body, tail, rfl, ends, @Matches.more _ [c] body round inside⟩
      · obtain ⟨slash, rest, shape, isSlash, any⟩ := matches_sequence_cons_iff.mp pair
        rw [eq_of_matches_literal isSlash] at shape
        obtain ⟨rfl, rfl⟩ := List.cons.inj shape
        cases front with
        | nil => exact ⟨[], ['\\'], rfl, .inr rfl, .done⟩
        | cons d front =>
          cases matches_sequence_singleton_iff.mp any with
          | char _ =>
            obtain ⟨rfl, same⟩ := List.cons.inj whole
            obtain rfl : right = front ++ back := same.symm
            have shorter : front.length < ('\\' :: d :: front).length := by
              rw [List.length_cons, List.length_cons]
              omega
            obtain ⟨body, tail, rfl, ends, inside⟩ := previous front.length shorter others rfl
            exact ⟨'\\' :: d :: body, tail, rfl, ends, @Matches.more _ ['\\', d] body round inside⟩

end Pattern

namespace Lexer

/-! ### Words over the end of a line -/

/-- The characters that begin a word which may go on behind the end of a line. -/
def lineCrossing : List Char := ['\r', '`', '"', '\'']

/-- The rules that stand for a word with the end of a line in it. -/
theorem rule_of_lineEnd {rule : TokenKind × Pattern} (member : rule ∈ tokenRules) {c : Char}
    (ends : isLineEnd c = true) (held : rule.2.holds c = true) :
    rule = (.lineBreak, lineBreak) ∨ rule = (.identifier, identifier)
      ∨ rule = (.string, string) := by
  have isEnd : c = '\n' ∨ c = '\r' := by simpa [isLineEnd] using ends
  simp only [tokenRules, List.mem_cons, List.not_mem_nil, or_false] at member
  rcases member with rfl | rfl | rfl | rfl | rfl | rfl | rfl | rfl | rfl | rfl | rfl | rfl | rfl
    | rfl | rfl | rfl | rfl <;>
  first
  | exact .inl rfl
  | exact .inr (.inl rfl)
  | exact .inr (.inr rfl)
  | rcases isEnd with rfl | rfl <;> exact absurd held (by decide)

/-- **What a word over the end of a line has in front of it** is a word of the same rule, but for a
backslash behind it. -/
theorem exists_of_word_over_lineEnd {rule : TokenKind × Pattern} (member : rule ∈ tokenRules)
    {text more : Text} {c : Char} (nonempty : text ≠ []) (ends : isLineEnd c = true)
    (matched : Matches rule.2 (text ++ c :: more)) :
    ∃ first ∈ lineCrossing, ∃ body tail, text = first :: (body ++ tail)
      ∧ (tail = [] ∨ tail = ['\\']) ∧ Matches rule.2 (first :: body) := by
  have inside : c ∈ text ++ c :: more := List.mem_append_right _ List.mem_cons_self
  have isEnd : c = '\n' ∨ c = '\r' := by simpa [isLineEnd] using ends
  have other {quote : Char} (isQuote : quote ∈ ['`', '"', '\'']) : c ≠ quote := by
    rintro rfl
    rcases isEnd with rfl | rfl <;> exact absurd isQuote (by decide)
  rcases rule_of_lineEnd member ends (holds_of_matches matched inside) with rfl | rfl | rfl
  · obtain ⟨choice, listed, matched⟩ := matches_oneOf_iff.mp matched
    simp only [List.mem_cons, List.not_mem_nil, or_false] at listed
    obtain ⟨d, front, rfl⟩ := List.exists_cons_of_ne_nil nonempty
    rcases listed with rfl | rfl | rfl
    · obtain ⟨rfl, same⟩ := List.cons.inj (eq_of_matches_literal matched)
      cases front with
      | nil => exact ⟨'\r', by decide, [], [], rfl, .inl rfl, (accepts_iff _ _).mp (by decide)⟩
      | cons e front => simp at same
    · simpa using eq_of_matches_literal matched
    · simpa using eq_of_matches_literal matched
  · obtain ⟨choice, listed, matched⟩ := matches_oneOf_iff.mp matched
    have held : choice.holds c = true := holds_of_matches matched inside
    simp only [List.mem_cons, List.not_mem_nil, or_false] at listed
    rcases listed with rfl | rfl | rfl | rfl
    iterate 3 rcases isEnd with rfl | rfl <;> exact absurd held (by decide)
    obtain ⟨front, back, rfl, behind⟩ :=
      exists_front_of_unclosed nonempty (other List.mem_cons_self) matched
    have body : Matches (.star (.char (· != '`'))) front :=
      matches_star_char fun d inFront => holds_of_matches behind (List.mem_append_left _ inFront)
    refine ⟨'`', by decide, front, [], by rw [List.append_nil], .inl rfl, ?_⟩
    exact matches_oneOf_iff.mpr ⟨_, by simp, matches_unclosed body⟩
  · obtain ⟨choice, listed, matched⟩ := matches_oneOf_iff.mp matched
    obtain ⟨quote, isQuote, rfl⟩ : ∃ quote ∈ ['"', '\''], choice = quoted quote := by
      rcases List.mem_pair.mp listed with rfl | rfl
      · exact ⟨'"', by decide, rfl⟩
      · exact ⟨'\'', by decide, rfl⟩
    obtain ⟨front, back, rfl, behind⟩ :=
      exists_front_of_unclosed nonempty (other (List.mem_cons_of_mem _ isQuote)) matched
    obtain ⟨body, tail, rfl, closed, matchedBody⟩ := exists_of_matches_escaped behind
    refine ⟨quote, List.mem_cons_of_mem _ (List.mem_cons_of_mem _ isQuote), body, tail, rfl, closed,
      ?_⟩
    exact matches_oneOf_iff.mpr ⟨quoted quote, listed, matches_unclosed matchedBody⟩

/-! ### Closed texts -/

/-- Whether a text may end behind a piece of this kind without being in the middle of a word. -/
def closes (kind : TokenKind) : Bool := kind.isClosing || kind.isTrivia

/-- Pieces behind the last of which no word goes on. -/
def AreClosed (list : List Piece) : Prop := ∀ piece ∈ list.getLast?, closes piece.1 = true

theorem AreClosed.of_append {front back : List Piece} (closed : AreClosed (front ++ back)) :
    AreClosed back := by
  intro piece last
  refine closed piece ?_
  rw [List.getLast?_append, last]
  rfl

/-- A step takes what the matcher finds, unless it is a `]]` in a single bracket. -/
theorem step_of_found {opened : List TokenKind} {text : Text} {kind : TokenKind}
    (found : (longestRule text).kind = some kind)
    (whole : kind = .closeDoubleSquareBracket → ∀ outer, opened ≠ .openSquareBracket :: outer) :
    step opened text = ⟨[(finalKind kind (text.take (longestRule text).count),
      text.take (longestRule text).count)], bracketsBehind kind opened,
      (text.take (longestRule text).count).length⟩ := by
  unfold longestRule at found ⊢
  unfold step
  split at found
  · rename_i scanned
    cases found
    simp only [scanned]
    exact settle_whole _ whole
  · cases found

/-- The kinds of the words that may go on behind the end of a line. -/
theorem closes_finalKind {c : Char} (crossing : c ∈ lineCrossing) {kind : TokenKind}
    (listed : kind ∈ kindsOf c) (word : Text) : closes (finalKind kind word) = false := by
  have kinds : lineCrossing.all (fun c => (kindsOf c).all
      ([TokenKind.lineBreak, .identifier, .string].contains ·)) = true := by decide
  have one := List.all_eq_true.mp (List.all_eq_true.mp kinds c crossing) kind listed
  simp only [List.contains_iff_mem, List.mem_cons, List.not_mem_nil, or_false] at one
  rcases one with rfl | rfl | rfl
  · rfl
  · exact classifyWord_of_reserved (closes · = false) rfl (by decide) word
  · rfl

/-- Where a word may go on behind the end of a line, a step takes at least its front. -/
theorem exists_step_of_crossing (opened : List TokenKind) {rule : TokenKind × Pattern}
    (member : rule ∈ tokenRules) {first : Char} (crossing : first ∈ lineCrossing)
    {body : Text} (matched : Matches rule.2 (first :: body)) (tail : Text) :
    ∃ kind word left after, first :: (body ++ tail) = word ++ left
      ∧ (first :: body).length ≤ word.length
      ∧ step opened (first :: (body ++ tail)) = ⟨[(kind, word)], after, word.length⟩
      ∧ closes kind = false := by
  generalize shape : first :: (body ++ tail) = text
  have more : text ≠ [] := shape ▸ List.cons_ne_nil _ _
  obtain ⟨some, most⟩ := longestRule_isLongest.longest text (first :: body)
    ⟨tail, shape⟩ ⟨rule, member, matched⟩
  obtain ⟨kind, found⟩ := Option.ne_none_iff_exists'.mp some
  have listed : kind ∈ kindsOf first := by
    obtain ⟨own, also, rfl, matchedOwn⟩ := longestRule_isLongest.word _ _ found
    have positive := longestRule_isSteady.positive text more
    obtain ⟨count, same⟩ := Nat.exists_eq_succ_of_ne_zero (Nat.ne_of_gt positive)
    rw [same, ← shape, Nat.succ_eq_add_one, List.take_succ_cons] at matchedOwn
    exact mem_kindsOf also matchedOwn
  have noBracket : kind ≠ .closeDoubleSquareBracket := by
    rintro rfl
    exact absurd (closes_finalKind crossing listed []) (by decide)
  refine ⟨_, _, _, _, (List.take_append_drop (longestRule text).count text).symm, ?_,
    step_of_found found fun double => absurd double noBracket, closes_finalKind crossing listed _⟩
  rwa [List.length_take, Nat.min_eq_left (longestRule_isSteady.within text more)]

/-- **A text that is the front of a longer word does not end with a bracket or a blank.** -/
theorem not_areClosed (opened : List TokenKind) {rule : TokenKind × Pattern}
    (member : rule ∈ tokenRules) {first : Char} (crossing : first ∈ lineCrossing)
    {body tail : Text} (matched : Matches rule.2 (first :: body))
    (slash : tail = [] ∨ tail = ['\\']) :
    ¬ AreClosed (pieces (first :: (body ++ tail)) opened (first :: (body ++ tail))) := by
  obtain ⟨kind, word, left, after, whole, long, stepped, inside⟩ :=
    exists_step_of_crossing opened member crossing matched tail
  have suffix : left <:+ tail := by
    have same : first :: body ++ tail = word ++ left := whole
    have lengths := congrArg List.length same
    rw [List.length_append, List.length_append] at lengths
    have behindWord : left <:+ word ++ left := List.suffix_append _ _
    have behindFront : tail <:+ word ++ left := same ▸ List.suffix_append _ _
    exact List.suffix_of_suffix_length_le behindWord behindFront (by omega)
  rw [whole] at stepped ⊢
  have nonempty : word ≠ [] := by
    rintro rfl
    exact absurd long (by simp)
  rw [(Runs.of_step nonempty stepped).pieces]
  intro closed
  have only : left = [] ∨ left = ['\\'] := by
    rcases slash with rfl | rfl
    · exact .inl (List.suffix_nil.mp suffix)
    · exact (List.suffix_cons_iff.mp suffix).symm.imp List.suffix_nil.mp id
  rcases only with rfl | rfl
  · rw [closed (kind, word) rfl] at inside
    cases inside
  · cases closed (.unknown, ['\\']) rfl

/-- A step takes no more than the matcher finds. -/
theorem step_count_le_longestRule (opened : List TokenKind) {text : Text} (more : text ≠ []) :
    (step opened text).count ≤ (longestRule text).count := by
  have some : text.take (longestRule text).count ≠ [] :=
    @Matcher.IsSteady.take_ne_nil longestRule (.ofWindow 0 text) longestRule_isSteady more
  cases scanned : (scan tokenRules text).longest with
  | some result =>
    have found : longestRule text = ⟨result.1, result.2⟩ := by simp only [longestRule, scanned]
    rw [found] at some ⊢
    have stepped : step opened text = settle result.1 (text.take result.2) opened := by
      simp only [step, scanned]
    rw [stepped]
    exact Nat.le_trans (settle_count_le _ opened some) (List.length_take_le _ _)
  | none =>
    simp only [step, longestRule, scanned]
    exact Nat.le_refl _

/-- **In front of a line break a step takes no more than a closed text.** -/
theorem step_count_le_of_closed {opened : List TokenKind} {text rest : Text} (more : text ≠ [])
    (ends : ∀ c ∈ rest.head?, isLineEnd c = true) (closed : AreClosed (pieces text opened text)) :
    (step opened (text ++ rest)).count ≤ text.length := by
  have whole : text ++ rest ≠ [] := by simp [more]
  by_contra long
  have crosses : text.length < (longestRule (text ++ rest)).count :=
    Nat.lt_of_lt_of_le (Nat.not_le.mp long) (step_count_le_longestRule opened whole)
  have within := longestRule_isSteady.within _ whole
  have further : rest ≠ [] := by
    rintro rfl
    rw [List.append_nil] at within crosses
    omega
  obtain ⟨c, behind, rfl⟩ := List.exists_cons_of_ne_nil further
  have isEnd := ends c rfl
  -- what the matcher finds has the end of the line in it
  obtain ⟨extra, count⟩ := Nat.exists_eq_add_of_lt crosses
  have front : (text ++ c :: behind).take (longestRule (text ++ c :: behind)).count
      = text ++ c :: behind.take extra := by
    rw [count, Nat.add_assoc, List.take_length_add_append, List.take_succ_cons]
  cases found : (longestRule (text ++ c :: behind)).kind with
  | none =>
    have split : text ++ c :: behind = (text ++ c :: behind.take extra) ++ behind.drop extra := by
      simp
    have length : (text ++ c :: behind.take extra).length
        = (longestRule (text ++ c :: behind)).count := by
      rw [← front, List.length_take, Nat.min_eq_left within]
    have error : longestRule ((text ++ c :: behind.take extra) ++ behind.drop extra)
        = ⟨none, (text ++ c :: behind.take extra).length⟩ := by
      rw [← split, length]
      exact congrArg₂ Finding.mk found rfl
    rcases longestRule_error (by simp) error with ⟨d, _, one⟩ | ⟨line, shape, inside, _⟩
    · have two := congrArg List.length one
      have positive := List.length_pos_iff.mpr more
      rw [List.length_append, List.length_cons, List.length_singleton] at two
      omega
    · obtain ⟨d, others, rfl⟩ := List.exists_cons_of_ne_nil more
      obtain ⟨_, rfl⟩ := List.cons.inj shape
      have onLine := (inside c (List.mem_append_right others List.mem_cons_self)).2
      rw [isEnd] at onLine
      cases onLine
  | some kind =>
    obtain ⟨rule, member, rfl, matched⟩ := longestRule_isLongest.word _ _ found
    rw [front] at matched
    obtain ⟨first, crossing, body, tail, rfl, slash, begun⟩ :=
      exists_of_word_over_lineEnd member more isEnd matched
    exact not_areClosed opened member crossing begun slash closed

/-- **A closed text is cut alike in front of a line break.** -/
theorem Runs.of_closed {opened : List TokenKind} {text rest : Text}
    (ends : ∀ c ∈ rest.head?, isLineEnd c = true)
    (closed : AreClosed (Lexer.pieces text opened text)) :
    ∃ after, Runs opened (text ++ rest) (Lexer.pieces text opened text) after rest := by
  -- Each step takes some of what is left of the text.
  induction size : text.length using Nat.strongRecOn generalizing opened text with
  | _ size previous =>
    subst size
    obtain rfl | more := eq_or_ne text []
    · exact ⟨opened, .done⟩
    have short := step_count_le_of_closed more ends closed
    have same := step_of_append more short
    have taken := step_count_pos opened more
    have unfolded := (Runs.more more .done : Runs opened text _ _ _).pieces
    rw [List.append_nil] at unfolded
    rw [unfolded] at closed ⊢
    have shorter : (text.drop (step opened text).count).length < text.length := by
      have positive := List.length_pos_iff.mpr more
      rw [List.length_drop]
      omega
    obtain ⟨after, run⟩ := previous _ shorter closed.of_append rfl
    refine ⟨after, ?_⟩
    have whole : text ++ rest ≠ [] := by simp [more]
    rw [same, ← List.drop_append_of_le_length short] at run
    rw [same]
    exact .more whole run

/-! ### The line break -/

end Lexer

open Lexer

/-- A line break in front of a text: a carriage return in front of a line feed is half of one. -/
def IsLineBreak (word behind : Text) : Prop :=
  word = ['\n'] ∨ word = ['\r', '\n'] ∨ word = ['\r'] ∧ behind.head? ≠ some '\n'

namespace IsLineBreak

variable {word behind : Text} (breaks : IsLineBreak word behind)

include breaks

theorem isLineEnd_head : ∀ c ∈ (word ++ behind).head?, isLineEnd c = true := by
  rcases breaks with rfl | rfl | ⟨rfl, _⟩ <;>
  · intro c head
    cases head
    rfl

theorem matches_lineBreak : kindOf? tokenRules word = some .lineBreak := by
  rcases breaks with rfl | rfl | ⟨rfl, _⟩ <;> decide

theorem runs (opened : List TokenKind) :
    Runs opened (word ++ behind) [(.lineBreak, word)] opened behind := by
  obtain ⟨c, others, shape, only⟩ :
      ∃ c others, word = c :: others ∧ kindsOf c = [.lineBreak] := by
    rcases breaks with rfl | rfl | ⟨rfl, _⟩ <;> exact ⟨_, _, rfl, by decide⟩
  have longest : ∀ more, more ≠ [] → more <+: behind →
      kindOf? tokenRules (word ++ more) = none := by
    intro more nonempty front
    by_contra found
    obtain ⟨kind, found⟩ := Option.ne_none_iff_exists'.mp found
    obtain ⟨pattern, member, matched⟩ := exists_of_kindOf? found
    obtain rfl : kind = .lineBreak := by
      rw [shape, List.cons_append] at matched
      simpa [only] using mem_kindsOf member matched
    have longer := word_of_lineBreak found
    rcases breaks with rfl | rfl | ⟨rfl, single⟩
    · simp [nonempty] at longer
    · simp [nonempty] at longer
    · obtain rfl : more = ['\n'] := by simpa [nonempty] using longer
      obtain ⟨rest, rfl⟩ := front
      exact single rfl
  exact .of_longest (shape ▸ List.cons_ne_nil _ _) breaks.matches_lineBreak longest rfl

end IsLineBreak

/-- **The lexemes of two texts with a line break between them**, if the first one is closed. -/
theorem lexemes_append_lineBreak {before word behind : Text}
    (balanced : openedBehind [] ((lexemes before).map (·.kind)) = [])
    (closed : ∀ lexeme ∈ (lexemes before).getLast?, closes lexeme.kind = true)
    (breaks : IsLineBreak word behind) :
    lexemes (before ++ word ++ behind)
      = lexemes before ++ ⟨.lineBreak, before.bytes, word⟩
        :: (lexemes behind).map (·.shift (before ++ word).bytes) := by
  have ends : AreClosed (pieces before [] before) := by
    intro piece last
    rw [← map_place 0 (pieces before [] before), List.getLast?_map, Option.mem_def,
      Option.map_eq_some_iff] at last
    obtain ⟨lexeme, last, rfl⟩ := last
    exact closed lexeme last
  obtain ⟨after, run⟩ := Runs.of_closed breaks.isLineEnd_head ends
  obtain rfl : after = [] := by
    rw [lexemes, lexemesFrom, map_kind_place, ← run.opened] at balanced
    exact balanced
  have shape : pieces (before ++ word ++ behind) [] (before ++ word ++ behind)
      = pieces before [] before ++ (.lineBreak, word) :: pieces behind [] behind := by
    rw [List.append_assoc, (run.trans (breaks.runs [])).pieces, List.append_assoc]
    rfl
  rw [lexemes, lexemesFrom, shape, place_append, texts_pieces, place, Nat.add_assoc,
    ← Text.bytes_append, place_shift, Nat.zero_add]
  rfl

end RSource
