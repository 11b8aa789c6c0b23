/-
**The lexer starts anew behind a line break.**

`Runs opened text front after rest` says that some steps of the lexer cut the pieces `front` off a
text, that `rest` is left of it then, and which square brackets are open before and after. The text
behind `rest` may be taken away, if no step has read into it (`Runs.of_append`), so the lexer cuts
the front alone as it does in front of others. A line break is a step of its own
(`exists_runs_of_lineBreak`).

Main statement: `exists_junction`, where a line break ends a text that leaves no square bracket
open, the lexemes of a longer text are those of the two texts on both sides, moved on, with the line
break between them.
-/

import RSource.Proofs.Token.Coverage
import RSource.Proofs.Tree.Shift

namespace RSource

/-- Whether tokens of a kind are square brackets. -/
def TokenKind.isSquareBracket : TokenKind → Bool
  | openSquareBracket | closeSquareBracket | openDoubleSquareBracket
  | closeDoubleSquareBracket => true
  | _ => false

namespace Lexer

/-! ### A scan of the front -/

section Scan

variable {rules : List (TokenKind × Pattern)} {text others : Text}

/-- Where nothing is found, nothing is found in the front. -/
theorem scan_longest_none_of_append (nothing : (scan rules (text ++ others)).longest = none) :
    (scan rules text).longest = none := by
  induction text generalizing rules with
  | nil => rfl
  | cons c rest previous =>
    rw [List.cons_append] at nothing
    unfold scan at nothing ⊢
    simp only at nothing ⊢
    split
    · rfl
    rename_i still
    rw [if_neg still] at nothing
    simp only at nothing
    split at nothing
    · cases nothing
    · rename_i further
      rw [previous further]
      exact nothing

/-- What is found is found in the front, if it ends there. -/
theorem scan_longest_of_append {kind : TokenKind} {count : Nat}
    (found : (scan rules (text ++ others)).longest = some (kind, count))
    (short : count ≤ text.length) : (scan rules text).longest = some (kind, count) := by
  induction text generalizing rules count with
  | nil => exact absurd (scan_longest_pos found) (Nat.not_lt.mpr short)
  | cons c rest previous =>
    rw [List.cons_append] at found
    unfold scan at found ⊢
    simp only at found ⊢
    split at found
    · cases found
    rename_i still
    rw [if_neg still]
    simp only at found ⊢
    split at found
    · rename_i further
      cases found
      rw [previous further (Nat.le_of_succ_le_succ short)]
    · rename_i further
      rw [scan_longest_none_of_append further]
      exact found

/-- The rules fail at the same place in the front, or at its end. -/
theorem scan_reach_of_append :
    (scan rules text).reach = min (scan rules (text ++ others)).reach text.length := by
  induction text generalizing rules with
  | nil => exact (Nat.min_zero _).symm
  | cons c rest previous =>
    rw [List.cons_append]
    unfold scan
    simp only
    split
    · exact (Nat.zero_min _).symm
    · rw [previous, List.length_cons, ← Nat.add_min_add_right]

end Scan

/-! ### A step at the front -/

theorem settle_count_le (kind : TokenKind) (opened : List TokenKind) {word : Text}
    (nonempty : word ≠ []) : (settle kind word opened).count ≤ word.length := by
  have positive := List.length_pos_iff.mpr nonempty
  unfold settle
  split <;> first | exact Nat.le_refl _ | exact positive

/-- A step takes no more than there is. -/
theorem step_count_le (opened : List TokenKind) {text : Text} (more : text ≠ []) :
    (step opened text).count ≤ text.length := by
  unfold step
  simp only
  split
  · rename_i kind count found
    refine Nat.le_trans (settle_count_le _ _ ?_) (List.length_take_le' _ _)
    rw [ne_eq, List.take_eq_nil_iff, not_or]
    exact ⟨Nat.ne_of_gt (scan_longest_pos found), more⟩
  · exact Nat.max_le.mpr ⟨reach_le_length _ _, List.length_pos_iff.mpr more⟩

/-- **A step that ends in the front is a step of the front.** -/
theorem step_of_append {opened : List TokenKind} {text others : Text} (more : text ≠ [])
    (short : (step opened (text ++ others)).count ≤ text.length) :
    step opened text = step opened (text ++ others) := by
  have positive := List.length_pos_iff.mpr more
  have whole : text ++ others ≠ [] := by simp [more]
  cases found : (scan tokenRules (text ++ others)).longest with
  | none =>
    have reached : max (scan tokenRules (text ++ others)).reach 1 ≤ text.length := by
      rw [step, found] at short
      exact short
    have same : (scan tokenRules text).reach = (scan tokenRules (text ++ others)).reach := by
      rw [@scan_reach_of_append _ text others]
      omega
    simp only [step, found, scan_longest_none_of_append found, same,
      List.take_append_of_le_length reached]
  | some result =>
    obtain ⟨kind, count⟩ := result
    by_cases fits : count ≤ text.length
    · simp only [step, found, scan_longest_of_append found fits,
        List.take_append_of_le_length fits]
    -- Only the first half of a `]]` is shorter than the word that was found.
    have within := (kindOf?_of_scan_longest found).1
    have stepped :
        step opened (text ++ others) = settle kind ((text ++ others).take count) opened := by
      simp only [step, found]
    rw [stepped] at short ⊢
    by_cases split : kind = .closeDoubleSquareBracket
        ∧ ∃ outer, opened = .openSquareBracket :: outer
    · obtain ⟨rfl, outer, rfl⟩ := split
      have double : (text ++ others).take count = [']', ']'] := by
        have found : longestRule (text ++ others) = ⟨some .closeDoubleSquareBracket, count⟩ := by
          simp only [longestRule, found]
        have front := longestRule_isSteady.double (text ++ others) (by rw [found])
        rwa [found] at front
      have two : count = 2 := by
        have length := congrArg List.length double
        rw [List.length_take, Nat.min_eq_left within] at length
        exact length
      obtain ⟨c, rfl⟩ := List.length_eq_one_iff.mp (show text.length = 1 by omega)
      obtain rfl : c = ']' := by
        subst two
        exact (List.cons.inj double).1
      rw [double]
      rfl
    · rw [not_and, not_exists] at split
      rw [settle_whole _ split, List.length_take, Nat.min_eq_left within] at short
      exact absurd short fits

/-! ### Runs -/

/-- Some steps of the lexer, from a text to what is left of it. -/
inductive Runs : (opened : List TokenKind) → Text → (front : List Piece) →
    (after : List TokenKind) → (rest : Text) → Prop where
  | done {opened : List TokenKind} {rest : Text} : Runs opened rest [] opened rest
  | more {opened after : List TokenKind} {text rest : Text} {front : List Piece} :
      text ≠ [] →
      Runs (step opened text).opened (text.drop (step opened text).count) front after rest →
      Runs opened text ((step opened text).pieces ++ front) after rest

section Runs

variable {opened after : List TokenKind} {text rest : Text} {front : List Piece}

theorem Runs.eq_append (run : Runs opened text front after rest) : text = texts front ++ rest := by
  induction run with
  | done => rfl
  | more nonempty _ previous =>
    rw [texts_append, texts_step _ nonempty, List.append_assoc, ← previous,
      List.take_append_drop]

theorem Runs.trans {last : List TokenKind} {others : Text} {back : List Piece}
    (run : Runs opened text front after rest) (further : Runs after rest back last others) :
    Runs opened text (front ++ back) last others := by
  induction run with
  | done => exact further
  | more nonempty _ previous =>
    rw [List.append_assoc]
    exact .more nonempty (previous further)

/-- One piece is a run. -/
theorem Runs.of_step {piece : Piece} {word : Text} (nonempty : word ≠ [])
    (stepped : step opened (word ++ rest) = ⟨[piece], after, word.length⟩) :
    Runs opened (word ++ rest) [piece] after rest := by
  have run : Runs opened (word ++ rest) _ _ _ := .more (by simp [nonempty]) .done
  rwa [stepped, List.drop_left] at run

/-- The longest word at the front of a text is a run, if it stays one piece. -/
theorem Runs.of_longest {kind : TokenKind} {piece : Piece} {word : Text} (nonempty : word ≠ [])
    (found : kindOf? tokenRules word = some kind)
    (longest : ∀ more, more ≠ [] → more <+: rest → kindOf? tokenRules (word ++ more) = none)
    (settled : settle kind word opened = ⟨[piece], after, word.length⟩) :
    Runs opened (word ++ rest) [piece] after rest :=
  .of_step nonempty ((step_longest opened nonempty found longest).trans settled)

/-- What bounds the number of steps does not matter, if it is long enough. -/
theorem pieces_congr {bound other : Text} (enough : text.length ≤ bound.length)
    (enough' : text.length ≤ other.length) :
    pieces bound opened text = pieces other opened text := by
  induction bound generalizing other opened text with
  | nil =>
    obtain rfl := List.eq_nil_of_length_eq_zero (Nat.le_zero.mp enough)
    cases other <;> rfl
  | cons c bound previous =>
    obtain rfl | more := eq_or_ne text []
    · cases other <;> rfl
    have positive := List.length_pos_iff.mpr more
    obtain ⟨d, other, rfl⟩ := List.exists_cons_of_ne_nil
      (List.length_pos_iff.mp (Nat.lt_of_lt_of_le positive enough'))
    have taken := step_count_pos opened more
    rw [List.length_cons] at enough enough'
    rw [pieces_of_ne_nil _ more, pieces_of_ne_nil _ more, previous] <;>
      rw [List.length_drop] <;> omega

/-- The pieces of a text begin with those of a run. -/
theorem Runs.pieces (run : Runs opened text front after rest) :
    Lexer.pieces text opened text = front ++ Lexer.pieces rest after rest := by
  induction run with
  | done => rfl
  | @more opened after text rest front nonempty _ previous =>
    obtain ⟨c, others, shape⟩ := List.exists_cons_of_ne_nil nonempty
    rw [List.append_assoc, ← previous]
    conv_lhs => rw [show Lexer.pieces text = Lexer.pieces (c :: others) by rw [shape]]
    rw [pieces_of_ne_nil _ nonempty]
    congr 1
    have taken := step_count_pos opened nonempty
    have length : text.length = others.length + 1 := by rw [shape, List.length_cons]
    refine pieces_congr ?_ (Nat.le_refl _)
    rw [List.length_drop]
    omega

/-- **What a run has not read may be taken away.** -/
theorem Runs.of_append {others : Text}
    (run : Runs opened (text ++ others) front after (rest ++ others)) :
    Runs opened text front after rest := by
  generalize whole : text ++ others = long at run
  generalize left : rest ++ others = short at run
  induction run generalizing text with
  | done =>
    obtain rfl : text = rest := List.append_cancel_right (whole.trans left.symm)
    exact .done
  | @more opened after long short front nonempty further previous =>
    subst whole left
    have taken := step_count_pos opened nonempty
    have bounded := step_count_le opened nonempty
    have length := congrArg List.length further.eq_append
    rw [List.length_drop, List.length_append, List.length_append, List.length_append] at length
    rw [List.length_append] at bounded
    have short : (step opened (text ++ others)).count ≤ text.length := by omega
    have more : text ≠ [] := by
      rintro rfl
      exact absurd short (Nat.not_le.mpr taken)
    have same := step_of_append more short
    rw [List.drop_append_of_le_length short] at further
    have next := previous (List.drop_append_of_le_length short).symm rfl
    rw [← same] at next ⊢
    exact .more more next

end Runs

/-! ### Line breaks -/

/-- What a line break may be. -/
theorem word_of_lineBreak {word : Text} (found : kindOf? tokenRules word = some .lineBreak) :
    word = ['\r', '\n'] ∨ word = ['\n'] ∨ word = ['\r'] := by
  obtain ⟨pattern, rule, matched⟩ := exists_of_kindOf? found
  have shape : pattern = TokenRules.lineBreak := by
    simp only [tokenRules, List.mem_cons, List.not_mem_nil, or_false, Prod.mk.injEq, reduceCtorEq,
      false_and, false_or, true_and] at rule
    exact rule
  rw [shape, TokenRules.lineBreak, Pattern.matches_oneOf_iff] at matched
  obtain ⟨choice, member, matched⟩ := matched
  simp only [List.mem_cons, List.not_mem_nil, or_false] at member
  rcases member with rfl | rfl | rfl
  · exact .inl (Pattern.eq_of_matches_literal matched)
  · exact .inr (.inl (Pattern.eq_of_matches_literal matched))
  · exact .inr (.inr (Pattern.eq_of_matches_literal matched))

theorem step_of_lineBreak {opened : List TokenKind} {text word : Text}
    (member : (.lineBreak, word) ∈ (step opened text).pieces) :
    ∃ rest, text = word ++ rest ∧ kindOf? tokenRules word = some .lineBreak
      ∧ step opened text = ⟨[(.lineBreak, word)], opened, word.length⟩ := by
  cases found : (scan tokenRules text).longest with
  | none =>
    simp only [step, found, List.mem_map, Prod.mk.injEq] at member
    obtain ⟨c, _, unknown, _⟩ := member
    cases unknown
  | some result =>
    obtain ⟨kind, count⟩ := result
    obtain ⟨_, front⟩ := kindOf?_of_scan_longest found
    have stepped : step opened text = settle kind (text.take count) opened := by
      simp only [step, found]
    rw [stepped] at member ⊢
    by_cases split : kind = .closeDoubleSquareBracket
        ∧ ∃ outer, opened = .openSquareBracket :: outer
    · obtain ⟨rfl, outer, rfl⟩ := split
      simp [settle] at member
    · rw [not_and, not_exists] at split
      rw [settle_whole _ split] at member ⊢
      obtain ⟨same, rfl⟩ := Prod.mk.inj (List.mem_singleton.mp member)
      have kind : kind = .lineBreak := by
        unfold finalKind at same
        split at same
        · exact absurd same.symm (classifyWord_of_reserved (· ≠ .lineBreak) (by decide)
            (by decide) _)
        · exact same.symm
      subst kind
      exact ⟨text.drop count, (List.take_append_drop _ _).symm, front, rfl⟩

/-- **A line break is a step of its own.** -/
theorem exists_runs_of_lineBreak {opened : List TokenKind} {text word : Text}
    {front back : List Piece}
    (shape : pieces text opened text = front ++ (.lineBreak, word) :: back) :
    ∃ after rest, Runs opened text front after (word ++ rest)
      ∧ kindOf? tokenRules word = some .lineBreak ∧ back = pieces rest after rest := by
  -- The induction is on what bounds the number of steps.
  generalize enough : text.length = size
  induction size using Nat.strongRecOn generalizing opened text front with
  | _ size previous =>
    subst enough
    obtain rfl | more := eq_or_ne text []
    · cases front <;> cases shape
    have unfolded := (Runs.more more .done : Runs opened text _ _ _).pieces
    rw [List.append_nil] at unfolded
    rw [unfolded, List.append_eq_append_iff] at shape
    have shorter : (text.drop (step opened text).count).length < text.length := by
      have taken := step_count_pos opened more
      have positive := List.length_pos_iff.mpr more
      rw [List.length_drop]
      omega
    have behind {others : List Piece}
        (further : pieces (text.drop (step opened text).count) (step opened text).opened
          (text.drop (step opened text).count) = others ++ (.lineBreak, word) :: back) :
        ∃ after rest, Runs opened text ((step opened text).pieces ++ others) after (word ++ rest)
          ∧ kindOf? tokenRules word = some .lineBreak ∧ back = pieces rest after rest := by
      obtain ⟨after, rest, run, found, same⟩ := previous _ shorter further rfl
      exact ⟨after, rest, .more more run, found, same⟩
    rcases shape with ⟨others, rfl, further⟩ | ⟨others, own, further⟩
    · exact behind further
    cases others with
    | nil =>
      rw [List.append_nil] at own
      rw [← own, ← List.append_nil (step opened text).pieces]
      exact behind further.symm
    | cons piece others =>
      rw [List.cons_append, List.cons.injEq] at further
      obtain ⟨rfl, rfl⟩ := further
      have member : (.lineBreak, word) ∈ (step opened text).pieces := by simp [own]
      obtain ⟨rest, rfl, found, stepped⟩ := step_of_lineBreak member
      rw [stepped] at own ⊢
      obtain ⟨rfl, rfl⟩ : front = [] ∧ others = [] := by
        simpa [List.append_eq_singleton_iff] using own.symm
      refine ⟨opened, rest, .done, found, ?_⟩
      simp

/-! ### Open square brackets -/

/-- The square brackets open behind tokens of these kinds. -/
def openedBehind (opened : List TokenKind) (kinds : List TokenKind) : List TokenKind :=
  kinds.foldl (fun opened kind => bracketsBehind kind opened) opened

@[simp] theorem openedBehind_nil (opened : List TokenKind) : openedBehind opened [] = opened := rfl

@[simp] theorem openedBehind_cons (opened : List TokenKind) (kind : TokenKind)
    (kinds : List TokenKind) :
    openedBehind opened (kind :: kinds) = openedBehind (bracketsBehind kind opened) kinds := rfl

@[simp] theorem openedBehind_append (opened first second : List TokenKind) :
    openedBehind opened (first ++ second) = openedBehind (openedBehind opened first) second :=
  List.foldl_append

theorem bracketsBehind_of_plain {kind : TokenKind} (plain : kind.isSquareBracket = false)
    (opened : List TokenKind) : bracketsBehind kind opened = opened := by
  unfold bracketsBehind
  split <;> first | rfl | cases plain

theorem openedBehind_of_plain {kinds : List TokenKind} (opened : List TokenKind)
    (plain : ∀ kind ∈ kinds, kind.isSquareBracket = false) :
    openedBehind opened kinds = opened := by
  induction kinds with
  | nil => rfl
  | cons kind kinds previous =>
    rw [List.forall_mem_cons] at plain
    rw [openedBehind_cons, bracketsBehind_of_plain plain.1, previous plain.2]

/-- Where nothing opens nothing is open. -/
theorem openedBehind_of_unopened {kinds : List TokenKind}
    (unopened : ∀ kind ∈ kinds, kind.isOpening = false) : openedBehind [] kinds = [] := by
  induction kinds with
  | nil => rfl
  | cons kind kinds previous =>
    rw [List.forall_mem_cons] at unopened
    have none : bracketsBehind kind [] = [] := by
      cases kind <;> first | rfl | cases unopened.1
    rw [openedBehind_cons, none, previous unopened.2]

theorem bracketsBehind_finalKind (kind : TokenKind) (word : Text) (opened : List TokenKind) :
    bracketsBehind (finalKind kind word) opened = bracketsBehind kind opened := by
  unfold finalKind
  split
  · exact bracketsBehind_of_plain (classifyWord_of_reserved (·.isSquareBracket = false) (by decide)
      (by decide) word) opened
  · rfl

/-- A step leaves the brackets open that are open behind its pieces. -/
theorem step_opened (opened : List TokenKind) (text : Text) :
    (step opened text).opened = openedBehind opened ((step opened text).pieces.map (·.1)) := by
  cases found : (scan tokenRules text).longest with
  | none =>
    simp only [step, found]
    refine (openedBehind_of_plain opened fun kind member => ?_).symm
    obtain ⟨piece, inPieces, rfl⟩ := List.mem_map.mp member
    obtain ⟨c, _, rfl⟩ := List.mem_map.mp inPieces
    rfl
  | some result =>
    obtain ⟨kind, count⟩ := result
    have stepped : step opened text = settle kind (text.take count) opened := by
      simp only [step, found]
    rw [stepped]
    by_cases split : kind = .closeDoubleSquareBracket
        ∧ ∃ outer, opened = .openSquareBracket :: outer
    · obtain ⟨rfl, outer, rfl⟩ := split
      rfl
    · rw [not_and, not_exists] at split
      rw [settle_whole _ split]
      exact (bracketsBehind_finalKind kind _ opened).symm

theorem Runs.opened {opened after : List TokenKind} {text rest : Text} {front : List Piece}
    (run : Runs opened text front after rest) : after = openedBehind opened (front.map (·.1)) := by
  induction run with
  | done => rfl
  | more nonempty _ previous =>
    rw [List.map_append, openedBehind_append, ← step_opened]
    exact previous

/-! ### Two texts -/

theorem place_shift (start offset : Nat) (list : List Piece) :
    place (start + offset) list = (place start list).map (·.shift offset) := by
  induction list generalizing start with
  | nil => rfl
  | cons piece rest previous =>
    rw [place, place, List.map_cons, ← previous, Nat.add_right_comm]
    rfl

/-- A line break over the line feed between two texts is that line feed, or a carriage return at the
end of the first text belongs to it. -/
theorem halves_of_lineBreak {before behind first word rest : Text}
    (whole : before ++ '\n' :: behind = first ++ (word ++ rest))
    (found : kindOf? tokenRules word = some .lineBreak) (begins : first.bytes ≤ before.bytes)
    (covers : before.bytes < first.bytes + word.bytes) :
    ∃ half, before = first ++ half ∧ word = half ++ ['\n'] ∧ rest = behind
      ∧ (half = [] ∨ half = ['\r']) := by
  obtain ⟨half, rfl, same⟩ :
      ∃ half, before = first ++ half ∧ word ++ rest = half ++ '\n' :: behind := by
    rcases List.append_eq_append_iff.mp whole with ⟨half, rfl, same⟩ | ⟨half, rfl, same⟩
    · have none : half = [] := by
        by_contra some
        have positive := Text.bytes_pos some
        rw [Text.bytes_append] at begins
        omega
      subst none
      exact ⟨[], by simp, same.symm⟩
    · exact ⟨half, rfl, same⟩
  rw [Text.bytes_append] at covers
  refine ⟨half, rfl, ?_⟩
  cases half with
  | nil =>
    rcases word_of_lineBreak found with rfl | rfl | rfl
    · simp at same
    · simpa using same
    · simp at same
  | cons c half =>
    have wide := c.utf8Size_pos
    rw [Text.bytes_cons] at covers
    rcases word_of_lineBreak found with rfl | rfl | rfl
    · obtain ⟨rfl, same⟩ := List.cons.inj same
      cases half with
      | nil => simpa using same
      | cons d half =>
        have wide := d.utf8Size_pos
        simp only [Text.bytes_cons, Text.bytes_nil] at covers
        have narrow : '\r'.utf8Size = 1 ∧ '\n'.utf8Size = 1 := by decide
        omega
    · have narrow : '\n'.utf8Size = 1 := by decide
      simp only [Text.bytes_cons, Text.bytes_nil] at covers
      omega
    · have narrow : '\r'.utf8Size = 1 := by decide
      simp only [Text.bytes_cons, Text.bytes_nil] at covers
      omega

end Lexer

open Lexer

/-- The lexemes of two texts and of the texts with a line break between them: a carriage return at
the end of the first text is part of the line break. -/
structure Junction (before behind : Text) (kept ended : List Lexeme) (broken : Lexeme) : Prop where
  first : lexemes before = kept ++ ended
  breaks : ∀ lexeme ∈ broken :: ended, lexeme.kind = .lineBreak
  whole : lexemes (before ++ '\n' :: behind)
    = kept ++ broken :: (lexemes behind).map (·.shift (before.bytes + 1))

/-- **Behind a line break the lexer starts anew**, if no square bracket is open there. -/
theorem exists_junction {before behind : Text}
    (closed : openedBehind [] ((lexemes before).map (·.kind)) = []) {lexeme : Lexeme}
    (member : lexeme ∈ lexemes (before ++ '\n' :: behind)) (kind : lexeme.kind = .lineBreak)
    (begins : lexeme.start ≤ before.bytes) (covers : before.bytes < lexeme.stop) :
    ∃ kept ended broken, Junction before behind kept ended broken := by
  obtain ⟨front, back, shape, start⟩ := exists_of_mem_place member
  rw [kind] at shape
  rw [Nat.zero_add] at start
  obtain ⟨after, rest, run, found, rfl⟩ := exists_runs_of_lineBreak shape
  rw [Lexeme.stop, start] at covers
  obtain ⟨half, first, word, same, halves⟩ :=
    halves_of_lineBreak run.eq_append found (start ▸ begins) covers
  have split : Runs [] before front after half := by
    rw [word, same, List.append_assoc] at run
    exact run.of_append
  obtain ⟨ended, halfPieces, breaks⟩ : ∃ ended, pieces half after half = ended
      ∧ ∀ piece ∈ ended, piece.1 = .lineBreak := by
    rcases halves with rfl | rfl
    · exact ⟨[], rfl, List.forall_mem_nil _⟩
    · exact ⟨[(.lineBreak, ['\r'])], rfl, by simp⟩
  have firstPieces : pieces before [] before = front ++ ended := by rw [split.pieces, halfPieces]
  have alone : lexemes before = place 0 front ++ place (texts front).bytes ended := by
    rw [lexemes, lexemesFrom, firstPieces, place_append, Nat.zero_add]
  have breaksPlaced : ∀ lexeme ∈ place (texts front).bytes ended, lexeme.kind = .lineBreak :=
    fun lexeme member => breaks _ (mem_of_mem_place member)
  obtain rfl : after = [] := by
    rw [alone, List.map_append, openedBehind_append, map_kind_place, ← run.opened,
      openedBehind_of_plain] at closed
    · exact closed
    · intro kind member
      obtain ⟨lexeme, inPlace, rfl⟩ := List.mem_map.mp member
      rw [breaksPlaced lexeme inPlace]
      rfl
  refine ⟨place 0 front, place (texts front).bytes ended,
    ⟨.lineBreak, (texts front).bytes, lexeme.text⟩, alone, ?_, ?_⟩
  · rw [List.forall_mem_cons]
    exact ⟨rfl, breaksPlaced⟩
  · have stop : (texts front).bytes + lexeme.text.bytes = 0 + (before.bytes + 1) := by
      have narrow : '\n'.utf8Size = 1 := by decide
      rw [word, first]
      simp only [Text.bytes_append, Text.bytes_cons, Text.bytes_nil]
      omega
    rw [lexemes, lexemesFrom, shape, place_append, Nat.zero_add, place, stop, place_shift, same]
    rfl

end RSource
