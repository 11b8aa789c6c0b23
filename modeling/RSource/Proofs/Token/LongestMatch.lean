/-
**The lexer takes the longest match.**

`kindOf? rules word` is the kind of the first rule that stands for a word. Following the rules along
a text finds the longest front of it that some rule stands for, and that front's kind. Main
statements: `scan_longest`, and `step_longest` for the step of the lexer that follows.

Two sets of characters bound what a pattern can match: those its texts begin with
(`Pattern.begins`) and those that occur in them (`Pattern.holds`).
-/

import RSource.Token.Lexer
import Mathlib.Data.List.Basic

namespace RSource

namespace Pattern

/-! ### Matching as a test -/

/-- Whether a pattern stands for a text. -/
def accepts (pattern : Pattern) (text : Text) : Bool :=
  (text.foldl (fun left c => left.after c) pattern).acceptsEmpty

theorem accepts_cons (pattern : Pattern) (c : Char) (rest : Text) :
    pattern.accepts (c :: rest) = (pattern.after c).accepts rest := rfl

theorem accepts_iff (pattern : Pattern) (text : Text) :
    pattern.accepts text = true ↔ Matches pattern text := by
  induction text generalizing pattern with
  | nil => exact (matches_nil_iff pattern).symm
  | cons c rest previous => rw [accepts_cons, previous, matches_cons_iff]

theorem accepts_of_isNever {pattern : Pattern} (never : pattern.isNever = true) (text : Text) :
    pattern.accepts text = false := by
  rw [Bool.eq_false_iff, ne_eq, accepts_iff]
  cases pattern with
  | never => exact not_matches_never
  | _ => cases never

/-! ### The characters of a pattern -/

/-- Whether a text of the pattern may begin with `c`. -/
def begins (c : Char) : Pattern → Bool
  | .never | .empty => false
  | .char accepts => accepts c
  | .seq first second => first.begins c || (first.acceptsEmpty && second.begins c)
  | .alt left right => left.begins c || right.begins c
  | .star body => body.begins c

/-- Whether `c` may occur in a text of the pattern. -/
def holds (c : Char) : Pattern → Bool
  | .never | .empty => false
  | .char accepts => accepts c
  | .seq first second => first.holds c || second.holds c
  | .alt left right => left.holds c || right.holds c
  | .star body => body.holds c

theorem begins_of_matches {pattern : Pattern} {c : Char} {rest : Text}
    (found : Matches pattern (c :: rest)) : pattern.begins c = true := by
  generalize shape : c :: rest = text at found
  induction found generalizing rest with
  | empty | done => cases shape
  | char accepted =>
    obtain ⟨rfl, rfl⟩ := List.cons.inj shape
    exact accepted
  | @seq first second left right inFirst _ ofFirst ofSecond =>
    rw [begins, Bool.or_eq_true, Bool.and_eq_true]
    cases left with
    | nil => exact .inr ⟨(matches_nil_iff first).mp inFirst, ofSecond shape⟩
    | cons first left =>
      obtain ⟨rfl, same⟩ := List.cons.inj shape
      exact .inl (ofFirst rfl)
  | left _ previous => rw [begins, previous shape, Bool.true_or]
  | right _ previous => rw [begins, previous shape, Bool.or_true]
  | @more body left right _ _ ofBody ofStar =>
    cases left with
    | nil => exact ofStar shape
    | cons first left =>
      obtain ⟨rfl, same⟩ := List.cons.inj shape
      exact ofBody rfl

theorem holds_of_matches {pattern : Pattern} {text : Text} {c : Char}
    (found : Matches pattern text) (member : c ∈ text) : pattern.holds c = true := by
  induction found with
  | empty | done => exact absurd member List.not_mem_nil
  | char accepted =>
    rw [List.mem_singleton.mp member]
    exact accepted
  | seq _ _ ofFirst ofSecond =>
    rw [holds, Bool.or_eq_true]
    exact (List.mem_append.mp member).imp ofFirst ofSecond
  | left _ previous => rw [holds, previous member, Bool.true_or]
  | right _ previous => rw [holds, previous member, Bool.or_true]
  | more _ _ ofBody ofStar => exact (List.mem_append.mp member).elim ofBody ofStar

end Pattern

namespace Lexer

/-! ### Following the rules -/

/-- The kind of the first rule that stands for a word. -/
def kindOf? (rules : List (TokenKind × Pattern)) (word : Text) : Option TokenKind :=
  (rules.find? fun rule => rule.2.accepts word).map (·.1)

theorem kindOf?_nil (rules : List (TokenKind × Pattern)) : kindOf? rules [] = accepted? rules := rfl

/-- Reading a character keeps the first rule that stands for the whole word. -/
theorem kindOf?_cons (rules : List (TokenKind × Pattern)) (c : Char) (rest : Text) :
    kindOf? rules (c :: rest) = kindOf? (advance c rules) rest := by
  have still : (fun rule : TokenKind × Pattern => rule.2.accepts (c :: rest))
      = (fun rule => decide ((!rule.2.isNever) = true ∧ rule.2.accepts rest = true))
        ∘ fun rule => (rule.1, rule.2.after c) := by
    funext rule
    rw [Pattern.accepts_cons, Function.comp]
    cases never : (rule.2.after c).isNever with
    | true => simp [Pattern.accepts_of_isNever never]
    | false => simp
  rw [kindOf?, kindOf?, advance, List.find?_filter, List.find?_map, Option.map_map, still]
  rfl

theorem kindOf?_eq_none_iff {rules : List (TokenKind × Pattern)} {word : Text} :
    kindOf? rules word = none ↔ ∀ rule ∈ rules, ¬ Pattern.Matches rule.2 word := by
  rw [kindOf?, Option.map_eq_none_iff, List.find?_eq_none]
  simp only [Pattern.accepts_iff]

/-- Where no front of a text is a word, nothing is found. -/
theorem scan_longest_none {rules : List (TokenKind × Pattern)} {text : Text}
    (nothing : ∀ count, 0 < count → count ≤ text.length → kindOf? rules (text.take count) = none) :
    (scan rules text).longest = none := by
  induction text generalizing rules with
  | nil => rfl
  | cons c rest previous =>
    have further : (scan (advance c rules) rest).longest = none := by
      refine previous fun count _ short => ?_
      rw [← kindOf?_cons]
      exact nothing (count + 1) (Nat.succ_pos _) (Nat.succ_le_succ short)
    have here : accepted? (advance c rules) = none := by
      rw [← kindOf?_nil, ← kindOf?_cons]
      exact nothing 1 Nat.one_pos (Nat.succ_le_succ (Nat.zero_le _))
    unfold scan
    simp only [further, here, Option.map_none]
    split <;> rfl

/-- **The longest front of a text that is a word is found, with its kind.** -/
theorem scan_longest {rules : List (TokenKind × Pattern)} {text : Text} {kind : TokenKind}
    {count : Nat} (positive : 0 < count) (short : count ≤ text.length)
    (word : kindOf? rules (text.take count) = some kind)
    (longest : ∀ more, count < more → more ≤ text.length →
      kindOf? rules (text.take more) = none) :
    (scan rules text).longest = some (kind, count) := by
  induction text generalizing rules count with
  | nil =>
    rw [List.length_nil] at short
    omega
  | cons c rest previous =>
    obtain ⟨count, rfl⟩ := Nat.exists_eq_succ_of_ne_zero (Nat.ne_of_gt positive)
    rw [Nat.succ_eq_add_one, List.take_succ_cons, kindOf?_cons] at word
    have behind : ∀ more, count < more → more ≤ rest.length →
        kindOf? (advance c rules) (rest.take more) = none := by
      intro more later bounded
      rw [← kindOf?_cons]
      exact longest (more + 1) (Nat.succ_lt_succ later) (Nat.succ_le_succ bounded)
    have still : ¬ (advance c rules).isEmpty = true := by
      intro empty
      rw [List.isEmpty_iff.mp empty] at word
      cases word
    unfold scan
    rw [if_neg still]
    cases count with
    | zero =>
      rw [List.take_zero, kindOf?_nil] at word
      simp only [scan_longest_none behind, word]
      rfl
    | succ count =>
      have found := previous (Nat.succ_pos _) (Nat.le_of_succ_le_succ short) word behind
      simp only [found]

/-- **One step cuts off the longest word.** -/
theorem step_longest (opened : List TokenKind) {word rest : Text} {kind : TokenKind}
    (nonempty : word ≠ []) (found : kindOf? tokenRules word = some kind)
    (longest : ∀ more, more ≠ [] → more <+: rest → kindOf? tokenRules (word ++ more) = none) :
    step opened (word ++ rest) = settle kind word opened := by
  have scanned : (scan tokenRules (word ++ rest)).longest = some (kind, word.length) := by
    refine scan_longest (List.length_pos_iff.mpr nonempty) (by simp) (by simpa using found)
      fun more later bounded => ?_
    have shape : (word ++ rest).take more = word ++ rest.take (more - word.length) := by
      rw [List.take_append, List.take_of_length_le (Nat.le_of_lt later)]
    rw [shape]
    refine longest _ ?_ (List.take_prefix _ _)
    rw [List.length_append] at bounded
    rw [ne_eq, List.take_eq_nil_iff]
    rintro (none | empty)
    · omega
    · rw [empty, List.length_nil] at bounded
      omega
  unfold step
  simp only [scanned, List.take_left]

/-- **A word at the front of a text is one piece**, when it is the longest one there and leaves the
brackets as they are. -/
theorem pieces_longest {bound : Text} (opened : List TokenKind) {word rest : Text}
    {kind final : TokenKind} (nonempty : word ≠ [])
    (found : kindOf? tokenRules word = some kind)
    (longest : ∀ more, more ≠ [] → more <+: rest → kindOf? tokenRules (word ++ more) = none)
    (settled : settle kind word opened = ⟨[(final, word)], opened, word.length⟩)
    (enough : (word ++ rest).length ≤ bound.length) :
    ∃ further : Text, rest.length ≤ further.length
      ∧ pieces bound opened (word ++ rest) = (final, word) :: pieces further opened rest := by
  have stepped := step_longest opened nonempty found longest
  obtain ⟨c, others, rfl⟩ := List.exists_cons_of_ne_nil nonempty
  cases bound with
  | nil => simp at enough
  | cons extra bound =>
    refine ⟨bound, ?_, ?_⟩
    · simp only [List.cons_append, List.length_cons, List.length_append] at enough
      omega
    · rw [List.cons_append] at stepped ⊢
      rw [pieces, stepped, settled, ← List.cons_append, List.drop_left]
      rfl

end Lexer

end RSource
