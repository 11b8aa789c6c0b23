/-
**Regular patterns over characters, read one character at a time.**

`Pattern.Matches` says which texts a pattern stands for. `Pattern.after` is what is left of a
pattern once its first character has been read, so reading a text is following `after` along it.
Main statements: `matches_nil_iff`, a pattern stands for the empty text exactly when `acceptsEmpty`
says so; `matches_cons_iff`, it stands for `first :: rest` exactly when `after first` stands for
`rest`.
-/

import RSource.Text.Bytes

namespace RSource

/-- A set of texts, built from sets of characters. -/
inductive Pattern where
  /-- No text at all. -/
  | never
  /-- The empty text. -/
  | empty
  /-- One character of a set. -/
  | char (accepts : Char → Bool)
  | seq (first second : Pattern)
  | alt (left right : Pattern)
  | star (body : Pattern)

namespace Pattern

/-- The texts that a pattern stands for. -/
inductive Matches : Pattern → Text → Prop where
  | empty : Matches .empty []
  | char {accepts : Char → Bool} {c : Char} : accepts c = true → Matches (.char accepts) [c]
  | seq {first second : Pattern} {left right : Text} :
      Matches first left → Matches second right → Matches (.seq first second) (left ++ right)
  | left {left right : Pattern} {text : Text} : Matches left text → Matches (.alt left right) text
  | right {left right : Pattern} {text : Text} : Matches right text → Matches (.alt left right) text
  | done {body : Pattern} : Matches (.star body) []
  | more {body : Pattern} {left right : Text} :
      Matches body left → Matches (.star body) right → Matches (.star body) (left ++ right)

/-- Whether the empty text is among those the pattern stands for. -/
def acceptsEmpty : Pattern → Bool
  | .never => false
  | .empty => true
  | .char _ => false
  | .seq first second => first.acceptsEmpty && second.acceptsEmpty
  | .alt left right => left.acceptsEmpty || right.acceptsEmpty
  | .star _ => true

/-- One after the other, without the parts that add nothing. -/
def join : Pattern → Pattern → Pattern
  | .never, _ => .never
  | _, .never => .never
  | .empty, second => second
  | first, second => .seq first second

/-- One or the other, without a part that stands for nothing. -/
def merge : Pattern → Pattern → Pattern
  | .never, right => right
  | left, .never => left
  | left, right => .alt left right

/-- What is left to read once `c` has been read. -/
def after (c : Char) : Pattern → Pattern
  | .never => .never
  | .empty => .never
  | .char accepts => if accepts c then .empty else .never
  | .seq first second =>
    if first.acceptsEmpty then merge (join (first.after c) second) (second.after c)
    else join (first.after c) second
  | .alt left right => merge (left.after c) (right.after c)
  | .star body => join (body.after c) (.star body)

/-- Whether the pattern is written as one that stands for no text. -/
def isNever : Pattern → Bool
  | .never => true
  | _ => false

/-! ### Patterns made of others -/

/-- Exactly this text. -/
def literal (text : Text) : Pattern :=
  text.foldr (fun c rest => join (.char (· == c)) rest) .empty

/-- Any one of several patterns. -/
def oneOf (choices : List Pattern) : Pattern := choices.foldr merge .never

/-- One pattern after the other. -/
def sequence (steps : List Pattern) : Pattern := steps.foldr join .empty

/-- The pattern once or not at all. -/
def optional (body : Pattern) : Pattern := .alt body .empty

/-- The pattern once or more. -/
def many (body : Pattern) : Pattern := .seq body (.star body)

/-! ### Reading one character -/

theorem not_matches_never {text : Text} : ¬ Matches .never text := by
  intro found
  cases found

theorem matches_empty_iff {text : Text} : Matches .empty text ↔ text = [] := by
  constructor
  · intro found
    cases found
    rfl
  · rintro rfl
    exact .empty

theorem matches_seq_iff {first second : Pattern} {text : Text} :
    Matches (.seq first second) text
      ↔ ∃ left right, text = left ++ right ∧ Matches first left ∧ Matches second right := by
  constructor
  · intro found
    cases found with
    | seq inFirst inSecond => exact ⟨_, _, rfl, inFirst, inSecond⟩
  · rintro ⟨left, right, rfl, inFirst, inSecond⟩
    exact .seq inFirst inSecond

theorem matches_alt_iff {left right : Pattern} {text : Text} :
    Matches (.alt left right) text ↔ Matches left text ∨ Matches right text := by
  constructor
  · intro found
    cases found with
    | left inLeft => exact .inl inLeft
    | right inRight => exact .inr inRight
  · rintro (inLeft | inRight)
    · exact .left inLeft
    · exact .right inRight

theorem matches_join_iff {first second : Pattern} {text : Text} :
    Matches (join first second) text ↔ Matches (.seq first second) text := by
  rw [matches_seq_iff]
  unfold join
  split
  · simp [not_matches_never]
  · simp [not_matches_never]
  · constructor
    · intro found
      exact ⟨[], text, rfl, .empty, found⟩
    · rintro ⟨left, right, rfl, nothing, found⟩
      rw [matches_empty_iff.1 nothing]
      exact found
  · exact matches_seq_iff

theorem matches_merge_iff {left right : Pattern} {text : Text} :
    Matches (merge left right) text ↔ Matches left text ∨ Matches right text := by
  unfold merge
  split
  · simp [not_matches_never]
  · simp [not_matches_never]
  · exact matches_alt_iff

/-- **The empty text.** -/
theorem matches_nil_iff (pattern : Pattern) :
    Matches pattern [] ↔ pattern.acceptsEmpty = true := by
  induction pattern with
  | never => simp [not_matches_never, acceptsEmpty]
  | empty => simp [matches_empty_iff, acceptsEmpty]
  | char accepts =>
    simp only [acceptsEmpty, Bool.false_eq_true, iff_false]
    intro found
    cases found
  | seq first second inFirst inSecond =>
    rw [matches_seq_iff]
    constructor
    · rintro ⟨left, right, split, foundFirst, foundSecond⟩
      obtain ⟨rfl, rfl⟩ := List.append_eq_nil_iff.1 split.symm
      simp [acceptsEmpty, inFirst.1 foundFirst, inSecond.1 foundSecond]
    · intro both
      simp only [acceptsEmpty, Bool.and_eq_true] at both
      exact ⟨[], [], rfl, inFirst.2 both.1, inSecond.2 both.2⟩
  | alt left right inLeft inRight =>
    rw [matches_alt_iff, inLeft, inRight]
    simp [acceptsEmpty]
  | star body _ =>
    simp only [acceptsEmpty, iff_true]
    exact .done

/-- A text in a repetition that begins with `c` has a first round that begins with `c`. -/
theorem exists_round_of_matches_star {body : Pattern} {c : Char} {rest : Text}
    (found : Matches (.star body) (c :: rest)) :
    ∃ left right, rest = left ++ right ∧ Matches body (c :: left) ∧ Matches (.star body) right := by
  generalize whole : Pattern.star body = repetition at found
  generalize read : c :: rest = text at found
  induction found with
  | empty => cases whole
  | char _ => cases whole
  | seq _ _ _ _ => cases whole
  | left _ _ => cases whole
  | right _ _ => cases whole
  | done => cases read
  | @more body' left right inBody inStar _ inRest =>
    cases whole
    cases left with
    | nil => exact inRest rfl read
    | cons first left =>
      obtain ⟨rfl, rfl⟩ := List.cons.inj read
      exact ⟨left, right, rfl, inBody, inStar⟩

/-- **One character.** -/
theorem matches_cons_iff (pattern : Pattern) (c : Char) (rest : Text) :
    Matches pattern (c :: rest) ↔ Matches (pattern.after c) rest := by
  induction pattern generalizing rest with
  | never => simp [not_matches_never, after]
  | empty => simp [matches_empty_iff, not_matches_never, after]
  | char accepts =>
    unfold after
    split
    · rename_i accepted
      rw [matches_empty_iff]
      constructor
      · intro found
        cases found
        rfl
      · rintro rfl
        exact .char accepted
    · rename_i refused
      constructor
      · intro found
        cases found with
        | char accepted => exact absurd accepted refused
      · intro found
        exact absurd found not_matches_never
  | seq first second inFirst inSecond =>
    have readFirst : Matches (join (first.after c) second) rest
        ↔ ∃ left right,
          rest = left ++ right ∧ Matches first (c :: left) ∧ Matches second right := by
      rw [matches_join_iff, matches_seq_iff]
      simp only [inFirst]
    have split : Matches (.seq first second) (c :: rest)
        ↔ (∃ left right, rest = left ++ right ∧ Matches first (c :: left) ∧ Matches second right)
          ∨ (first.acceptsEmpty = true ∧ Matches second (c :: rest)) := by
      rw [matches_seq_iff]
      constructor
      · rintro ⟨left, right, whole, foundFirst, foundSecond⟩
        cases left with
        | nil =>
          rw [List.nil_append] at whole
          exact .inr ⟨(matches_nil_iff first).1 foundFirst, whole ▸ foundSecond⟩
        | cons _ left =>
          obtain ⟨rfl, rfl⟩ := List.cons.inj whole
          exact .inl ⟨left, right, rfl, foundFirst, foundSecond⟩
      · rintro (⟨left, right, rfl, foundFirst, foundSecond⟩ | ⟨nothing, foundSecond⟩)
        · exact ⟨c :: left, right, rfl, foundFirst, foundSecond⟩
        · exact ⟨[], c :: rest, rfl, (matches_nil_iff first).2 nothing, foundSecond⟩
    rw [split]
    unfold after
    by_cases nothing : first.acceptsEmpty = true
    · rw [if_pos nothing, matches_merge_iff, readFirst, inSecond]
      simp only [nothing, true_and]
    · rw [if_neg nothing, readFirst]
      simp only [nothing, Bool.false_eq_true, false_and, or_false]
  | alt left right inLeft inRight =>
    rw [matches_alt_iff, inLeft, inRight, after, matches_merge_iff]
  | star body inBody =>
    rw [after, matches_join_iff, matches_seq_iff]
    constructor
    · intro found
      obtain ⟨left, right, rfl, round, others⟩ := exists_round_of_matches_star found
      exact ⟨left, right, rfl, (inBody left).1 round, others⟩
    · rintro ⟨left, right, rfl, round, others⟩
      exact .more ((inBody left).2 round) others

end Pattern

end RSource
