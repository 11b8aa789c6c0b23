/-
**Terms, as they are written and as they are cut into tokens.**

A term is a name, or a target with a list of terms in brackets behind it. It is written without
blanks, so brackets stand right behind each other: `x[y[[z]]]` ends with three closing ones. Main
statement: `Term.runs`, the lexer cuts a term into its own words. Where a run of closing brackets is
cut depends on the square brackets that the lexer has open, and these are those of the terms around.
-/

import RSource.Proofs.Token.Restart
import RSource.Proofs.Token.Spaced

namespace RSource

open Pattern TokenRules Lexer

/-- The brackets around the arguments of a term. -/
inductive Bracket where
  | round
  | square
  | doubleSquare
  deriving Repr, DecidableEq

namespace Bracket

def delimiter : Bracket → Delimiter
  | round => .brace
  | square => .squareBracket
  | doubleSquare => .doubleSquareBracket

def opening : Bracket → Text
  | round => ['(']
  | square => ['[']
  | doubleSquare => ['[', '[']

def closing : Bracket → Text
  | round => [')']
  | square => [']']
  | doubleSquare => [']', ']']

/-- The opening bracket as a piece. -/
def opener (bracket : Bracket) : Piece := (bracket.delimiter.opener, bracket.opening)

/-- The closing bracket as a piece. -/
def closer (bracket : Bracket) : Piece := (bracket.delimiter.closer, bracket.closing)

/-- The square brackets open behind the opening one. -/
def opened : Bracket → List TokenKind → List TokenKind
  | round, outer => outer
  | square, outer => .openSquareBracket :: outer
  | doubleSquare, outer => .openDoubleSquareBracket :: outer

end Bracket

/-- A name, or a target with arguments in brackets. -/
inductive Term where
  | name (word : Text)
  | applied (bracket : Bracket) (target : Term) (arguments : List Term)
  deriving Repr

namespace Term

mutual

/-- A term as it is written, without blanks. -/
def text : Term → Text
  | name word => word
  | applied bracket target arguments =>
    target.text ++ (bracket.opening ++ (listText arguments ++ bracket.closing))

/-- Arguments as they are written, with commas between them. -/
def listText : List Term → Text
  | [] => []
  | [last] => last.text
  | first :: second :: others => first.text ++ ',' :: listText (second :: others)

end

mutual

/-- The words of a term, with their kinds. -/
def pieces : Term → List Piece
  | name word => [(.identifier, word)]
  | applied bracket target arguments =>
    target.pieces ++ (bracket.opener :: (listPieces arguments ++ [bracket.closer]))

def listPieces : List Term → List Piece
  | [] => []
  | [last] => last.pieces
  | first :: second :: others => first.pieces ++ (.comma, [',']) :: listPieces (second :: others)

end

mutual

/-- The names in a term. -/
def names : Term → List Text
  | name word => [word]
  | applied _ target arguments => target.names ++ listNames arguments

def listNames : List Term → List Text
  | [] => []
  | first :: others => first.names ++ listNames others

end

mutual

/-- How many argument lists lie around the innermost argument of a term. -/
def depth : Term → Nat
  | name _ => 0
  | applied _ target arguments => max target.depth (listDepth arguments)

/-- The same for arguments, with the list that holds them. -/
def listDepth : List Term → Nat
  | [] => 0
  | first :: others => max (first.depth + 1) (listDepth others)

end

end Term

/-- A name that is not reserved. -/
structure IsName (word : Text) : Prop where
  matched : Matches identifier word
  free : classifyWord word = .identifier

theorem IsName.isWord {word : Text} (name : IsName word) : IsWord word := .inl name.matched

theorem IsName.wordKind {word : Text} (name : IsName word) : wordKind word = .identifier := by
  rw [wordKind_of_identifier name.matched, name.free]

/-- Such a name ends with its second quote, if it begins with one. -/
structure IsClosedName (word : Text) : Prop extends IsName word where
  closed : IsClosed word

/-! ### Brackets and commas -/

/-- The characters that brackets and commas begin with. -/
def bracketSigns : List Char := ['(', ')', '[', ']', ',']

/-- What the rules for brackets and commas stand for. -/
def bracketTexts : List Text := [['('], [')'], ['['], [']'], ['[', '['], [']', ']'], [',']]

/-- A text that begins with a bracket or a comma is a token only if it is nothing else. -/
theorem mem_bracketTexts_of_matches {rule : TokenKind × Pattern} {c : Char} {more : Text}
    (member : rule ∈ tokenRules) (sign : c ∈ bracketSigns) (found : Matches rule.2 (c :: more)) :
    c :: more ∈ bracketTexts := by
  have begins := begins_of_matches found
  have other (pattern : Pattern) (none : bracketSigns.any (fun c => pattern.begins c) = false) :
      ¬ pattern.begins c = true := List.any_eq_false.mp none c sign
  simp only [tokenRules, List.mem_cons, List.not_mem_nil, or_false] at member
  rcases member with rfl | rfl | rfl | rfl | rfl | rfl | rfl | rfl | rfl | rfl | rfl | rfl | rfl
    | rfl | rfl | rfl | rfl
  all_goals
    first
    | exact absurd begins (other _ (by decide))
    | rw [eq_of_matches_literal found]; decide

/-- **Behind a bracket or a comma no token goes on**, unless it is doubled. -/
theorem kindOf?_bracket_append {c : Char} {word more : Text} (sign : c ∈ bracketSigns)
    (long : c :: (word ++ more) ∉ bracketTexts) : kindOf? tokenRules (c :: word ++ more) = none :=
  kindOf?_eq_none_iff.mpr fun _ member found => long (mem_bracketTexts_of_matches member sign found)

namespace Term

section Runs

variable {opened : List TokenKind} {rest : Text}

theorem runs_comma : Runs opened (',' :: rest) [(.comma, [','])] opened rest := by
  refine Runs.of_longest (List.cons_ne_nil ',' []) rfl (fun more nonempty _ => ?_) rfl
  exact @kindOf?_bracket_append ',' [] more (by decide) (by simp [bracketTexts, nonempty])

/-- A single opening bracket is one only in front of something else. -/
theorem runs_opener (bracket : Bracket) (single : ∀ c, rest.head? = some c → c ≠ '[') :
    Runs opened (bracket.opening ++ rest) [bracket.opener] (bracket.opened opened) rest := by
  cases bracket with
  | round =>
    refine Runs.of_longest (List.cons_ne_nil '(' []) rfl (fun more nonempty _ => ?_) rfl
    exact @kindOf?_bracket_append '(' [] more (by decide) (by simp [bracketTexts, nonempty])
  | square =>
    refine Runs.of_longest (List.cons_ne_nil '[' []) rfl (fun more nonempty front => ?_) rfl
    obtain ⟨c, more, rfl⟩ := List.exists_cons_of_ne_nil nonempty
    obtain ⟨behind, rfl⟩ := front
    have other : c ≠ '[' := single c rfl
    exact @kindOf?_bracket_append '[' [] _ (by decide) (by simp [bracketTexts, other])
  | doubleSquare =>
    refine Runs.of_longest (List.cons_ne_nil '[' ['[']) rfl (fun more nonempty _ => ?_) rfl
    exact @kindOf?_bracket_append '[' ['['] more (by decide) (by simp [bracketTexts, nonempty])

/-- Two closing brackets behind each other are two tokens where a single bracket is open, and one
where a double one is. -/
theorem runs_closer (bracket : Bracket) :
    Runs (bracket.opened opened) (bracket.closing ++ rest) [bracket.closer] opened rest := by
  have double (more : Text) (nonempty : more ≠ []) :
      kindOf? tokenRules ([']', ']'] ++ more) = none :=
    @kindOf?_bracket_append ']' [']'] more (by decide) (by simp [bracketTexts, nonempty])
  cases bracket with
  | round =>
    refine Runs.of_longest (List.cons_ne_nil ')' []) rfl (fun more nonempty _ => ?_) rfl
    exact @kindOf?_bracket_append ')' [] more (by decide) (by simp [bracketTexts, nonempty])
  | square =>
    by_cases doubled : rest.head? = some ']'
    · obtain ⟨behind, rfl⟩ := List.head?_eq_some_iff.mp doubled
      refine Runs.of_step (List.cons_ne_nil ']' []) ?_
      exact @step_longest _ [']', ']'] behind _ (List.cons_ne_nil _ _) rfl
        fun more nonempty _ => double more nonempty
    · refine Runs.of_longest (List.cons_ne_nil ']' []) rfl (fun more nonempty front => ?_) rfl
      obtain ⟨c, more, rfl⟩ := List.exists_cons_of_ne_nil nonempty
      obtain ⟨behind, rfl⟩ := front
      have other : c ≠ ']' := fun same => doubled (congrArg some same)
      exact @kindOf?_bracket_append ']' [] _ (by decide) (by simp [bracketTexts, other])
  | doubleSquare =>
    exact Runs.of_longest (List.cons_ne_nil ']' [']']) rfl
      (fun more nonempty _ => double more nonempty) rfl

/-- A name ends in front of a bracket or a comma. -/
theorem runs_name {word : Text} (name : IsClosedName word)
    (ends : ∀ c, rest.head? = some c → c ∈ breaks) :
    Runs opened (word ++ rest) [(.identifier, word)] opened rest := by
  obtain ⟨kind, found, settled⟩ := name.isWord.settle opened
  rw [name.wordKind] at settled
  refine Runs.of_longest name.isWord.ne_nil found (fun more nonempty front => ?_) settled
  obtain ⟨c, more, rfl⟩ := List.exists_cons_of_ne_nil nonempty
  obtain ⟨behind, rfl⟩ := front
  exact kindOf?_append_break more name.isWord name.closed (ends c rfl)

end Runs

/-! ### Terms -/

/-- A term begins with its first name. -/
theorem text_exists_cons :
    (term : Term) → (∀ word ∈ term.names, IsClosedName word) →
      ∃ c rest, term.text = c :: rest ∧ c ∉ signs
  | name word, proper => (proper word List.mem_cons_self).isWord.exists_cons
  | applied bracket target arguments, proper => by
    obtain ⟨c, rest, shape, noSign⟩ :=
      text_exists_cons target fun word member => proper word (List.mem_append_left _ member)
    refine ⟨c, rest ++ (bracket.opening ++ (listText arguments ++ bracket.closing)), ?_, noSign⟩
    rw [text, shape, List.cons_append]

theorem listText_head? {arguments : List Term} {rest : Text} {d : Char}
    (proper : ∀ word ∈ listNames arguments, IsClosedName word) (sign : d ∈ signs)
    (other : ∀ c, rest.head? = some c → c ≠ d) (c : Char)
    (begins : (listText arguments ++ rest).head? = some c) : c ≠ d := by
  cases arguments with
  | nil => exact other c begins
  | cons first others =>
    obtain ⟨c, more, shape, noSign⟩ :=
      text_exists_cons first fun word member => proper word (List.mem_append_left _ member)
    have own : (listText (first :: others) ++ rest).head? = some c := by
      cases others <;> rw [listText, shape] <;> rfl
    obtain rfl := Option.some.inj (own.symm.trans begins)
    rintro rfl
    exact noSign sign

mutual

/-- **A term is cut into its words**, in front of the end of the text, a bracket or a comma. -/
theorem runs {opened : List TokenKind} {rest : Text} :
    (term : Term) → (∀ word ∈ term.names, IsClosedName word) →
      (∀ c, rest.head? = some c → c ∈ breaks) →
      Runs opened (term.text ++ rest) term.pieces opened rest
  | name word, proper, ends => runs_name (proper word List.mem_cons_self) ends
  | applied bracket target arguments, proper, ends => by
    have ofTarget : ∀ word ∈ target.names, IsClosedName word :=
      fun word member => proper word (List.mem_append_left _ member)
    have ofArguments : ∀ word ∈ listNames arguments, IsClosedName word :=
      fun word member => proper word (List.mem_append_right _ member)
    have opens (behind : Text) : ∀ c, (bracket.opening ++ behind).head? = some c → c ∈ breaks := by
      cases bracket <;> simp [Bracket.opening, breaks]
    have closes : ∀ c, (bracket.closing ++ rest).head? = some c → c ∈ breaks ∧ c ≠ '[' := by
      cases bracket <;> simp [Bracket.closing, breaks]
    rw [text, pieces, List.append_assoc, List.append_assoc, List.append_assoc]
    refine (runs target ofTarget (opens _)).trans ?_
    refine @Runs.trans _ _ _ _ [bracket.opener] _ _ _ (runs_opener bracket ?_) ?_
    · exact listText_head? ofArguments (by decide) fun c begins => (closes c begins).2
    refine (listRuns arguments ofArguments fun c begins => (closes c begins).1).trans ?_
    exact runs_closer bracket

theorem listRuns {opened : List TokenKind} {rest : Text} :
    (arguments : List Term) → (∀ word ∈ listNames arguments, IsClosedName word) →
      (∀ c, rest.head? = some c → c ∈ breaks) →
      Runs opened (listText arguments ++ rest) (listPieces arguments) opened rest
  | [], _, _ => .done
  | [last], proper, ends =>
    runs last (fun word member => proper word (List.mem_append_left _ member)) ends
  | first :: second :: others, proper, ends => by
    rw [listText, listPieces, List.append_assoc, List.cons_append]
    refine (runs first (fun word member => proper word (List.mem_append_left _ member)) ?_).trans ?_
    · simp [breaks]
    refine @Runs.trans _ _ _ _ [(.comma, [','])] _ _ _ runs_comma ?_
    exact listRuns (second :: others)
      (fun word member => proper word (List.mem_append_right _ member)) ends

end

end Term

end RSource
