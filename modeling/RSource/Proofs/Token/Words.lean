/-
**Names, numbers and operators in front of a blank or a bracket.**

A name, a number or an operator with a blank, a bracket or a comma behind it is one token: no rule
stands for the word with more behind it. A rule that goes on over one of these begins with a sign of
its own, or is a name between backticks or an operator between percent signs, and these end at their
second quote. Main statements: `kindOf?_of_identifier`, `kindOf?_of_number`, `kindOf?_of_operator`
for the word, and `kindOf?_append_break` for what is longer.
-/

import RSource.Proofs.Token.LongestMatch

namespace RSource

open Pattern TokenRules Lexer

/-! ### Patterns with quotes -/

namespace Pattern

theorem matches_sequence_cons_iff {first : Pattern} {others : List Pattern} {text : Text} :
    Matches (sequence (first :: others)) text
      ↔ ∃ left right, text = left ++ right ∧ Matches first left ∧ Matches (sequence others) right :=
  matches_join_iff.trans matches_seq_iff

theorem matches_sequence_singleton_iff {pattern : Pattern} {text : Text} :
    Matches (sequence [pattern]) text ↔ Matches pattern text := by
  rw [matches_sequence_cons_iff]
  constructor
  · rintro ⟨left, right, rfl, found, nothing⟩
    rwa [matches_empty_iff.mp nothing, List.append_nil]
  · exact fun found => ⟨text, [], (List.append_nil _).symm, found, .empty⟩

theorem matches_oneOf_iff {choices : List Pattern} {text : Text} :
    Matches (oneOf choices) text ↔ ∃ choice ∈ choices, Matches choice text := by
  induction choices with
  | nil => simp [oneOf, not_matches_never]
  | cons choice others previous =>
    rw [List.exists_mem_cons_iff, ← previous]
    exact matches_merge_iff

/-- A literal stands for itself alone. -/
theorem eq_of_matches_literal {word text : Text} (found : Matches (literal word) text) :
    text = word := by
  induction word generalizing text with
  | nil => exact matches_empty_iff.mp found
  | cons c word previous =>
    obtain ⟨left, right, rfl, first, rest⟩ := matches_seq_iff.mp (matches_join_iff.mp found)
    cases first with
    | char accepted => rw [eq_of_beq accepted, previous rest, List.singleton_append]

/-- A quote, characters that pass a test, and what stands behind them. -/
theorem exists_of_matches_quoted {quote : Char} {test : Char → Bool} {others : List Pattern}
    {text : Text}
    (found : Matches (sequence (literal [quote] :: .star (.char test) :: others)) text) :
    ∃ body tail, text = quote :: body ++ tail ∧ (∀ c ∈ body, test c = true)
      ∧ Matches (sequence others) tail := by
  obtain ⟨first, further, rfl, opening, behind⟩ := matches_sequence_cons_iff.mp found
  obtain ⟨body, tail, rfl, inside, rest⟩ := matches_sequence_cons_iff.mp behind
  rw [eq_of_matches_literal opening]
  exact ⟨body, tail, rfl, fun c member => holds_of_matches inside member, rest⟩

end Pattern

/-- Between two quotes nothing is longer than what ends at the second of them. -/
theorem eq_nil_of_quoted {quote : Char} {body other more tail : Text} (free : quote ∉ body)
    (notIn : quote ∉ other) (ends : tail = [] ∨ tail = [quote])
    (same : body ++ quote :: more = other ++ tail) : more = [] := by
  rcases ends with rfl | rfl
  · rw [List.append_nil] at same
    exact absurd (same ▸ List.mem_append_right body List.mem_cons_self) notIn
  · rcases List.append_eq_append_iff.mp same with ⟨middle, shape, rest⟩ | ⟨middle, shape, rest⟩
    · cases middle with
      | nil => simpa using rest
      | cons c middle =>
        obtain ⟨rfl, _⟩ := List.cons.inj rest
        exact absurd (shape ▸ List.mem_append_right body List.mem_cons_self) notIn
    · cases middle with
      | nil => simpa using rest.symm
      | cons c middle =>
        obtain ⟨rfl, _⟩ := List.cons.inj rest
        exact absurd (shape ▸ List.mem_append_right other List.mem_cons_self) free

/-! ### What the rules begin with -/

/-- The characters that rules for other tokens than names, numbers and operators begin with. -/
def signs : List Char :=
  [' ', '\t', '\x0c', '\n', '\r', '#', '"', '\'', ',', ';', '(', ')', '\x7b', '\x7d', '[', ']']

/-- The characters that operators begin with. -/
def operatorSigns : List Char :=
  ['+', '-', '*', '/', '^', '<', '>', '=', '!', '&', '|', '~', '?', ':', '$', '@', '%']

theorem begins_identifier {c : Char} (begins : identifier.begins c = true) :
    isLetter c = true ∨ c = '.' ∨ c = '`' := by
  simpa [identifier, Pattern.begins, oneOf, Pattern.sequence, literal, merge, join, acceptsEmpty,
    Pattern.optional] using begins

theorem begins_number {c : Char} (begins : number.begins c = true) :
    isDigit c = true ∨ c = '.' := by
  have cases : isDigit c = true ∨ c = '.' ∨ c = '0' := by
    simpa [number, Pattern.begins, oneOf, Pattern.sequence, literal, merge, join, acceptsEmpty,
      Pattern.optional, digits, many, exponent, numberMark] using begins
  rcases cases with digit | dot | rfl
  · exact .inl digit
  · exact .inr dot
  · exact .inl rfl

theorem begins_operator {c : Char} (begins : operator.begins c = true) : c ∈ operatorSigns := by
  have cases : c ∈ operatorTexts.filterMap List.head? ∨ c = '%' := by
    simpa [operator, operatorTexts, percentOperator, Pattern.begins, oneOf, Pattern.sequence,
      literal, merge, join, acceptsEmpty] using begins
  have all : (operatorTexts.filterMap List.head?).all (· ∈ operatorSigns) = true := by decide
  rcases cases with listed | rfl
  · exact of_decide_eq_true (List.all_eq_true.mp all c listed)
  · decide

/-- The rules for names, for numbers and for operators. -/
def wordRules : List (TokenKind × Pattern) :=
  [(.identifier, identifier), (.number, number), (.operator, operator)]

/-- A rule that begins with no sign is for words. -/
theorem mem_wordRules {rule : TokenKind × Pattern} {c : Char} (member : rule ∈ tokenRules)
    (noSign : c ∉ signs) (begins : rule.2.begins c = true) : rule ∈ wordRules := by
  simp only [tokenRules, List.mem_cons, List.not_mem_nil, or_false] at member
  rcases member with rfl | rfl | rfl | rfl | rfl | rfl | rfl | rfl | rfl | rfl | rfl | rfl | rfl
    | rfl | rfl | rfl | rfl
  all_goals
    first
    | exact List.mem_cons_self
    | exact List.mem_cons_of_mem _ List.mem_cons_self
    | exact List.mem_cons_of_mem _ (List.mem_cons_of_mem _ List.mem_cons_self)
    | refine absurd ?_ noSign
      simp [Pattern.begins, oneOf, Pattern.sequence, literal, merge, join, acceptsEmpty,
        TokenRules.whitespace, lineBreak, comment, TokenRules.string, quoted, many, isBlank,
        Pattern.optional] at begins
      simp only [signs, List.mem_cons, List.not_mem_nil, or_false]
      grind

/-! ### Which rule stands for a word -/

theorem not_mem_signs_of_isLetter {c : Char} (letter : isLetter c = true) : c ∉ signs := by
  have none : signs.any isLetter = false := by decide
  exact fun member => List.any_eq_false.mp none c member letter

theorem not_mem_signs_of_isDigit {c : Char} (digit : isDigit c = true) : c ∉ signs := by
  have none : signs.any isDigit = false := by decide
  exact fun member => List.any_eq_false.mp none c member digit

/-- A text of one of the patterns for words. -/
def IsWord (word : Text) : Prop :=
  Matches identifier word ∨ Matches number word ∨ Matches operator word

/-- A word begins with no sign. -/
theorem IsWord.exists_cons {word : Text} (isWord : IsWord word) :
    ∃ c rest, word = c :: rest ∧ c ∉ signs := by
  cases word with
  | nil =>
    rw [IsWord, matches_nil_iff, matches_nil_iff, matches_nil_iff] at isWord
    exact absurd isWord (by decide)
  | cons c rest =>
    refine ⟨c, rest, rfl, ?_⟩
    rcases isWord with name | number | operator
    · rcases begins_identifier (begins_of_matches name) with letter | rfl | rfl
      · exact not_mem_signs_of_isLetter letter
      · decide
      · decide
    · rcases begins_number (begins_of_matches number) with digit | rfl
      · exact not_mem_signs_of_isDigit digit
      · decide
    · have none : operatorSigns.all (· ∉ signs) = true := by decide
      have sign := begins_operator (begins_of_matches operator)
      exact of_decide_eq_true (List.all_eq_true.mp none c sign)

theorem not_isDigit_of_isLetter {c : Char} (letter : isLetter c = true) : ¬ isDigit c = true := by
  simp only [isLetter, isDigit, Bool.or_eq_true, Bool.and_eq_true, decide_eq_true_eq, Char.le_def,
    UInt32.le_iff_toNat_le] at letter ⊢
  have small : '9'.val.toNat < 'A'.val.toNat := by decide
  have large : '9'.val.toNat < 'a'.val.toNat := by decide
  omega

/-- Behind a dot a number goes on with a digit, a name with none. -/
theorem not_matches_behind_dot {rest : Text} (name : Matches (identifier.after '.') rest) :
    ¬ Matches (number.after '.') rest := by
  intro found
  cases rest with
  | nil =>
    rw [matches_nil_iff] at found
    exact absurd found (by decide)
  | cons d rest =>
    have noDigit : isDigit '.' = false := by decide
    have noLetter : isLetter '.' = false := by decide
    have digit : isDigit d = true := by
      simpa [number, Pattern.after, Pattern.begins, oneOf, Pattern.sequence, literal, merge, join,
        acceptsEmpty, Pattern.optional, digits, many, exponent, numberMark, noDigit]
        using begins_of_matches found
    have tail : isDotTail d = true := by
      simpa [identifier, Pattern.after, Pattern.begins, oneOf, Pattern.sequence, literal, merge,
        join, acceptsEmpty, Pattern.optional, noLetter] using begins_of_matches name
    simp only [isDotTail, Bool.or_eq_true, beq_iff_eq] at tail
    rcases tail with (letter | rfl) | rfl
    · exact not_isDigit_of_isLetter letter digit
    · exact absurd digit (by decide)
    · exact absurd digit (by decide)

/-- No word is a name and a number. -/
theorem not_matches_number_of_identifier {word : Text} (name : Matches identifier word) :
    ¬ Matches number word := by
  intro found
  obtain ⟨c, rest, rfl, _⟩ := IsWord.exists_cons (.inl name)
  rcases begins_identifier (begins_of_matches name) with letter | rfl | rfl
  · rcases begins_number (begins_of_matches found) with digit | rfl
    · exact not_isDigit_of_isLetter letter digit
    · exact absurd letter (by decide)
  · have nameBehind := (matches_cons_iff _ _ _).mp name
    exact not_matches_behind_dot nameBehind ((matches_cons_iff _ _ _).mp found)
  · exact absurd (begins_number (begins_of_matches found)) (by decide)

/-- No word is an operator and something else. -/
theorem not_matches_operator {word : Text}
    (operand : Matches identifier word ∨ Matches number word) :
    ¬ Matches operator word := by
  intro found
  obtain ⟨c, rest, rfl, _⟩ := IsWord.exists_cons (.inr (.inr found))
  have noName : operatorSigns.any (fun c => isLetter c || c == '.' || c == '`') = false := by decide
  have noNumber : operatorSigns.any (fun c => isDigit c || c == '.') = false := by decide
  have sign := begins_operator (begins_of_matches found)
  rcases operand with name | number
  · refine List.any_eq_false.mp noName c sign ?_
    simpa [or_assoc] using begins_identifier (begins_of_matches name)
  · refine List.any_eq_false.mp noNumber c sign ?_
    simpa using begins_number (begins_of_matches number)

theorem kindOf?_eq_some {rules : List (TokenKind × Pattern)} {word : Text} {kind : TokenKind}
    (found : ∃ rule ∈ rules, Matches rule.2 word)
    (only : ∀ rule ∈ rules, Matches rule.2 word → rule.1 = kind) :
    kindOf? rules word = some kind := by
  cases first : kindOf? rules word with
  | none =>
    obtain ⟨rule, member, matched⟩ := found
    exact absurd matched (kindOf?_eq_none_iff.mp first rule member)
  | some other =>
    obtain ⟨rule, listed, rfl⟩ := Option.map_eq_some_iff.mp first
    have matched := List.find?_some listed
    rw [only rule (List.mem_of_find?_eq_some listed) ((accepts_iff _ _).mp matched)]

/-- Of a word only the rules for words are to be asked. -/
theorem kindOf?_of_isWord {word : Text} (isWord : IsWord word) {kind : TokenKind}
    {pattern : Pattern} (own : (kind, pattern) ∈ wordRules) (matched : Matches pattern word)
    (only : ∀ rule ∈ wordRules, Matches rule.2 word → rule.1 = kind) :
    kindOf? tokenRules word = some kind := by
  obtain ⟨c, rest, rfl, noSign⟩ := isWord.exists_cons
  have listed : ∀ rule ∈ wordRules, rule ∈ tokenRules := by
    simp [wordRules, tokenRules]
  refine kindOf?_eq_some ⟨_, listed _ own, matched⟩ fun rule member found => ?_
  exact only rule (mem_wordRules member noSign (begins_of_matches found)) found

theorem kindOf?_of_identifier {word : Text} (name : Matches identifier word) :
    kindOf? tokenRules word = some .identifier := by
  refine kindOf?_of_isWord (.inl name) List.mem_cons_self name ?_
  simp [wordRules, not_matches_number_of_identifier name, not_matches_operator (.inl name)]

theorem kindOf?_of_number {word : Text} (number : Matches TokenRules.number word) :
    kindOf? tokenRules word = some .number := by
  refine kindOf?_of_isWord (.inr (.inl number))
    (List.mem_cons_of_mem _ List.mem_cons_self) number ?_
  have noName : ¬ Matches identifier word :=
    fun name => not_matches_number_of_identifier name number
  simp [wordRules, noName, not_matches_operator (.inr number)]

theorem kindOf?_of_operator {word : Text} (operator : Matches TokenRules.operator word) :
    kindOf? tokenRules word = some .operator := by
  refine kindOf?_of_isWord (.inr (.inr operator))
    (List.mem_cons_of_mem _ (List.mem_cons_of_mem _ List.mem_cons_self)) operator ?_
  have noName : ¬ Matches identifier word := fun name => not_matches_operator (.inl name) operator
  have noNumber : ¬ Matches TokenRules.number word :=
    fun number => not_matches_operator (.inr number) operator
  simp [wordRules, noName, noNumber]

/-! ### Words with a blank or a bracket behind them -/

/-- Characters that are in no word but between quotes. -/
def breaks : List Char := [' ', '(', ')', '[', ']', ',']

/-- A word that begins with a quote ends with its second one. -/
def IsClosed (word : Text) : Prop :=
  ∀ quote, quote = '`' ∨ quote = '%' → word.head? = some quote →
    ∃ body, quote ∉ body ∧ word = quote :: body ++ [quote]

/-- A pattern that holds none of these characters stands for no text with one of them. -/
theorem not_matches_of_break {pattern : Pattern} {text : Text} {c : Char} (member : c ∈ breaks)
    (inside : c ∈ text) (none : breaks.any (fun c => pattern.holds c) = false) :
    ¬ Matches pattern text :=
  fun found => List.any_eq_false.mp none c member (holds_of_matches found inside)

/-- A name that goes on over one of these characters stands behind a backtick. -/
theorem quoted_of_break_identifier {text : Text} {c : Char} (member : c ∈ breaks)
    (inside : c ∈ text) (name : Matches identifier text) :
    ∃ body tail, text = '`' :: body ++ tail ∧ '`' ∉ body ∧ (tail = [] ∨ tail = ['`']) := by
  obtain ⟨choice, listed, found⟩ := matches_oneOf_iff.mp name
  simp only [List.mem_cons, List.not_mem_nil, or_false] at listed
  rcases listed with rfl | rfl | rfl | rfl
  · exact absurd found (not_matches_of_break member inside (by decide))
  · exact absurd found (not_matches_of_break member inside (by decide))
  · exact absurd found (not_matches_of_break member inside (by decide))
  obtain ⟨body, tail, rfl, inside, ends⟩ := exists_of_matches_quoted found
  refine ⟨body, tail, rfl, fun quote => absurd (inside _ quote) (by decide), ?_⟩
  rcases matches_alt_iff.mp (matches_sequence_singleton_iff.mp ends) with quote | none
  · exact .inr (eq_of_matches_literal quote)
  · exact .inl (matches_empty_iff.mp none)

theorem quoted_of_percentOperator {text : Text} (found : Matches percentOperator text) :
    ∃ body, '%' ∉ body ∧ text = '%' :: body ++ ['%'] := by
  obtain ⟨body, tail, rfl, inside, ends⟩ := exists_of_matches_quoted found
  rw [eq_of_matches_literal (matches_sequence_singleton_iff.mp ends)]
  exact ⟨body, fun quote => absurd (inside _ quote) (by decide), rfl⟩

/-- An operator that goes on over one of these characters stands between percent signs. -/
theorem quoted_of_break_operator {text : Text} {c : Char} (member : c ∈ breaks)
    (inside : c ∈ text) (found : Matches operator text) :
    ∃ body, '%' ∉ body ∧ text = '%' :: body ++ ['%'] := by
  rcases matches_merge_iff.mp found with fixed | percent
  · exact absurd fixed (not_matches_of_break member inside (by decide))
  · exact quoted_of_percentOperator percent

/-- An operator is closed. -/
theorem isClosed_of_operator {word : Text} (found : Matches operator word) : IsClosed word := by
  rintro quote kinds first
  obtain ⟨rest, rfl⟩ := List.head?_eq_some_iff.mp first
  rcases kinds with rfl | rfl
  · exact absurd (begins_operator (begins_of_matches found)) (by decide)
  · rcases matches_merge_iff.mp found with fixed | percent
    · exact absurd (begins_of_matches fixed) (by decide)
    · exact quoted_of_percentOperator percent

/-- A number is closed. -/
theorem isClosed_of_number {word : Text} (number : Matches TokenRules.number word) :
    IsClosed word := by
  rintro quote kinds first
  obtain ⟨rest, rfl⟩ := List.head?_eq_some_iff.mp first
  have begins := begins_number (begins_of_matches number)
  rcases kinds with rfl | rfl <;> exact absurd begins (by decide)

/-- What is closed and goes on is not the text between two quotes. -/
theorem IsClosed.ne_quoted {quote : Char} {word more body tail : Text} (closed : IsClosed word)
    (kinds : quote = '`' ∨ quote = '%') (nonempty : word ≠ []) (goesOn : more ≠ [])
    (free : quote ∉ body) (ends : tail = [] ∨ tail = [quote]) :
    word ++ more ≠ quote :: body ++ tail := by
  intro same
  obtain ⟨c, rest, rfl⟩ := List.exists_cons_of_ne_nil nonempty
  obtain ⟨rfl, _⟩ := List.cons.inj same
  obtain ⟨inner, notIn, shape⟩ := closed c kinds rfl
  rw [shape, List.cons_append, List.cons_append, List.cons_append, List.append_assoc] at same
  exact goesOn (eq_nil_of_quoted notIn free ends (List.cons.inj same).2)

/-- **No word goes on behind a blank or a bracket.** -/
theorem kindOf?_append_break {word : Text} {d : Char} (more : Text) (isWord : IsWord word)
    (closed : IsClosed word) (ends : d ∈ breaks) :
    kindOf? tokenRules (word ++ d :: more) = none := by
  obtain ⟨c, rest, rfl, noSign⟩ := isWord.exists_cons
  have inside : d ∈ c :: rest ++ d :: more := List.mem_append_right _ List.mem_cons_self
  have goesOn : d :: more ≠ [] := List.cons_ne_nil _ _
  rw [kindOf?_eq_none_iff]
  intro rule member found
  have isRule := mem_wordRules member noSign (begins_of_matches found)
  simp only [wordRules, List.mem_cons, List.not_mem_nil, or_false] at isRule
  rcases isRule with rfl | rfl | rfl
  · obtain ⟨body, tail, shape, free, ends⟩ := quoted_of_break_identifier ends inside found
    exact closed.ne_quoted (.inl rfl) (List.cons_ne_nil _ _) goesOn free ends shape
  · exact absurd found (not_matches_of_break ends inside (by decide))
  · obtain ⟨body, free, shape⟩ := quoted_of_break_operator ends inside found
    exact closed.ne_quoted (.inr rfl) (List.cons_ne_nil _ _) goesOn free (.inr rfl) shape

/-- **A blank in front of a word goes on no further.** -/
theorem kindOf?_blank {c : Char} (more : Text) (noSign : c ∉ signs) :
    kindOf? tokenRules (' ' :: c :: more) = none := by
  rw [kindOf?_eq_none_iff]
  intro rule member found
  have begins := begins_of_matches found
  have holds := holds_of_matches found (List.mem_cons_of_mem _ List.mem_cons_self)
  simp only [tokenRules, List.mem_cons, List.not_mem_nil, or_false] at member
  rcases member with rfl | others
  · have blank : isBlank c = true := by
      simpa [TokenRules.whitespace, many, Pattern.holds] using holds
    simp only [isBlank, Bool.or_eq_true, beq_iff_eq] at blank
    rcases blank with (rfl | rfl) | rfl <;> exact absurd noSign (by decide)
  · rcases others with rfl | rfl | rfl | rfl | rfl | rfl | rfl | rfl | rfl | rfl | rfl | rfl | rfl
      | rfl | rfl | rfl <;> exact absurd begins (by decide)

end RSource
