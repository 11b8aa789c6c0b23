/-
**Lexemes stand one behind the other.**

Every piece that the lexer cuts off holds a character and has a kind of its rules, so the lexemes of
a text begin at strictly increasing offsets and none of them is the mark at the end. Main
statements: `lexemes_ordered`, `lexemes_apart` and `kind_of_mem_lexemes`.
-/

import RSource.Token.Lexer

namespace RSource

namespace Lexer

/-! ### Kinds -/

/-- Reading a character opens no new rule. -/
theorem exists_of_mem_advance {c : Char} {rules : List (TokenKind × Pattern)}
    {rule : TokenKind × Pattern} (still : rule ∈ advance c rules) :
    ∃ pattern, (rule.1, pattern) ∈ rules := by
  obtain ⟨other, member, rfl⟩ := List.mem_map.mp (List.mem_filter.mp still).1
  exact ⟨other.2, member⟩

theorem exists_of_accepted? {rules : List (TokenKind × Pattern)} {kind : TokenKind}
    (found : accepted? rules = some kind) : ∃ pattern, (kind, pattern) ∈ rules := by
  obtain ⟨rule, first, rfl⟩ := Option.map_eq_some_iff.mp found
  exact ⟨rule.2, List.mem_of_find?_eq_some first⟩

/-- The kind of the longest complete text is that of a rule. -/
theorem exists_of_scan_longest {rules : List (TokenKind × Pattern)} {text : Text}
    {kind : TokenKind} {count : Nat} (found : (scan rules text).longest = some (kind, count)) :
    ∃ pattern, (kind, pattern) ∈ rules := by
  induction text generalizing rules count with
  | nil => simp [scan] at found
  | cons c rest previous =>
    have open_of_still {pattern : Pattern} (still : (kind, pattern) ∈ advance c rules) :
        ∃ pattern, (kind, pattern) ∈ rules := exists_of_mem_advance still
    unfold scan at found
    simp only at found
    split at found
    · simp at found
    simp only at found
    split at found
    · rename_i further
      cases found
      obtain ⟨pattern, still⟩ := previous further
      exact open_of_still still
    · obtain ⟨other, first, same⟩ := Option.map_eq_some_iff.mp found
      cases same
      obtain ⟨pattern, still⟩ := exists_of_accepted? first
      exact open_of_still still

/-- No rule gives the mark at the end. -/
theorem kind_ne_endOfStream_of_mem_tokenRules {rule : TokenKind × Pattern}
    (member : rule ∈ tokenRules) : rule.1 ≠ .endOfStream := by
  simp only [tokenRules, List.mem_cons, List.not_mem_nil, or_false] at member
  rcases member with rfl | rfl | rfl | rfl | rfl | rfl | rfl | rfl | rfl | rfl | rfl | rfl | rfl
    | rfl | rfl | rfl | rfl <;> nofun

/-- A word is a name or reserved. -/
theorem classifyWord_of_reserved (property : TokenKind → Prop) (name : property .identifier)
    (reserved : ∀ entry ∈ reservedWords, property entry.2) (word : Text) :
    property (classifyWord word) := by
  unfold classifyWord
  cases found : reservedWords.lookup word with
  | none => exact name
  | some other =>
    obtain ⟨before, after, shape, _⟩ := List.lookup_eq_some_iff.mp found
    exact reserved (word, other) (by simp [shape])

/-! ### Pieces -/

/-- A piece holds a character and is not the mark at the end. -/
def IsProper (piece : Piece) : Prop := piece.2 ≠ [] ∧ piece.1 ≠ .endOfStream

theorem isProper_unknown {text : Text} :
    ∀ piece ∈ text.map fun c => ((.unknown, [c]) : Piece), IsProper piece := by
  intro piece member
  obtain ⟨c, _, rfl⟩ := List.mem_map.mp member
  exact ⟨nofun, nofun⟩

theorem isProper_of_mem_settle {kind : TokenKind} {word : Text} (opened : List TokenKind)
    (nonempty : word ≠ []) (token : kind ≠ .endOfStream) :
    ∀ piece ∈ (settle kind word opened).pieces, IsProper piece := by
  obtain ⟨c, others, rfl⟩ := List.exists_cons_of_ne_nil nonempty
  unfold settle
  split
  · simpa [IsProper] using
      classifyWord_of_reserved (· ≠ .endOfStream) (by decide) (by decide) (c :: others)
  all_goals simp [IsProper, token]

theorem isProper_of_mem_step (opened : List TokenKind) {text : Text} (nonempty : text ≠ []) :
    ∀ piece ∈ (step opened text).pieces, IsProper piece := by
  unfold step
  simp only
  split
  · rename_i kind count found
    have positive := scan_longest_pos found
    obtain ⟨pattern, rule⟩ := exists_of_scan_longest found
    refine isProper_of_mem_settle opened ?_ (kind_ne_endOfStream_of_mem_tokenRules rule)
    rw [ne_eq, List.take_eq_nil_iff, not_or]
    exact ⟨Nat.ne_of_gt positive, nonempty⟩
  · exact isProper_unknown

/-- What holds of unknown characters and of the pieces of each step holds of all pieces. -/
theorem forall_mem_pieces {property : Piece → Prop} (unknown : ∀ c, property (.unknown, [c]))
    (steps : ∀ opened {text : Text}, text ≠ [] → ∀ piece ∈ (step opened text).pieces,
      property piece) (bound : Text) (opened : List TokenKind) (text : Text) :
    ∀ piece ∈ pieces bound opened text, property piece := by
  induction bound generalizing opened text with
  | nil =>
    cases text with
    | nil => simp [pieces]
    | cons c rest => simpa [pieces] using ⟨unknown c, fun other _ => unknown other⟩
  | cons _ bound previous =>
    cases text with
    | nil => simp [pieces]
    | cons c rest =>
      intro piece member
      rw [pieces, List.mem_append] at member
      rcases member with front | further
      · exact steps opened (List.cons_ne_nil c rest) piece front
      · exact previous _ _ piece further

theorem isProper_of_mem_pieces (bound : Text) (opened : List TokenKind) (text : Text) :
    ∀ piece ∈ pieces bound opened text, IsProper piece :=
  forall_mem_pieces (fun _ => ⟨nofun, nofun⟩) isProper_of_mem_step bound opened text

/-! ### Places -/

/-- Placing changes no piece. -/
theorem map_place (start : Nat) (list : List Piece) :
    (place start list).map (fun lexeme => (lexeme.kind, lexeme.text)) = list := by
  induction list generalizing start with
  | nil => rfl
  | cons piece rest previous => simp [place, previous]

theorem map_kind_place (start : Nat) (list : List Piece) :
    (place start list).map (·.kind) = list.map (·.1) := by
  have kinds := congrArg (List.map (·.1)) (map_place start list)
  rwa [List.map_map] at kinds

theorem mem_of_mem_place {start : Nat} {list : List Piece} {lexeme : Lexeme}
    (member : lexeme ∈ place start list) : (lexeme.kind, lexeme.text) ∈ list := by
  rw [← map_place start list]
  exact List.mem_map_of_mem member

theorem exists_of_mem_place {start : Nat} {list : List Piece} {lexeme : Lexeme}
    (member : lexeme ∈ place start list) :
    ∃ front back, list = front ++ (lexeme.kind, lexeme.text) :: back
      ∧ lexeme.start = start + (texts front).bytes := by
  induction list generalizing start with
  | nil => exact absurd member List.not_mem_nil
  | cons piece rest previous =>
    rw [place, List.mem_cons] at member
    rcases member with rfl | further
    · exact ⟨[], rest, rfl, rfl⟩
    · obtain ⟨front, back, rfl, begins⟩ := previous further
      refine ⟨piece :: front, back, rfl, ?_⟩
      rw [begins, texts, texts, List.flatMap_cons, Text.bytes_append, Nat.add_assoc]

theorem le_start_of_mem_place {start : Nat} {list : List Piece} {lexeme : Lexeme}
    (member : lexeme ∈ place start list) : start ≤ lexeme.start := by
  induction list generalizing start with
  | nil => simp [place] at member
  | cons piece rest previous =>
    rw [place, List.mem_cons] at member
    rcases member with rfl | behind
    · exact Nat.le_refl _
    · exact Nat.le_trans (Nat.le_add_right _ _) (previous behind)

theorem place_ordered (start : Nat) {list : List Piece} (proper : ∀ piece ∈ list, IsProper piece) :
    (place start list).Pairwise (·.start < ·.start) := by
  induction list generalizing start with
  | nil => exact List.Pairwise.nil
  | cons piece rest previous =>
    rw [List.forall_mem_cons] at proper
    refine List.Pairwise.cons (fun lexeme behind => ?_) (previous _ proper.2)
    have further := le_start_of_mem_place behind
    have positive := Text.bytes_pos proper.1.1
    show start < lexeme.start
    omega

/-- No lexeme reaches into the next one. -/
theorem place_apart (start : Nat) (list : List Piece) :
    (place start list).Pairwise (·.stop ≤ ·.start) := by
  induction list generalizing start with
  | nil => exact List.Pairwise.nil
  | cons piece rest previous =>
    exact List.Pairwise.cons (fun lexeme behind => le_start_of_mem_place behind) (previous _)

theorem stop_le_of_mem_place {start : Nat} {list : List Piece} {lexeme : Lexeme}
    (member : lexeme ∈ place start list) : lexeme.stop ≤ start + (texts list).bytes := by
  induction list generalizing start with
  | nil => simp [place] at member
  | cons piece rest previous =>
    rw [texts, List.flatMap_cons, Text.bytes_append, ← texts, ← Nat.add_assoc]
    rw [place, List.mem_cons] at member
    rcases member with rfl | behind
    · exact Nat.le_add_right _ _
    · exact previous behind

end Lexer

/-- A lexeme is a part of the text that was cut, wherever that begins. -/
theorem exists_of_mem_lexemesFrom {start : Nat} {text : Text} {lexeme : Lexeme}
    (member : lexeme ∈ lexemesFrom start text) :
    ∃ before behind, text = before ++ lexeme.text ++ behind
      ∧ lexeme.start = start + before.bytes := by
  obtain ⟨front, back, shape, begins⟩ := Lexer.exists_of_mem_place member
  refine ⟨Lexer.texts front, Lexer.texts back, ?_, begins⟩
  rw [← Lexer.texts_pieces text [] text, shape, Lexer.texts_append, List.append_assoc]
  rfl

/-- **A lexeme is a part of its text, at its place.** -/
theorem exists_of_mem_lexemes {text : Text} {lexeme : Lexeme} (member : lexeme ∈ lexemes text) :
    ∃ before behind, text = before ++ lexeme.text ++ behind ∧ lexeme.start = before.bytes := by
  obtain ⟨before, behind, shape, start⟩ := exists_of_mem_lexemesFrom member
  exact ⟨before, behind, shape, start.trans (Nat.zero_add _)⟩

/-- **Lexemes begin at strictly increasing offsets.** -/
theorem lexemes_ordered (text : Text) : (lexemes text).Pairwise (·.start < ·.start) :=
  Lexer.place_ordered 0 (Lexer.isProper_of_mem_pieces text [] text)

/-- **Each lexeme ends where the next one begins, or before.** -/
theorem lexemes_apart (text : Text) : (lexemes text).Pairwise (·.stop ≤ ·.start) :=
  Lexer.place_apart 0 _

/-- Lexemes lie in their text. -/
theorem stop_le_of_mem_lexemes {text : Text} {lexeme : Lexeme} (member : lexeme ∈ lexemes text) :
    lexeme.stop ≤ text.bytes := by
  have inside := Lexer.stop_le_of_mem_place member
  rwa [Lexer.texts_pieces, Nat.zero_add] at inside

/-- A lexeme holds a character. -/
theorem start_lt_stop_of_mem_lexemes {text : Text} {lexeme : Lexeme}
    (member : lexeme ∈ lexemes text) : lexeme.start < lexeme.stop :=
  Nat.lt_add_of_pos_right (Text.bytes_pos
    (Lexer.isProper_of_mem_pieces text [] text _ (Lexer.mem_of_mem_place member)).1)

/-- **No lexeme is the mark at the end.** -/
theorem kind_of_mem_lexemesFrom {start : Nat} {text : Text} {lexeme : Lexeme}
    (member : lexeme ∈ lexemesFrom start text) : lexeme.kind ≠ .endOfStream :=
  (Lexer.isProper_of_mem_pieces text [] text _ (Lexer.mem_of_mem_place member)).2

theorem kind_of_mem_lexemes {text : Text} {lexeme : Lexeme} (member : lexeme ∈ lexemes text) :
    lexeme.kind ≠ .endOfStream := kind_of_mem_lexemesFrom member

end RSource
