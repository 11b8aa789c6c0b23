/-
**A text goes on behind a line without problems.**

Two texts are put together with a line feed between them that is in no token but a line break. The
first was read without problems. Then the lexer starts anew behind the line break
(`exists_junction`), the statements of the first text are read as before, because nothing goes on
with a line break (`Derives.edited`), and those of the second are read as they are alone, only
further on (`Derives.relocated`): what was read so far does not matter to the statements that follow
(`Derives.listing_append`). The second half needs only the lexemes behind the line break
(`Resumes.derives`). Main statement: `Reading.lineByLine`.
-/

import RSource.Proofs.Grammar.Balance
import RSource.Proofs.Grammar.Edited
import RSource.Proofs.Grammar.Extent
import RSource.Proofs.Grammar.Relocation
import RSource.Proofs.Snapshots

namespace RSource

open Grammar Reader Cursor

/-! ### Statements behind statements -/

/-- A cursor is known by its items and what is left of them. -/
theorem Cursor.eq_of_rest {α : Type} {first second : Cursor α} (items : first.items = second.items)
    (rest : first.rest = second.rest) (mark : first.mark = second.mark) : first = second := by
  obtain ⟨passed, left, own⟩ := first
  obtain ⟨passed', left', own'⟩ := second
  obtain rfl : left = left' := rest
  obtain rfl : own = own' := mark
  obtain rfl : passed = passed' := List.reverse_injective (List.append_cancel_right items)
  rfl

/-- **Statements go on behind others**, where both readings stand in front of the same token. -/
theorem Grammar.Derives.listing_append {terminator : Option TokenKind} {levels : Nat} {mode : Mode}
    {first middle start last : Cursor Lexeme} {before behind : List Part}
    (front : Derives (.listing terminator levels) mode first before middle)
    (run : Derives (.listing terminator levels) mode start behind last)
    (same : pastSeparators start = pastSeparators middle) :
    ∃ final, Derives (.listing terminator levels) mode first (before ++ behind) final
      ∧ pastSeparators final = pastSeparators last := by
  generalize shape : Phrase.listing terminator levels = phrase at run
  induction run with
  | listingStart =>
    cases shape
    rw [List.append_nil]
    exact ⟨middle, front, same.symm⟩
  | stray _ goesOn closed previous =>
    cases shape
    obtain ⟨final, listing, here⟩ := previous front same rfl
    rw [← here] at goesOn closed ⊢
    rw [← List.append_assoc]
    exact ⟨_, .stray listing goesOn closed, rfl⟩
  | unreadable _ goesOn noBrace failed previous _ =>
    cases shape
    obtain ⟨final, listing, here⟩ := previous front same rfl
    rw [← here] at goesOn noBrace failed ⊢
    rw [← List.append_assoc]
    exact ⟨_, .unreadable listing goesOn noBrace failed, rfl⟩
  | listed _ goesOn noBrace statement separated previous _ =>
    cases shape
    obtain ⟨final, listing, here⟩ := previous front same rfl
    rw [← here] at goesOn noBrace statement
    rw [← List.append_assoc]
    exact ⟨_, .listed listing goesOn noBrace statement separated, rfl⟩
  | crowded _ goesOn noBrace statement crowded previous _ =>
    cases shape
    obtain ⟨final, listing, here⟩ := previous front same rfl
    rw [← here] at goesOn noBrace statement
    rw [← List.append_assoc]
    exact ⟨_, .crowded listing goesOn noBrace statement crowded, rfl⟩
  | _ => cases shape

/-- All statements of a text, up to the separators behind the last one. -/
theorem Derivation.exists_listing {text : Text} {items : List Part} {last : Cursor Lexeme}
    (derivation : Derivation text items last) :
    ∃ middle, Derives (.listing none maxNesting) .outermost (beginning text) items middle
      ∧ ∀ lexeme ∈ middle.rest, isSeparator lexeme = true := by
  have separators := derivation.rest
  cases derivation.derives with
  | @statements _ _ _ _ middle _ listing _ =>
    exact ⟨middle, listing, List.dropWhile_eq_nil_iff.mp separators⟩

/-! ### What stands behind a line break -/

/-- A text that goes on behind a line break with the lexemes of another one, moved on. -/
structure Resumes (text behind : Text) (front : List Lexeme) (broken : Lexeme) (offset : Nat) :
    Prop where
  whole : lexemes text = front ++ broken :: (lexemes behind).map (·.shift offset)
  breaks : broken.kind = .lineBreak
  size : text.bytes = behind.bytes + offset

namespace Resumes

variable {text behind : Text} {front : List Lexeme} {broken : Lexeme} {offset : Nat}
  (resumes : Resumes text behind front broken offset)

/-- The second text, behind what stands in front of it. -/
def move : Relocation where
  offset := offset
  before := broken :: ((front.filter (!·.isWhitespace)).filter (!·.isComment)).reverse
  plain lexeme head := by
    cases head
    rw [resumes.breaks]
    nofun

include resumes

theorem significant_eq :
    significant text = (front.filter (!·.isWhitespace)).filter (!·.isComment)
      ++ broken :: (significant behind).map (·.shift offset) := by
  have moved : (((lexemes behind).map (·.shift offset)).filter
      (!·.isWhitespace)).filter (!·.isComment) = (significant behind).map (·.shift offset) := by
    rw [List.filter_map, List.filter_map]
    rfl
  rw [significant, resumes.whole, List.filter_append, List.filter_append, List.filter_cons_of_pos,
    List.filter_cons_of_pos, moved]
  · simp [Lexeme.isComment, resumes.breaks]
  · simp [Lexeme.isWhitespace, resumes.breaks]

theorem comments_eq :
    (read text).comments = (front.filter (·.isComment)).map (·.token)
      ++ (read behind).comments.map (·.shift offset) := by
  have moved : (((lexemes behind).map (·.shift offset)).filter (·.isComment)).map (·.token)
      = (((lexemes behind).filter (·.isComment)).map (·.token)).map (·.shift offset) := by
    rw [List.filter_map, List.map_map, List.map_map]
    rfl
  show ((lexemes text).filter (·.isComment)).map (·.token) = _
  rw [resumes.whole, List.filter_append,
    List.filter_cons_of_neg (by simp [Lexeme.isComment, resumes.breaks]), List.map_append, moved]
  rfl

/-- Both cursors are over the tokens of the whole text. -/
theorem items_move : (resumes.move.cursor (beginning behind)).items = significant text := by
  rw [resumes.significant_eq]
  simp [Relocation.cursor, Cursor.items, beginning, Cursor.ofList, move]

/-- **The statements of the second text follow those read up to the line break.** -/
theorem derives {items others : List Part} {middle last : Cursor Lexeme}
    (listing : Derives (.listing none maxNesting) .outermost (beginning text) items middle)
    (ended : (pastSeparators middle).rest
      = ((significant behind).map (·.shift offset)).dropWhile isSeparator)
    (second : Derivation behind others last) :
    ∃ final, Derives (.statements none maxNesting) .outermost (beginning text)
      (items ++ Tree.shiftParts offset others) final := by
  obtain ⟨consumed, moved, _⟩ := listing.accounts rfl
  have same : pastSeparators (resumes.move.cursor (beginning behind)) = pastSeparators middle := by
    refine Cursor.eq_of_rest ?_ ended.symm ?_
    · rw [pastSeparators, pastSeparators, (moves_skipWhile _ _).items, (moves_skipWhile _ _).items,
        resumes.items_move, moved.items]
      rfl
    · rw [pastSeparators_mark, pastSeparators_mark, moved.mark]
      show (Lexeme.endMark behind.bytes).shift offset = .endMark text.bytes
      rw [resumes.size]
      rfl
  cases second.derives with
  | statements following ends =>
    have relocated := following.relocated resumes.move trivial
    obtain ⟨final, both, here⟩ := listing.listing_append relocated same
    refine ⟨_, .statements both ?_⟩
    rwa [here, resumes.move.pastSeparators_cursor, resumes.move.look_cursor]

end Resumes

namespace Junction

variable {before behind : Text} {kept ended : List Lexeme} {broken : Lexeme}
  (junction : Junction before behind kept ended broken)

/-! ### The tokens of both texts -/

/-- The first text, in front of the second one. -/
def edit : Edit where
  keeps lexeme := decide (lexeme ∉ ended)
  more := broken :: (significant behind).map (·.shift (before.bytes + 1))
  mark := .endMark (before ++ '\n' :: behind).bytes
  kept lexeme token := by
    rw [decide_eq_true_iff]
    intro member
    have breaks := junction.breaks lexeme (List.mem_cons_of_mem _ member)
    rw [isLineBreak, breaks] at token
    cases token
  marked := rfl

include junction

theorem resumes : Resumes (before ++ '\n' :: behind) behind kept broken (before.bytes + 1) where
  whole := junction.whole
  breaks := junction.breaks broken List.mem_cons_self
  size := by
    have narrow : '\n'.utf8Size = 1 := by decide
    rw [Text.bytes_append, Text.bytes_cons]
    omega

theorem significant_before :
    significant before = (kept.filter (!·.isWhitespace)).filter (!·.isComment) ++ ended := by
  have all : (ended.filter (!·.isWhitespace)).filter (!·.isComment) = ended := by
    rw [List.filter_filter, List.filter_eq_self]
    intro lexeme member
    have breaks := junction.breaks lexeme (List.mem_cons_of_mem _ member)
    simp [Lexeme.isWhitespace, Lexeme.isComment, breaks]
  rw [significant, junction.first, List.filter_append, List.filter_append, all]

/-- The tokens left out stand behind those kept. -/
theorem filter_significant :
    (significant before).filter junction.edit.keeps
      = (kept.filter (!·.isWhitespace)).filter (!·.isComment) := by
  have apart := junction.first ▸ lexemes_ordered before
  rw [List.pairwise_append] at apart
  have stays : ((kept.filter (!·.isWhitespace)).filter (!·.isComment)).filter junction.edit.keeps
      = (kept.filter (!·.isWhitespace)).filter (!·.isComment) := by
    refine List.filter_eq_self.mpr fun lexeme member => decide_eq_true fun left => ?_
    have inKept := List.mem_of_mem_filter (List.mem_of_mem_filter member)
    exact Nat.lt_irrefl _ (apart.2.2 lexeme inKept lexeme left)
  have goes : ended.filter junction.edit.keeps = [] := by
    refine List.filter_eq_nil_iff.mpr fun lexeme member => ?_
    simp [edit, member]
  rw [junction.significant_before, List.filter_append, stays, goes, List.append_nil]

theorem significant_append :
    significant (before ++ '\n' :: behind) = junction.edit.list (significant before) := by
  rw [Edit.list, junction.filter_significant, junction.resumes.significant_eq]
  rfl

theorem edit_beginning :
    junction.edit.cursor (beginning before) = beginning (before ++ '\n' :: behind) := by
  rw [beginning, beginning, junction.significant_append]
  rfl

/-- Behind a token left out there are only others left out. -/
theorem mem_ended {lexeme other : Lexeme} {tail : List Lexeme} (left : lexeme ∈ ended)
    (suffix : lexeme :: tail <:+ significant before) (further : other ∈ tail) : other ∈ ended := by
  have order := (significant_ordered before).sublist suffix.sublist
  have later := List.rel_of_pairwise_cons order further
  have apart := junction.significant_before ▸ significant_ordered before
  have inside : other ∈ significant before := suffix.subset (List.mem_cons_of_mem _ further)
  rw [junction.significant_before] at inside
  rcases List.mem_append.mp inside with inKept | inEnded
  · have sooner := (List.pairwise_append.mp apart).2.2 other inKept lexeme left
    omega
  · exact inEnded

/-! ### The statements of the first text -/

/-- Behind each statement there is a line break in the place of the end. -/
theorem closes (statement : Tree) : junction.edit.Closes (significant before) statement := by
  intro leaf _ gap tail suffix _ unreadable lexeme shown
  cases tail with
  | nil =>
    cases shown
    exact isReadable_eq_false_iff.mpr (.inl (junction.breaks broken List.mem_cons_self))
  | cons own others =>
    rw [Edit.list, List.filter_cons] at shown
    split at shown
    · cases shown
      exact unreadable lexeme rfl
    · rename_i gone
      have left : own ∈ ended := by simpa [edit] using gone
      have behind := (List.suffix_append (leaf :: gap) (own :: others)).trans suffix
      have none : others.filter junction.edit.keeps = [] := by
        refine List.filter_eq_nil_iff.mpr fun other further => ?_
        simp [edit, junction.mem_ended left behind further]
      rw [none] at shown
      cases shown
      exact isReadable_eq_false_iff.mpr (.inl (junction.breaks _ List.mem_cons_self))

theorem fits {items : List Part} (clean : Tree.partsProblems items = []) :
    ∀ part ∈ items, junction.edit.Fits (significant before) part := by
  intro part member
  cases part with
  | problem found skipped =>
    rw [Tree.partsProblems_eq_flatMap, List.flatMap_eq_nil_iff] at clean
    exact List.cons_ne_nil _ _ (clean _ member)
  | child role tree =>
    refine ⟨Tree.problems_of_child clean member, fun node _ => ?_⟩
    cases node with
    | leaf _ | cut _ _ => trivial
    | node form span parts =>
      cases form <;> first | trivial | exact fun statement _ => junction.closes statement

/-! ### The statements of both texts -/

/-- **The statements of the second text follow those of the first**, when these are read up to the
line break. -/
theorem derives_of_listing {items others : List Part} {middle last : Cursor Lexeme}
    (front : Derives (.listing none maxNesting) .outermost
      (junction.edit.cursor (beginning before)) items (junction.edit.cursor middle))
    (ended : ∀ lexeme ∈ middle.rest, isSeparator lexeme = true)
    (second : Derivation behind others last) :
    ∃ final, Derives (.statements none maxNesting) .outermost
      (beginning (before ++ '\n' :: behind))
      (items ++ Tree.shiftParts (before.bytes + 1) others) final := by
  have separates : isSeparator broken = true :=
    isSeparator_of_isLineBreak (beq_iff_eq.mpr junction.resumes.breaks)
  rw [junction.edit_beginning] at front
  refine junction.resumes.derives front ?_ second
  rw [Edit.pastSeparators_cursor_rest ended]
  exact List.dropWhile_cons_of_pos separates

/-- So it is where the first text has no problems. -/
theorem derives {items others : List Part} {middle last : Cursor Lexeme}
    (first : Derivation before items middle) (second : Derivation behind others last)
    (clean : (read before).problems = []) :
    ∃ final, Derives (.statements none maxNesting) .outermost
      (beginning (before ++ '\n' :: behind))
      (items ++ Tree.shiftParts (before.bytes + 1) others) final := by
  rw [Reading.problems, first.tree] at clean
  obtain ⟨middle, listing, separators⟩ := first.exists_listing
  refine junction.derives_of_listing ?_ separators second
  exact listing.edited ⟨rfl, rfl⟩ (junction.fits clean)
    ⟨rfl, fun inside => absurd inside (Nat.lt_irrefl 0), fun _ _ => junction.closes _⟩

/-! ### Comments -/

theorem comments_append :
    (read (before ++ '\n' :: behind)).comments
      = (read before).comments ++ (read behind).comments.map (·.shift (before.bytes + 1)) := by
  have none : ended.filter (·.isComment) = [] := by
    refine List.filter_eq_nil_iff.mpr fun lexeme member => ?_
    simp [Lexeme.isComment, junction.breaks lexeme (List.mem_cons_of_mem _ member)]
  rw [junction.resumes.comments_eq]
  show _ = ((lexemes before).filter (·.isComment)).map (·.token) ++ _
  rw [junction.first, List.filter_append, none, List.append_nil]

end Junction

/-- What is read of both texts, when the statements of the second one follow those of the first. -/
theorem Grammar.Derives.reads_append {before behind : Text} {items others : List Part}
    {middle last final : Cursor Lexeme} (first : Derivation before items middle)
    (second : Derivation behind others last)
    (derives : Derives (.statements none maxNesting) .outermost
      (beginning (before ++ '\n' :: behind))
      (items ++ Tree.shiftParts (before.bytes + 1) others) final) :
    (read (before ++ '\n' :: behind)).document.snapshot.children
        = (read before).document.snapshot.children
          ++ (read behind).document.snapshot.children.map (·.shift (before.bytes + 1))
      ∧ (read (before ++ '\n' :: behind)).problems
        = (read before).problems
          ++ (read behind).problems.map (·.shift (before.bytes + 1)) := by
  have both := derivation_of_derives derives
  constructor
  · have split : before ++ '\n' :: behind = before ++ ['\n'] ++ behind := by simp
    have size : before.bytes + 1 = (before ++ ['\n']).bytes := by
      rw [Text.bytes_append]
      rfl
    rw [Reading.children_snapshot both, Reading.children_snapshot first,
      Reading.children_snapshot second, Tree.partsSnapshots_append,
      Tree.partsSnapshots_append_left _ _ (Reading.span_le first), split, size,
      Tree.partsSnapshots_append_right]
  · rw [Reading.problems, Reading.problems, Reading.problems, both.tree, first.tree, second.tree]
    simp only [Tree.problems_node]
    rw [Tree.partsProblems_append, Tree.partsProblems_shiftParts]

/-- **Statements without problems stay as they are in front of a line break, and other statements
follow them.** -/
theorem Reading.lineByLine {before behind : Text} (clean : (read before).problems = [])
    (broken : ∃ lexeme ∈ lexemes (before ++ '\n' :: behind), lexeme.kind = .lineBreak
      ∧ lexeme.start ≤ before.bytes ∧ before.bytes < lexeme.stop) :
    (read (before ++ '\n' :: behind)).document.snapshot.children
        = (read before).document.snapshot.children
          ++ (read behind).document.snapshot.children.map (·.shift (before.bytes + 1))
      ∧ (read (before ++ '\n' :: behind)).problems
        = (read behind).problems.map (·.shift (before.bytes + 1))
      ∧ (read (before ++ '\n' :: behind)).document.comments
        = (read before).document.comments
          ++ (read behind).document.comments.map (·.shift (before.bytes + 1)) := by
  obtain ⟨lexeme, member, kind, begins, covers⟩ := broken
  obtain ⟨kept, ended, broken, junction⟩ :=
    exists_junction (openedBehind_lexemes clean) member kind begins covers
  obtain ⟨items, middle, first⟩ := Reading.derivation before
  obtain ⟨others, last, second⟩ := Reading.derivation behind
  obtain ⟨final, derives⟩ := junction.derives first second clean
  obtain ⟨children, problems⟩ := derives.reads_append first second
  rw [clean, List.nil_append] at problems
  exact ⟨children, problems, junction.comments_append⟩

/-- An `else` that begins a line belongs to no `if` above it. The carriage return that ends the
first text is part of the line break, and both lines end with a comment. -/
theorem Reading.lineByLine_else :
    let before : Text := "if (x) y # a\r".toList
    let behind : Text := "else z # b".toList
    (read before).problems = []
      ∧ (∃ lexeme ∈ lexemes (before ++ '\n' :: behind), lexeme.kind = .lineBreak
        ∧ lexeme.start ≤ before.bytes ∧ before.bytes < lexeme.stop)
      ∧ (read (before ++ '\n' :: behind)).document.snapshot.children
        = (read before).document.snapshot.children
          ++ (read behind).document.snapshot.children.map (·.shift (before.bytes + 1))
      ∧ (read behind).problems = [⟨.unexpectedToken, ⟨.keyword, 0, 4⟩⟩]
      ∧ (read (before ++ '\n' :: behind)).problems = [⟨.unexpectedToken, ⟨.keyword, 14, 4⟩⟩]
      ∧ (read (before ++ '\n' :: behind)).document.comments
        = [⟨.comment, 9, 3⟩, ⟨.comment, 21, 3⟩] := by
  intro before behind
  have clean : (read before).problems = [] := by decide
  have broken : ∃ lexeme ∈ lexemes (before ++ '\n' :: behind), lexeme.kind = .lineBreak
      ∧ lexeme.start ≤ before.bytes ∧ before.bytes < lexeme.stop := by decide
  have alone : (read behind).problems = [⟨.unexpectedToken, ⟨.keyword, 0, 4⟩⟩] := by decide
  obtain ⟨children, problems, comments⟩ := Reading.lineByLine clean broken
  rw [problems, comments, alone]
  exact ⟨clean, broken, children, rfl, rfl, by decide⟩

end RSource
