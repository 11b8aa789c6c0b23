/-
**No token is lost between two cursors.**

`Cursor.Moves first last passed` says which items lie between two places of a cursor. A tree holds
its leaves and the tokens passed over (`Tree.tokens`); `Keeps` says that these are all the tokens
read, line breaks and semicolons apart. Main statements: `Derives.accounts`, the parts that a phrase
gives keep the tokens it moved over; `Derives.stays`, a phrase that gives no tree has moved over
ignored line breaks only; `Derives.partsTokens_ne_nil`, one that gives a tree holds a token.
-/

import RSource.Proofs.Grammar.Derivation
import Mathlib.Data.List.DropRight

namespace RSource

/-! ### Moving a cursor -/

namespace Cursor

variable {α : Type}

/-- The cursor `last` is `first` moved over the items `taken`. -/
structure Moves (first last : Cursor α) (taken : List α) : Prop where
  rest : first.rest = taken ++ last.rest
  passed : last.passed = taken.reverse ++ first.passed
  mark : last.mark = first.mark

theorem Moves.refl (cursor : Cursor α) : Moves cursor cursor [] := ⟨rfl, rfl, rfl⟩

theorem Moves.trans {first second third : Cursor α} {left right : List α}
    (before : Moves first second left) (after : Moves second third right) :
    Moves first third (left ++ right) where
  rest := by rw [before.rest, after.rest, List.append_assoc]
  passed := by rw [after.passed, before.passed, List.reverse_append, List.append_assoc]
  mark := after.mark.trans before.mark

theorem Moves.items {first last : Cursor α} {taken : List α} (moved : Moves first last taken) :
    last.items = first.items := by
  rw [Cursor.items, Cursor.items, moved.passed, moved.rest]
  simp

theorem Moves.length_rest {first last : Cursor α} {taken : List α}
    (moved : Moves first last taken) :
    first.rest.length = taken.length + last.rest.length := by
  rw [moved.rest, List.length_append]

theorem Moves.position {first last : Cursor α} {taken : List α} (moved : Moves first last taken) :
    last.position = first.position + taken.length := by
  rw [Cursor.position, moved.passed, List.length_append, List.length_reverse, Nat.add_comm]
  rfl

theorem moves_skipWhile (test : α → Bool) (cursor : Cursor α) :
    Moves cursor (cursor.skipWhile test) (cursor.rest.takeWhile test) where
  rest := List.takeWhile_append_dropWhile.symm
  passed := rfl
  mark := rfl

theorem moves_drop (count : Nat) (cursor : Cursor α) :
    Moves cursor (cursor.drop count) (cursor.rest.take count) where
  rest := (List.take_append_drop count cursor.rest).symm
  passed := rfl
  mark := rfl

/-- In front of an item, advancing moves over it. -/
theorem moves_advance {cursor : Cursor α} (more : cursor.rest ≠ []) :
    Moves cursor cursor.advance.2 [cursor.current] := by
  obtain ⟨passed, rest, mark⟩ := cursor
  cases rest with
  | nil => exact absurd rfl more
  | cons item rest => exact ⟨rfl, rfl, rfl⟩

theorem current_mem_rest {cursor : Cursor α} (more : cursor.rest ≠ []) :
    cursor.current ∈ cursor.rest := by
  rw [(moves_advance more).rest]
  exact List.mem_cons_self

theorem advance_fst (cursor : Cursor α) : cursor.advance.1 = cursor.current := by
  obtain ⟨passed, rest, mark⟩ := cursor
  cases rest <;> rfl

/-- What passes a test may be passed in two goes. -/
theorem skipWhile_skipWhile_of_imp {test other : α → Bool} (cursor : Cursor α)
    (weaker : ∀ item, test item = true → other item = true) :
    (cursor.skipWhile test).skipWhile other = cursor.skipWhile other := by
  obtain ⟨passed, rest, mark⟩ := cursor
  induction rest generalizing passed with
  | nil => rfl
  | cons item rest previous =>
    by_cases passes : test item = true
    · have behind := previous (item :: passed)
      simpa [skipWhile, passes, weaker item passes] using behind
    · simp [skipWhile, passes]

theorem skipWhile_skipWhile (test : α → Bool) (cursor : Cursor α) :
    (cursor.skipWhile test).skipWhile test = cursor.skipWhile test :=
  skipWhile_skipWhile_of_imp cursor fun _ passes => passes

/-- Passing goes on to the mark, and sees that pass too, only where everything passes the test. -/
theorem test_current_skipWhile_iff {test : α → Bool} {cursor : Cursor α} :
    test (cursor.skipWhile test).current = true
      ↔ test cursor.mark = true ∧ ∀ item ∈ cursor.rest, test item = true := by
  rw [← List.dropWhile_eq_nil_iff, current, skipWhile]
  cases left : cursor.rest.dropWhile test with
  | nil => simp
  | cons item behind =>
    have fails := List.head?_dropWhile_not test cursor.rest
    rw [left] at fails
    simpa using fails

/-- Passing stops at an item that fails the test, if the mark does. -/
theorem test_current_skipWhile {test : α → Bool} {cursor : Cursor α}
    (stops : test cursor.mark = false) : test (cursor.skipWhile test).current = false := by
  by_contra passes
  have marked := (test_current_skipWhile_iff.mp (Bool.not_eq_false _ ▸ passes)).1
  exact absurd marked (by simp [stops])

/-- Moving over items that pass, up to one that stops, is all that passing does. -/
theorem Moves.skipWhile {test : α → Bool} {first last : Cursor α} {taken : List α}
    (moved : Moves first last taken) (passes : ∀ item ∈ taken, test item = true)
    (stops : ∀ item ∈ last.rest.head?, test item = false) :
    first.rest.takeWhile test = taken ∧ first.skipWhile test = last := by
  obtain ⟨front, back⟩ := takeWhile_dropWhile_append passes stops
  rw [← moved.rest] at front back
  refine ⟨front, ?_⟩
  rw [Cursor.skipWhile, front, back, ← moved.passed, ← moved.mark]

theorem skipWhile_of_current {test : α → Bool} {cursor : Cursor α}
    (stops : test cursor.current = false) : cursor.skipWhile test = cursor := by
  obtain ⟨passed, rest, mark⟩ := cursor
  cases rest with
  | nil => rfl
  | cons item rest =>
    replace stops : ¬ test item = true := by simpa [current] using stops
    simp only [skipWhile, List.takeWhile_cons_of_neg stops, List.dropWhile_cons_of_neg stops,
      List.reverse_nil, List.nil_append]

/-- What passes a test may as well be passed on its own. -/
theorem skipWhile_advance {test : α → Bool} {cursor : Cursor α} (more : cursor.rest ≠ [])
    (passes : test cursor.current = true) :
    cursor.advance.2.skipWhile test = cursor.skipWhile test := by
  obtain ⟨passed, rest, mark⟩ := cursor
  cases rest with
  | nil => exact absurd rfl more
  | cons item rest =>
    replace passes : test item = true := passes
    simp [advance, skipWhile, passes]

end Cursor

/-! ### The tokens of a tree -/

namespace Tree

mutual

/-- The tokens of a tree, in order, with those passed over. -/
def tokens : Tree → List Lexeme
  | leaf lexeme => [lexeme]
  | cut lexeme skipped => lexeme :: skipped
  | node _ _ parts => partsTokens parts

def partTokens : Part → List Lexeme
  | .child _ tree => tokens tree
  | .problem _ skipped => skipped

def partsTokens : List Part → List Lexeme
  | [] => []
  | part :: rest => partTokens part ++ partsTokens rest

end

@[simp] theorem partsTokens_nil : partsTokens [] = [] := rfl

@[simp] theorem partsTokens_child (role : Role) (tree : Tree) (rest : List Part) :
    partsTokens (.child role tree :: rest) = tree.tokens ++ partsTokens rest := rfl

@[simp] theorem partsTokens_problem (found : Problem) (skipped : List Lexeme)
    (rest : List Part) :
    partsTokens (.problem found skipped :: rest) = skipped ++ partsTokens rest := rfl

@[simp] theorem partsTokens_append (left right : List Part) :
    partsTokens (left ++ right) = partsTokens left ++ partsTokens right := by
  induction left with
  | nil => rfl
  | cons part rest previous => simp [partsTokens, previous]

@[simp] theorem tokens_leaf (lexeme : Lexeme) : (leaf lexeme).tokens = [lexeme] := rfl

@[simp] theorem tokens_cut (lexeme : Lexeme) (skipped : List Lexeme) :
    (cut lexeme skipped).tokens = lexeme :: skipped := rfl

@[simp] theorem tokens_node (form : Form) (span : Span) (parts : List Part) :
    (node form span parts).tokens = partsTokens parts := rfl

@[simp] theorem tokens_ofParts (form : Form) (parts : List Part) :
    (ofParts form parts).tokens = partsTokens parts := rfl

end Tree

namespace Grammar

open Reader Cursor

/-- All tokens of `consumed` are among `taken`, in their order, except that some separators may be
missing. -/
structure Keeps (consumed taken : List Lexeme) : Prop where
  sublist : taken.Sublist consumed
  complete : taken.filter (!isSeparator ·) = consumed.filter (!isSeparator ·)

namespace Keeps

theorem all (consumed : List Lexeme) : Keeps consumed consumed := ⟨.refl _, rfl⟩

theorem none {consumed : List Lexeme}
    (separators : ∀ lexeme ∈ consumed, isSeparator lexeme = true) :
    Keeps consumed [] where
  sublist := List.nil_sublist _
  complete := by
    refine (List.filter_eq_nil_iff.mpr fun lexeme member => ?_).symm
    simp [separators lexeme member]

theorem append {first second left right : List Lexeme} (before : Keeps first left)
    (after : Keeps second right) : Keeps (first ++ second) (left ++ right) where
  sublist := before.sublist.append after.sublist
  complete := by rw [List.filter_append, List.filter_append, before.complete, after.complete]

end Keeps

/-! ### Looking does not move -/

theorem settle_settle (mode : Mode) (cursor : Cursor Lexeme) :
    settle mode (settle mode cursor) = settle mode cursor := by
  unfold settle
  split
  · exact skipWhile_skipWhile isLineBreak cursor
  · rfl

theorem settle_of_lined {mode : Mode} (lined : mode.lineBreaksIgnored = false)
    (cursor : Cursor Lexeme) : settle mode cursor = cursor := by
  rw [settle, lined]
  rfl

@[simp] theorem look_settle (mode : Mode) (cursor : Cursor Lexeme) :
    look mode (settle mode cursor) = look mode cursor := by
  rw [look, settle_settle, look]

@[simp] theorem past_settle (mode : Mode) (cursor : Cursor Lexeme) :
    past mode (settle mode cursor) = past mode cursor := by
  rw [past, settle_settle, past]

theorem settle_beyond (mode : Mode) (cursor : Cursor Lexeme) :
    settle mode (beyond cursor) = beyond cursor := by
  unfold settle
  split
  · exact skipWhile_skipWhile isLineBreak cursor
  · rfl

theorem isLineBreak_of_isReadable {lexeme : Lexeme} (readable : lexeme.isReadable = true) :
    isLineBreak lexeme = false := by
  rw [Lexeme.isReadable, Bool.and_eq_true] at readable
  simpa [isLineBreak] using readable.1

theorem ne_endOfStream_of_isReadable {lexeme : Lexeme} (readable : lexeme.isReadable = true) :
    lexeme.kind ≠ .endOfStream := by
  rw [Lexeme.isReadable, Bool.and_eq_true] at readable
  exact bne_iff_ne.mp readable.2

theorem settle_of_current {cursor : Cursor Lexeme} (mode : Mode)
    (readable : isLineBreak cursor.current = false) : settle mode cursor = cursor := by
  unfold settle
  split
  · exact skipWhile_of_current readable
  · rfl

theorem isLineBreak_of_kind {lexeme : Lexeme} {kind : TokenKind} (found : lexeme.kind = kind)
    (other : kind ≠ .lineBreak) : isLineBreak lexeme = false := by
  rw [isLineBreak, found]
  exact beq_eq_false_iff_ne.mpr other

theorem isSeparator_of_isLineBreak {lexeme : Lexeme} (breaks : isLineBreak lexeme = true) :
    isSeparator lexeme = true := by
  unfold isSeparator
  rw [Bool.or_eq_true]
  exact .inl breaks

/-- In front of a token there is more than the mark. -/
theorem rest_ne_nil {cursor : Cursor Lexeme} (marked : cursor.mark.kind = .endOfStream)
    (token : cursor.current.kind ≠ .endOfStream) : cursor.rest ≠ [] := by
  intro empty
  rw [Cursor.current, empty, List.headD_nil] at token
  exact token marked

/-! ### What the small steps leave -/

@[simp] theorem settle_mark (mode : Mode) (cursor : Cursor Lexeme) :
    (settle mode cursor).mark = cursor.mark := by
  unfold settle
  split <;> rfl

@[simp] theorem past_mark (mode : Mode) (cursor : Cursor Lexeme) :
    (past mode cursor).mark = cursor.mark := by
  rw [past, Cursor.advance]
  split <;> exact settle_mark mode cursor

@[simp] theorem beyond_mark (cursor : Cursor Lexeme) : (beyond cursor).mark = cursor.mark := rfl

@[simp] theorem pastSeparators_mark (cursor : Cursor Lexeme) :
    (pastSeparators cursor).mark = cursor.mark := rfl

theorem settle_rest (mode : Mode) (cursor : Cursor Lexeme) :
    (settle mode cursor).rest
      = if mode.lineBreaksIgnored then cursor.rest.dropWhile isLineBreak else cursor.rest := by
  unfold settle
  split <;> rfl

theorem past_rest (mode : Mode) (cursor : Cursor Lexeme) :
    (past mode cursor).rest = (settle mode cursor).rest.drop 1 := by
  rw [past]
  generalize settle mode cursor = here
  obtain ⟨passed, rest, mark⟩ := here
  cases rest <;> rfl

/-! ### Accounts -/

/-- From `first` to `last` the cursor moved over tokens that `parts` keep. The mark behind the last
token counts as no token. -/
def Accounts (first : Cursor Lexeme) (parts : List Part) (last : Cursor Lexeme) : Prop :=
  first.mark.kind = .endOfStream →
    ∃ consumed, Moves first last consumed ∧ Keeps consumed (Tree.partsTokens parts)

namespace Accounts

theorem refl (cursor : Cursor Lexeme) : Accounts cursor [] cursor :=
  fun _ => ⟨[], .refl cursor, .all []⟩

theorem trans {first second third : Cursor Lexeme} {left right : List Part}
    (before : Accounts first left second) (after : Accounts second right third) :
    Accounts first (left ++ right) third := by
  intro marked
  obtain ⟨consumed, moved, kept⟩ := before marked
  obtain ⟨further, movedOn, keptOn⟩ := after (by rw [moved.mark]; exact marked)
  refine ⟨consumed ++ further, moved.trans movedOn, ?_⟩
  rw [Tree.partsTokens_append]
  exact kept.append keptOn

/-- Only the tokens of the parts count. -/
theorem congr {first last : Cursor Lexeme} {parts others : List Part}
    (account : Accounts first parts last)
    (same : Tree.partsTokens others = Tree.partsTokens parts) : Accounts first others last := by
  unfold Accounts
  rw [same]
  exact account

/-- Where a token is kept the cursor has moved. -/
theorem shorter {first last : Cursor Lexeme} {parts : List Part}
    (account : Accounts first parts last) (held : Tree.partsTokens parts ≠ [])
    (marked : first.mark.kind = .endOfStream) : last.rest.length < first.rest.length := by
  obtain ⟨consumed, moved, kept⟩ := account marked
  have some : consumed ≠ [] := by
    rintro rfl
    exact held (List.sublist_nil.mp kept.sublist)
  have positive := List.length_pos_iff.mpr some
  have lengths := moved.length_rest
  omega

theorem skipWhile {test : Lexeme → Bool} (cursor : Cursor Lexeme)
    (separators : ∀ lexeme, test lexeme = true → isSeparator lexeme = true) :
    Accounts cursor [] (cursor.skipWhile test) := by
  refine fun _ => ⟨_, moves_skipWhile test cursor, Keeps.none fun lexeme member => ?_⟩
  exact separators lexeme (List.mem_takeWhile_imp member)

theorem settle (mode : Mode) (cursor : Cursor Lexeme) :
    Accounts cursor [] (Reader.settle mode cursor) := by
  unfold Reader.settle
  split
  · exact skipWhile cursor fun _ => isSeparator_of_isLineBreak
  · exact refl cursor

theorem beyond (cursor : Cursor Lexeme) : Accounts cursor [] (Grammar.beyond cursor) :=
  skipWhile cursor fun _ => isSeparator_of_isLineBreak

theorem pastSeparators (cursor : Cursor Lexeme) :
    Accounts cursor [] (Grammar.pastSeparators cursor) := skipWhile cursor fun _ => id

/-- A token that is not the mark is taken. -/
theorem past {mode : Mode} {cursor : Cursor Lexeme} {parts : List Part}
    (token : (look mode cursor).kind ≠ .endOfStream)
    (same : Tree.partsTokens parts = [look mode cursor]) :
    Accounts cursor parts (Grammar.past mode cursor) := by
  intro marked
  obtain ⟨consumed, moved, kept⟩ := settle mode cursor marked
  have more : (Reader.settle mode cursor).rest ≠ [] := rest_ne_nil (by rwa [moved.mark]) token
  refine ⟨consumed ++ [look mode cursor], moved.trans (moves_advance more), ?_⟩
  rw [same]
  exact kept.append (.all _)

theorem leaf {mode : Mode} {cursor : Cursor Lexeme} (role : Role)
    (readable : (look mode cursor).isReadable = true) :
    Accounts cursor [.child role (leafAt mode cursor)] (Grammar.past mode cursor) :=
  past (ne_endOfStream_of_isReadable readable) rfl

/-- Tokens passed over are kept with the problem. -/
theorem skipped {first last : Cursor Lexeme} {consumed : List Lexeme} (found : Problem)
    (moved : Moves first last consumed) : Accounts first [.problem found consumed] last := by
  refine fun _ => ⟨consumed, moved, ?_⟩
  rw [Tree.partsTokens_problem, Tree.partsTokens_nil, List.append_nil]
  exact .all consumed

theorem boundary (mode : Mode) (cursor : Cursor Lexeme) (found : Problem) :
    Accounts cursor [.problem found (lineRest mode cursor)] (Grammar.boundary mode cursor) :=
  skipped found (moves_skipWhile _ cursor)

end Accounts

/-! ### Tokens that may be leaves -/

theorem isReadable_of_kind {lexeme : Lexeme} {kind : TokenKind} (found : lexeme.kind = kind)
    (token : (⟨kind, 0, []⟩ : Lexeme).isReadable = true) : lexeme.isReadable = true := by
  unfold Lexeme.isReadable at token ⊢
  rwa [found]

theorem kind_of_infixOf? {lexeme : Lexeme} {operator : Operator}
    (found : infixOf? lexeme = some operator) : lexeme.kind = .operator := by
  unfold infixOf? at found
  split at found
  · rename_i same
    exact eq_of_beq same
  · cases found

theorem kind_of_leadingOf? {lexeme : Lexeme} {operator : Operator}
    (found : leadingOf? lexeme = some operator) : lexeme.kind = .operator := by
  unfold leadingOf? at found
  split at found
  · rename_i same
    exact eq_of_beq same
  · cases found

theorem infixOf?_of_kind {lexeme : Lexeme} (other : lexeme.kind ≠ .operator) :
    infixOf? lexeme = none := if_neg fun same => other (eq_of_beq same)

theorem leadingOf?_of_kind {lexeme : Lexeme} (other : lexeme.kind ≠ .operator) :
    leadingOf? lexeme = none := if_neg fun same => other (eq_of_beq same)

/-- An infix operator of at least a precedence is an infix operator, no accessor, of that
precedence. -/
theorem infixAt?_eq_some_iff {minimum : Nat} {lexeme : Lexeme} {operator : Operator} :
    infixAt? minimum lexeme = some operator ↔
      infixOf? lexeme = some operator ∧ operator.isAccessor = false
        ∧ minimum ≤ operator.precedence := by
  simp [infixAt?, Option.filter_eq_some_iff]

theorem accessorOf?_eq_some_iff {lexeme : Lexeme} {operator : Operator} :
    accessorOf? lexeme = some operator ↔
      infixOf? lexeme = some operator ∧ operator.isAccessor = true := by
  simp [accessorOf?, Option.filter_eq_some_iff]

theorem isReadable_of_infixAt? {lexeme : Lexeme} {minimum : Nat} {operator : Operator}
    (found : infixAt? minimum lexeme = some operator) : lexeme.isReadable = true :=
  isReadable_of_kind (kind_of_infixOf? (infixAt?_eq_some_iff.mp found).1) rfl

theorem isReadable_of_accessorOf? {lexeme : Lexeme} {operator : Operator}
    (found : accessorOf? lexeme = some operator) : lexeme.isReadable = true :=
  isReadable_of_kind (kind_of_infixOf? (accessorOf?_eq_some_iff.mp found).1) rfl

theorem isReadable_of_leadingOf? {lexeme : Lexeme} {operator : Operator}
    (found : leadingOf? lexeme = some operator) : lexeme.isReadable = true :=
  isReadable_of_kind (kind_of_leadingOf? found) rfl

theorem isReadable_of_isOperator {lexeme : Lexeme} {text : Text}
    (found : lexeme.isOperator text = true) : lexeme.isReadable = true := by
  rw [Lexeme.isOperator, Bool.and_eq_true] at found
  exact isReadable_of_kind (eq_of_beq found.1) rfl

theorem isReadable_of_isKeyword {lexeme : Lexeme} {word : Text}
    (found : lexeme.isKeyword word = true) : lexeme.isReadable = true := by
  rw [Lexeme.isKeyword, Bool.and_eq_true] at found
  exact isReadable_of_kind (eq_of_beq found.1) rfl

theorem isReadable_of_isAtom {lexeme : Lexeme} (found : isAtom lexeme = true) :
    lexeme.isReadable = true := by
  obtain ⟨kind, start, text⟩ := lexeme
  cases kind <;> first | rfl | cases found

theorem isReadable_of_isMember {lexeme : Lexeme} (found : isMember lexeme = true) :
    lexeme.isReadable = true := by
  obtain ⟨kind, start, text⟩ := lexeme
  cases kind <;> first | rfl | cases found

theorem isReadable_of_namesArgument {lexeme : Lexeme} (found : namesArgument lexeme = true) :
    lexeme.isReadable = true := by
  obtain ⟨kind, start, text⟩ := lexeme
  cases kind <;> first | rfl | cases found

theorem isReadable_of_endsNesting {lexeme : Lexeme} (goesOn : endsNesting lexeme.kind = false) :
    lexeme.isReadable = true := by
  obtain ⟨kind, start, text⟩ := lexeme
  cases kind <;> first | rfl | cases goesOn

theorem isReadable_of_endsStatement {lexeme : Lexeme} (goesOn : endsStatement lexeme = false) :
    lexeme.isReadable = true := by
  obtain ⟨kind, start, text⟩ := lexeme
  cases kind <;> first | rfl | cases goesOn

theorem ne_endOfStream_of_endsBlock {terminator : Option TokenKind} {lexeme : Lexeme}
    (goesOn : endsBlock terminator lexeme = false) : lexeme.kind ≠ .endOfStream := by
  intro ended
  simp [endsBlock, ended] at goesOn

/-- Behind the separators stands none. -/
theorem isSeparator_look_pastSeparators (mode : Mode) {cursor : Cursor Lexeme}
    (marked : cursor.mark.kind = .endOfStream) :
    isSeparator (look mode (pastSeparators cursor)) = false := by
  have stops : isSeparator (pastSeparators cursor).current = false :=
    test_current_skipWhile (by simp [isSeparator, marked])
  have still : isLineBreak (pastSeparators cursor).current = false := by
    cases breaks : isLineBreak (pastSeparators cursor).current with
    | false => rfl
    | true => exact absurd (isSeparator_of_isLineBreak breaks) (by rw [stops]; exact nofun)
  rwa [look, settle_of_current mode still]

theorem isReadable_of_endsBlock {terminator : Option TokenKind} {mode : Mode}
    {cursor : Cursor Lexeme} (marked : cursor.mark.kind = .endOfStream)
    (goesOn : endsBlock terminator (look mode (pastSeparators cursor)) = false) :
    (look mode (pastSeparators cursor)).isReadable = true := by
  have apart := isSeparator_look_pastSeparators mode marked
  have more := ne_endOfStream_of_endsBlock goesOn
  rw [isSeparator, Bool.or_eq_false_iff, beq_eq_false_iff_ne] at apart
  rw [Lexeme.isReadable, Bool.and_eq_true, bne_iff_ne, bne_iff_ne]
  exact ⟨apart.1, more⟩

/-- The keyword that is seen stands behind the line breaks. -/
theorem look_beyond_of_seesElse {mode : Mode} {cursor : Cursor Lexeme}
    (seen : seesElse mode cursor = true) :
    (look mode (beyond cursor)).isKeyword "else".toList = true := by
  unfold seesElse at seen
  split at seen
  · rwa [look, settle_beyond]
  · rename_i here
    rw [Bool.or_eq_true, not_or, Bool.not_eq_true] at here
    have same : settle mode cursor = cursor := if_neg (by simp [here.2])
    rw [look, same] at seen
    have stays : beyond cursor = cursor :=
      skipWhile_of_current (isLineBreak_of_isReadable (isReadable_of_isKeyword seen))
    rwa [stays, look, same]

/-! ### The run of a phrase -/

/-- Whether a phrase is read as one tree that holds a token, or as nothing. -/
def Phrase.isExpression : Phrase → Bool
  | expression _ _ _ | chain _ _ _ | leading _ _ | postfixed _ _ | suffixed _ _ | primary _ _
  | construct _ _ _ | statement _ _ | block _ _ => true
  | _ => false

/-- **Where no expression begins, only ignored line breaks are passed.** -/
theorem Derives.stays {phrase : Phrase} {mode : Mode} {first last : Cursor Lexeme}
    {parts : List Part} (run : Derives phrase mode first parts last)
    (single : phrase.isExpression = true) (nothing : parts = []) : last = settle mode first := by
  induction run with
  | cutNothing _ => rfl
  | noPrimary _ _ => rfl
  | noExpression _ previous => exact previous rfl rfl
  | noPostfixed _ previous => exact previous rfl rfl
  | noStatement _ previous => exact previous rfl rfl
  | unsigned _ _ previous => rw [previous rfl nothing, settle_settle]
  | blockPrimary _ _ previous => rw [previous rfl nothing, settle_settle]
  | constructPrimary _ _ _ previous => rw [previous rfl nothing, settle_settle]
  | _ =>
    first
    | exact absurd nothing (List.cons_ne_nil _ _)
    | exact absurd single Bool.false_ne_true

/-- **The parts that a phrase gives keep the tokens it moved over.** -/
theorem Derives.accounts {phrase : Phrase} {mode : Mode} {first last : Cursor Lexeme}
    {parts : List Part} (run : Derives phrase mode first parts last) :
    Accounts first parts last := by
  induction run with
  | found _ readable => exact .leaf _ readable
  | missing _ => exact (Accounts.settle _ _).congr rfl
  | present _ readable => exact .leaf _ readable
  | absent _ => exact .settle _ _
  | cutNothing _ => exact .settle _ _
  | cutBracket goesOn _ =>
    have bracket := Accounts.leaf .expression (isReadable_of_endsNesting goesOn)
    exact (bracket.trans (.skipped default (moves_drop _ _))).congr (by simp [leafAt])
  | cutToken goesOn _ =>
    exact (Accounts.leaf .expression (isReadable_of_endsNesting goesOn)).congr rfl
  | noExpression _ previous => exact previous
  | expression _ _ previous => exact previous.trans (.settle _ _)
  | chainStart _ previous => exact previous
  | chainMore _ found _ left right =>
    have sign := left.trans (.leaf .operator (isReadable_of_infixAt? found))
    have behind := (Accounts.beyond _).trans right
    exact (sign.trans behind).congr (by simp)
  | operand _ previous => exact previous
  | noOperand _ previous => exact (previous.trans (.settle _ _)).congr rfl
  | sign found _ right =>
    have sign := Accounts.leaf .operator (isReadable_of_leadingOf? found)
    have behind := (Accounts.beyond _).trans right
    exact (sign.trans behind).congr (by simp)
  | unsigned _ _ previous => exact (Accounts.settle _ _).trans previous
  | noPostfixed _ previous => exact previous
  | postfixed _ _ previous => exact previous.trans (.settle _ _)
  | suffixedStart _ previous => exact previous
  | call _ opened _ _ function list close =>
    have bracket := function.trans (.leaf .openBrace (isReadable_of_kind opened rfl))
    exact (bracket.trans (list.trans close)).congr (by simp)
  | index _ delimiter opened _ _ target list close =>
    have readable : (look _ _).isReadable = true := isReadable_of_kind opened (by
      obtain rfl | rfl := delimiter <;> rfl)
    have bracket := target.trans (.leaf .openBracket readable)
    exact (bracket.trans (list.trans close)).congr (by simp)
  | access _ found _ target right =>
    have sign := target.trans (.leaf .operator (isReadable_of_accessorOf? found))
    exact (sign.trans right).congr (by simp)
  | noPrimary _ _ => exact .settle _ _
  | atom found => exact .leaf _ (isReadable_of_isAtom found)
  | group opened _ _ inner close =>
    have bracket := Accounts.leaf .openBrace (isReadable_of_kind opened rfl)
    exact (bracket.trans (inner.trans close)).congr (by simp)
  | blockPrimary _ _ previous => exact (Accounts.settle _ _).trans previous
  | constructPrimary _ _ _ previous => exact (Accounts.settle _ _).trans previous
  | ifElse readable _ _ _ top main other =>
    have behind := (top.trans main).trans other
    exact ((Accounts.leaf .keyword readable).trans behind).congr (by simp)
  | headed _ readable _ _ top main =>
    have behind := top.trans main
    exact ((Accounts.leaf .keyword readable).trans behind).congr (by simp)
  | repeatLoop readable _ main =>
    exact ((Accounts.leaf .keyword readable).trans main).congr (by simp)
  | word _ readable => exact (Accounts.leaf .keyword readable).congr (by simp)
  | opened opened _ inner =>
    exact (Accounts.leaf .openBrace (isReadable_of_kind opened rfl)).trans inner
  | unopened _ => exact (Accounts.settle _ _).congr rfl
  | condition _ _ _ tested close => exact tested.trans close
  | iteration _ _ _ _ counter link range close =>
    exact ((counter.trans link).trans range).trans close
  | formals _ _ list close => exact list.trans close
  | blockBody _ _ previous => exact (Accounts.beyond _).trans ((Accounts.settle _ _).trans previous)
  | simpleBody _ _ previous | noBody _ _ previous =>
    have body := (Accounts.beyond _).trans ((Accounts.settle _ _).trans previous)
    exact body.congr (by simp)
  | elseBranch seen _ other =>
    have readable := isReadable_of_isKeyword (look_beyond_of_seesElse seen)
    have keyword := Accounts.leaf .elseKeyword readable
    exact (Accounts.beyond _).trans (keyword.trans other)
  | noElse _ => exact .refl _
  | itemsStart => exact .refl _
  | itemsMore _ _ _ comma items item =>
    have more := items.trans ((Accounts.settle _ _).trans item)
    have separator := more.trans (.leaf .comma (isReadable_of_kind comma rfl))
    exact separator.congr (by simp)
  | closedList _ _ items => exact (items.trans (.settle _ _)).congr (by simp [listOf])
  | lastItem _ _ _ _ _ items item | noItem _ _ _ _ _ items item =>
    have more := items.trans ((Accounts.settle _ _).trans item)
    exact (more.trans (.settle _ _)).congr (by simp [listOf])
  | named found _ value =>
    rw [namesHere, Bool.and_eq_true] at found
    have name := Accounts.leaf .name (isReadable_of_namesArgument found.1)
    have sign := Accounts.leaf .equals (isReadable_of_isOperator found.2)
    exact name.trans (sign.trans value)
  | unnamed _ _ value => exact (Accounts.settle _ _).trans value
  | formalDefault name equals _ value =>
    have name := Accounts.leaf .name (isReadable_of_kind name rfl)
    have sign := Accounts.leaf .equals (isReadable_of_isOperator equals)
    exact name.trans (sign.trans value)
  | formal name _ =>
    exact (Accounts.leaf .name (isReadable_of_kind name rfl)).trans (.settle _ _)
  | emptyFormal _ _ value => exact (Accounts.settle _ _).trans value
  | misplacedFormal _ _ _ value => exact ((Accounts.settle _ _).trans value).congr (by simp)
  | noStatement _ previous => exact previous
  | statement _ _ expression semicolon => exact (expression.trans semicolon).congr (by simp)
  | block opened _ _ items close =>
    have bracket := Accounts.leaf .openCurly (isReadable_of_kind opened rfl)
    exact (bracket.trans (items.trans close)).congr (by simp)
  | statements _ _ listing =>
    exact (listing.trans ((Accounts.pastSeparators _).trans (.settle _ _))).congr (by simp)
  | listingStart => exact .refl _
  | stray _ _ closed listing =>
    exact listing.trans ((Accounts.pastSeparators _).trans (.past (by simp [closed]) (by simp)))
  | @unreadable _ _ mode _ second _ _ _ goesOn _ failed listing _ =>
    obtain rfl := failed.stays rfl rfl
    have first : Accounts (pastSeparators second)
        [.problem default [look mode (pastSeparators second)]]
        (past mode (pastSeparators second)) :=
      .past (ne_endOfStream_of_endsBlock goesOn) (by simp)
    simp only [past_settle, look_settle]
    have behind := (Accounts.pastSeparators _).trans (first.trans (.boundary mode _ default))
    exact (listing.trans behind).congr (by simp)
  | @listed _ _ mode _ _ _ _ _ _ _ _ _ _ listing statement =>
    have more := (Accounts.settle mode _).trans (statement.trans (.settle mode _))
    exact (listing.trans ((Accounts.pastSeparators _).trans more)).congr (by simp)
  | @crowded _ _ mode _ _ _ _ _ _ _ _ _ _ listing statement =>
    have passed := statement.trans ((Accounts.settle mode _).trans (.boundary mode _ default))
    have more := (Accounts.settle mode _).trans passed
    exact (listing.trans ((Accounts.pastSeparators _).trans more)).congr (by simp)

/-- An expression holds a token. -/
theorem Derives.partsTokens_ne_nil {phrase : Phrase} {mode : Mode} {first last : Cursor Lexeme}
    {parts : List Part} (run : Derives phrase mode first parts last)
    (single : phrase.isExpression = true) (some : parts ≠ []) :
    Tree.partsTokens parts ≠ [] := by
  induction run with
  | expression _ _ previous | chainStart _ previous | postfixed _ _ previous
  | suffixedStart _ previous =>
    exact previous rfl (List.cons_ne_nil _ _)
  | unsigned _ _ previous | blockPrimary _ _ previous | constructPrimary _ _ _ previous =>
    exact previous rfl some
  | statement _ _ previous =>
    have held := previous rfl (List.cons_ne_nil _ _)
    simp only [Tree.partsTokens_child, Tree.partsTokens_nil, Tree.tokens_ofParts] at held ⊢
    simp_all
  | _ => simp_all [Phrase.isExpression, leafAt]

/-! ### Nothing around an expression -/

section Alone

variable {levels : Nat} {mode : Mode} {first last : Cursor Lexeme} {tree : Tree}
  (settled : settle mode first = first) (still : settle mode last = last)

include settled still

/-- **An expression without operators is what stands in front of its end.** -/
theorem Derives.expression_of_suffixed {role : Role}
    (unsigned : leadingOf? (look mode first) = none)
    (ends : opensList (look mode last).kind = false) (plain : infixOf? (look mode last) = none)
    (run : Derives (.suffixed levels role) mode first [.child role tree] last) :
    Derives (.expression (levels + 1) 0 role) mode first [.child role tree] last := by
  have postfixed := Derives.postfixed run (by rw [extendsExpression, ends, accessorOf?, plain]; rfl)
  rw [still] at postfixed
  have leading : Derives (.leading levels role) mode first [.child role tree] last := by
    refine .unsigned unsigned ?_
    rwa [settled]
  have whole := Derives.expression (.chainStart leading)
    (show infixAt? 0 (look mode last) = none by rw [infixAt?, plain]; rfl)
  rwa [still] at whole

/-- **An expression by itself is a statement**, the first one of those that are read there. -/
theorem Derives.listing_of_expression {terminator : Option TokenKind}
    (begins : pastSeparators first = first)
    (goesOn : endsBlock terminator (look mode first) = false)
    (noBrace : (look mode first).kind ≠ .closeCurlyBrace)
    (ends : endsStatement (look mode last) = true)
    (run : Derives (.expression levels 0 .expression) mode first [.child .expression tree] last) :
    Derives (.listing terminator levels) mode first
      [.child .statements (.ofParts .statement [.child .expression tree])] last := by
  have noSemicolon : isOfKind .semicolon (look mode last) = false := by
    unfold isOfKind
    unfold endsStatement at ends
    cases kind : (look mode last).kind <;> simp_all
  have absent := @Derives.absent (isOfKind .semicolon) .semicolon mode last noSemicolon
  rw [still] at absent
  have listed := @Derives.listed terminator levels mode first first last []
    (.ofParts .statement [.child .expression tree]) .listingStart
  rw [begins, settled, still] at listed
  exact listed goesOn noBrace (.statement run absent) (by rw [isSeparated, ends, Bool.or_true])

end Alone

end Grammar

end RSource
