/-
**What single steps give.**

`Gives steps session value after`: from a session on the steps end without a fault, with a value and
at another session. Steps are put together by `Gives.bind`. The sessions in question are all of one
shape: `Checked.after` moves the cursor of a session and stores parts of trees in it, so that going
on twice is going on once with both lists of parts (`after_after`).

Here are the steps that no recursion of the grammar goes through. Slices of tokens are there as long
as the tokens in front of and behind the cursor are pieces of the text and the mark behind them is
none (`Faithful`); loops over tokens end because that mark stops each of them.
-/

import RSource.Proofs.Checked.Routines
import RSource.Proofs.Grammar.Consumption
import RSource.Proofs.Grammar.Extent
import RSource.Proofs.Arena.Storage
import RSource.Proofs.Tree.Problems

namespace RSource

namespace Checked

open Grammar Reader

/-- From `session` on the steps give `value` and end at `after`. -/
def Gives {α : Type} (steps : Steps α) (session : Session) (value : α) (after : Session) : Prop :=
  steps session = pure (value, after)

section Combining

variable {α β : Type} {session middle after : Session} {value : α}

theorem Gives.bind {steps : Steps α} {next : α → Steps β} {result : β}
    (first : Gives steps session value middle) (further : Gives (next value) middle result after) :
    Gives (steps >>= next) session result after := by
  show steps session >>= (fun given => next given.1 given.2) = _
  rw [first]
  exact further

theorem Gives.congr {steps : Steps α} {other : α} {final : Session}
    (given : Gives steps session value after) (values : value = other) (sessions : after = final) :
    Gives steps session other final := by
  rwa [← values, ← sessions]

theorem gives_pure (value : α) (session : Session) :
    Gives (pure value) session value session := rfl

theorem gives_get (session : Session) : Gives get session session session := rfl

theorem gives_modify (change : Session → Session) (session : Session) :
    Gives (modify change) session () (change session) := rfl

theorem gives_lift {run : Run α} (ended : run = pure value) :
    Gives (liftM run) session value session := by
  rw [ended]
  rfl

theorem Gives.of_pos {condition : Prop} [Decidable condition] {yes no : Steps α}
    (holds : condition) (gives : Gives yes session value after) :
    Gives (if condition then yes else no) session value after := by
  rwa [if_pos holds]

theorem Gives.of_neg {condition : Prop} [Decidable condition] {yes no : Steps α}
    (fails : ¬condition) (gives : Gives no session value after) :
    Gives (if condition then yes else no) session value after := by
  rwa [if_neg fails]

section Rounds

variable {σ : Type} {loop : Loop σ α} {state next : σ}

/-- After a round that gives the next state a loop goes on. -/
theorem gives_run_next (round : Gives (loop.round state) session (.inl next) middle)
    (further : Gives (Loop.run next loop) middle value after) :
    Gives (Loop.run state loop) session value after := by
  rw [Loop.run]
  exact round.bind further

/-- A round that gives a result ends the loop. -/
theorem gives_run_last (round : Gives (loop.round state) session (.inr value) after) :
    Gives (Loop.run state loop) session value after := by
  rw [Loop.run]
  exact round.bind (gives_pure _ _)

end Rounds

end Combining

/-! ### Sessions that go on -/

/-- The slots that parts fill when they are stored behind `arena`. -/
def slotsOf (arena : Arena) (parts : List Part) : Slots := (Arena.storeParts parts arena).1

/-- The nodes with those of parts behind them. -/
def grown (arena : Arena) (parts : List Part) : Arena := (Arena.storeParts parts arena).2

/-- The node of the first child among parts that are stored behind `arena`. -/
def kept (arena : Arena) (parts : List Part) : Option NodeId :=
  (slotsOf arena parts).head?.map (·.2)

/-- The number of the last node behind some parts. -/
def nodeOf (arena : Arena) (parts : List Part) : NodeId := (grown arena parts).size - 1

/-- The numbers of the children among some parts. -/
def idsOf (arena : Arena) (parts : List Part) : List NodeId := (slotsOf arena parts).map (·.2)

/-- A session whose cursor has moved and in which parts have been stored. -/
def after (session : Session) (last : Cursor Lexeme) (parts : List Part) : Session :=
  { session with
    cursor := last
    problems := session.problems ++ Tree.partsProblems parts
    document := { session.document with nodes := grown session.document.nodes parts } }

/-- A session in another mode. -/
def inMode (session : Session) (mode : Mode) : Session := { session with mode }

end Checked

namespace Arena

theorem storeParts_append (left right : List Part) (arena : Arena) :
    storeParts (left ++ right) arena
      = ((storeParts left arena).1 ++ (storeParts right (storeParts left arena).2).1,
        (storeParts right (storeParts left arena).2).2) := by
  induction left generalizing arena with
  | nil => rfl
  | cons part rest previous => simp [storeParts, previous]

end Arena

namespace Checked

open Grammar Reader

/-! ### Storing on -/

section Storing

variable (arena : Arena) {parts : List Part}

@[simp] theorem slotsOf_nil : slotsOf arena [] = [] := rfl

@[simp] theorem slotsOf_problem (found : Problem) (skipped : List Lexeme) (rest : List Part) :
    slotsOf arena (.problem found skipped :: rest) = slotsOf arena rest := rfl

@[simp] theorem kept_child (role : Role) (tree : Tree) :
    kept arena [.child role tree] = some (nodeOf arena [.child role tree]) := rfl

@[simp] theorem slotsOf_child (role : Role) (tree : Tree) (rest : List Part) :
    slotsOf arena (.child role tree :: rest)
      = (role, nodeOf arena [.child role tree])
        :: slotsOf (grown arena [.child role tree]) rest := rfl

theorem nodeOf_leaf (role : Role) (lexeme : Lexeme) :
    nodeOf arena [.child role (.leaf lexeme)] = arena.size := by
  simp [nodeOf, grown, Arena.storeParts, Arena.storePart, Arena.store]

@[simp] theorem nodeOf_leafAt (role : Role) (mode : Mode) (cursor : Cursor Lexeme) :
    nodeOf arena [.child role (leafAt mode cursor)] = arena.size := nodeOf_leaf arena role _

@[simp] theorem slotsOf_append (left right : List Part) :
    slotsOf arena (left ++ right) = slotsOf arena left ++ slotsOf (grown arena left) right := by
  simp [slotsOf, grown, Arena.storeParts_append]

@[simp] theorem grown_problem (found : Problem) (skipped : List Lexeme) (rest : List Part) :
    grown arena (.problem found skipped :: rest) = grown arena rest := rfl

@[simp] theorem grown_nil : grown arena [] = arena := rfl

@[simp] theorem grown_append (left right : List Part) :
    grown arena (left ++ right) = grown (grown arena left) right := by
  simp [grown, Arena.storeParts_append]

@[simp] theorem grown_child (role : Role) (tree : Tree) (rest : List Part) :
    grown arena (.child role tree :: rest) = grown (Arena.store tree arena) rest := rfl

/-- The number of a child does not depend on its role. -/
theorem nodeOf_role (role other : Role) (tree : Tree) :
    nodeOf arena [.child role tree] = nodeOf arena [.child other tree] := rfl

@[simp] theorem idsOf_nil : idsOf arena [] = [] := rfl

@[simp] theorem idsOf_child (role : Role) (tree : Tree) (rest : List Part) :
    idsOf arena (.child role tree :: rest)
      = nodeOf arena [.child role tree] :: idsOf (grown arena [.child role tree]) rest := rfl

@[simp] theorem idsOf_problem (found : Problem) (skipped : List Lexeme) (rest : List Part) :
    idsOf arena (.problem found skipped :: rest) = idsOf arena rest := rfl

@[simp] theorem idsOf_append (left right : List Part) :
    idsOf arena (left ++ right) = idsOf arena left ++ idsOf (grown arena left) right := by
  simp [idsOf]

/-- Parts without a child fill no slot. -/
theorem slotsOf_of_anyChild (empty : Part.anyChild parts = false) : slotsOf arena parts = [] := by
  induction parts generalizing arena with
  | nil => rfl
  | cons part rest previous =>
    cases part with
    | child role tree => simp [Part.anyChild, Part.span?] at empty
    | problem found skipped =>
      exact previous arena (by simpa [Part.anyChild, Part.span?] using empty)

@[simp] theorem kept_nil : kept arena [] = none := rfl

@[simp] theorem kept_problem (found : Problem) (skipped : List Lexeme) :
    kept arena [.problem found skipped] = none := rfl

@[simp] theorem slot_some (role : Role) (id : NodeId) : slot role (some id) = [(role, id)] := rfl

@[simp] theorem slot_none (role : Role) : slot role none = [] := rfl

/-- One part at most fills the slot that was left for it. -/
theorem slot_kept {role : Role} (single : parts = [] ∨ IsSingle role parts) :
    slot role (kept arena parts) = slotsOf arena parts := by
  obtain rfl | ⟨tree, rfl⟩ | ⟨found, rfl⟩ := single
  · rfl
  · rfl
  · rfl

end Storing

variable {session : Session} {first : Cursor Lexeme} {before : List Part}

@[simp] theorem after_after (session : Session) (middle last : Cursor Lexeme)
    (left right : List Part) :
    after (after session middle left) last right = after session last (left ++ right) := by
  simp [after]

@[simp] theorem inMode_document (session : Session) (mode : Mode) :
    (inMode session mode).document = session.document := rfl

theorem after_nil (session : Session) : after session session.cursor [] = session := by
  simp [after]

/-- In which role a child is stored makes no difference to the session. -/
theorem after_role (session : Session) (last : Cursor Lexeme) (before : List Part)
    (role other : Role) (tree : Tree) :
    after session last (before ++ [.child role tree])
      = after session last (before ++ [.child other tree]) := by
  have nodes : grown session.document.nodes (before ++ [.child role tree])
      = grown session.document.nodes (before ++ [.child other tree]) := by
    rw [grown_append, grown_append]
    rfl
  unfold after
  rw [nodes]
  simp [Tree.partsProblems, Tree.partProblems]

/-- A cut expression is stored as its first token, and its problem comes in front of it. -/
theorem after_cut (session : Session) (last : Cursor Lexeme) (before : List Part) (role : Role)
    (lexeme : Lexeme) (skipped : List Lexeme) :
    after session last (before ++ [.problem ⟨.nestingTooDeep, lexeme.token⟩ []]
        ++ [.child role (.leaf lexeme)])
      = after session last (before ++ [.child role (.cut lexeme skipped)]) := by
  have nodes : grown session.document.nodes (before ++ [.problem ⟨.nestingTooDeep, lexeme.token⟩ []]
        ++ [.child role (.leaf lexeme)])
      = grown session.document.nodes (before ++ [.child role (.cut lexeme skipped)]) := by
    rw [grown_append, grown_append, grown_append]
    rfl
  unfold after
  rw [nodes]
  simp [Tree.partsProblems, Tree.partProblems, Tree.problems]

/-! ### Tokens in the text -/

/-- The tokens in front of and behind a cursor are pieces of a text, and the mark alone is none. -/
structure Faithful (text : Text) (cursor : Cursor Lexeme) : Prop where
  slices : ∀ lexeme ∈ cursor.items, text.slice? lexeme.start lexeme.stop = some lexeme.text
  proper : ∀ lexeme ∈ cursor.items, lexeme.kind ≠ .endOfStream
  marked : cursor.mark.kind = .endOfStream

namespace Faithful

variable {text : Text} {first last : Cursor Lexeme}

theorem congr (faithful : Faithful text first) (items : last.items = first.items)
    (mark : last.mark = first.mark) : Faithful text last where
  slices := by
    rw [items]
    exact faithful.slices
  proper := by
    rw [items]
    exact faithful.proper
  marked := by
    rw [mark]
    exact faithful.marked

theorem skipWhile (faithful : Faithful text first) (test : Lexeme → Bool) :
    Faithful text (first.skipWhile test) := faithful.congr (Cursor.items_skipWhile _ _) rfl

theorem beyond (faithful : Faithful text first) : Faithful text (Grammar.beyond first) :=
  faithful.skipWhile isLineBreak

theorem pastSeparators (faithful : Faithful text first) :
    Faithful text (Grammar.pastSeparators first) := faithful.skipWhile isSeparator

theorem settle (faithful : Faithful text first) (mode : Mode) :
    Faithful text (Reader.settle mode first) := by
  unfold Reader.settle
  split
  · exact faithful.skipWhile _
  · exact faithful

theorem past (faithful : Faithful text first) (mode : Mode) :
    Faithful text (Grammar.past mode first) := by
  have settled := faithful.settle mode
  refine settled.congr (Cursor.items_advance _) ?_
  rw [Grammar.past, Cursor.advance]
  split <;> rfl

theorem derives (faithful : Faithful text first) {phrase : Phrase} {mode : Mode}
    {parts : List Part} (run : Derives phrase mode first parts last) : Faithful text last := by
  obtain ⟨consumed, moved, _⟩ := run.accounts faithful.marked
  exact faithful.congr moved.items moved.mark

/-- The token at the cursor is a piece of the text, or it is the mark. -/
theorem current (faithful : Faithful text first)
    (token : first.current.kind ≠ .endOfStream) :
    text.slice? first.current.start first.current.stop = some first.current.text := by
  refine faithful.slices _ ?_
  cases shape : first.rest with
  | nil =>
    rw [Cursor.current, shape] at token
    exact absurd faithful.marked token
  | cons lexeme rest => simp [Cursor.items, Cursor.current, shape]

/-- Where the mark is seen no token is left. -/
theorem rest_eq_nil (faithful : Faithful text first)
    (ended : first.current.kind = .endOfStream) : first.rest = [] := by
  by_contra more
  exact faithful.proper _ (List.mem_append_right _ (Cursor.current_mem_rest more)) ended

end Faithful

/-! ### Loops over tokens -/

theorem gives_take (session : Session) (first : Cursor Lexeme) (before : List Part) :
    Gives take (after session first before) first.current
      (after session first.advance.2 before) := by
  rw [← Cursor.advance_fst]
  rfl

/-- Whether passing tokens in a mode goes on over a token: as far as the test holds, and over line
breaks where they are ignored. -/
def passes (mode : Mode) (test : Lexeme → Bool) (lexeme : Lexeme) : Bool :=
  mode.lineBreaksIgnored && isLineBreak lexeme || test lexeme

theorem skipWhile_settle (mode : Mode) (test : Lexeme → Bool) (cursor : Cursor Lexeme) :
    (settle mode cursor).skipWhile (passes mode test) = cursor.skipWhile (passes mode test) := by
  unfold settle
  split
  · rename_i ignored
    exact Cursor.skipWhile_skipWhile_of_imp _ fun lexeme breaks => by simp [passes, ignored, breaks]
  · rfl

/-- Taking a token that is not the mark makes the rest shorter. -/
theorem length_past {mode : Mode} {cursor : Cursor Lexeme}
    (marked : cursor.mark.kind = .endOfStream)
    (token : (look mode cursor).kind ≠ .endOfStream) :
    (past mode cursor).rest.length < cursor.rest.length := by
  have taken : Accounts cursor [.child .operator (leafAt mode cursor)] (past mode cursor) :=
    .past token rfl
  exact taken.shorter (by simp [leafAt]) marked

/-- Where line breaks are ignored the grammar never looks at one. -/
theorem isLineBreak_look (mode : Mode) {cursor : Cursor Lexeme}
    (marked : cursor.mark.kind = .endOfStream) :
    (mode.lineBreaksIgnored && isLineBreak (look mode cursor)) = false := by
  rw [look, settle]
  split
  · have stops := Cursor.test_current_skipWhile (isLineBreak_of_kind marked (by decide))
    exact Bool.and_eq_false_iff.mpr (.inr stops)
  · rename_i lined
    simp [lined]

section Looking

variable (marked : first.mark.kind = .endOfStream)
include marked

/-- The mark is no line break, so the loop ends. -/
theorem gives_skipLineBreaks :
    Gives skipLineBreaks (after session first before) ()
      (after session (beyond first) before) := by
  induction shape : first.rest.length using Nat.strong_induction_on generalizing first with
  | _ length previous =>
    subst shape
    by_cases breaks : isLineBreak first.current = true
    · have more : first.rest ≠ [] := rest_ne_nil marked fun ended => by
        simp [isLineBreak, ended] at breaks
      have moved := Cursor.moves_advance more
      have shorter := moved.length_rest
      rw [List.length_singleton] at shorter
      have further := previous first.advance.2.rest.length (by omega) (moved.mark ▸ marked) rfl
      rw [beyond, Cursor.skipWhile_advance more breaks] at further
      refine gives_run_next ((gives_get _).bind (.of_pos breaks ?_)) further
      exact (gives_take session first before).bind (gives_pure _ _)
    · rw [beyond, Cursor.skipWhile_of_current (Bool.eq_false_iff.mpr breaks)]
      exact gives_run_last ((gives_get _).bind (.of_neg breaks (gives_pure _ _)))

theorem gives_current :
    Gives current (after session first before) (look session.mode first)
      (after session (settle session.mode first) before) := by
  rw [current]
  refine (gives_get _).bind ?_
  rw [look, settle]
  by_cases ignored : session.mode.lineBreaksIgnored = true
  · rw [if_pos ignored]
    exact .of_pos ignored
      ((gives_skipLineBreaks marked).bind ((gives_get _).bind (gives_pure _ _)))
  · rw [if_neg ignored]
    exact .of_neg ignored ((gives_get _).bind (gives_pure _ _))

/-- Looking again shows the same token. -/
theorem gives_current_settled :
    Gives current (after session (settle session.mode first) before) (look session.mode first)
      (after session (settle session.mode first) before) := by
  have settled : (settle session.mode first).mark.kind = .endOfStream := by simpa using marked
  have looked : Gives current (after session (settle session.mode first) before) _ _ :=
    gives_current settled
  rwa [look_settle, settle_settle] at looked

theorem gives_advance :
    Gives advance (after session first before) (look session.mode first)
      (after session (past session.mode first) before) :=
  (gives_current marked).bind (gives_take session _ before)

theorem gives_advance_settled :
    Gives advance (after session (settle session.mode first) before) (look session.mode first)
      (after session (past session.mode first) before) :=
  (gives_current_settled marked).bind (gives_take session _ before)

/-- Tokens are passed as long as the test holds of them, and line breaks where they are ignored. -/
theorem gives_skipping {test : Lexeme → Bool}
    (stops : ∀ lexeme, lexeme.kind = .endOfStream → test lexeme = false) :
    Gives (skipping test) (after session first before) ()
      (after session (first.skipWhile (passes session.mode test)) before) := by
  induction shape : first.rest.length using Nat.strong_induction_on generalizing first with
  | _ length previous =>
    subst shape
    rw [← skipWhile_settle]
    have settled : (settle session.mode first).mark.kind = .endOfStream := by simpa using marked
    by_cases goesOn : test (look session.mode first) = true
    · have token : (look session.mode first).kind ≠ .endOfStream := fun ended => by
        simp [stops _ ended] at goesOn
      have further := previous _ (length_past marked token) (by simpa using marked) rfl
      rw [past, Cursor.skipWhile_advance (rest_ne_nil settled token)
        (Bool.or_eq_true_iff.mpr (.inr goesOn))] at further
      refine gives_run_next ((gives_current marked).bind (.of_pos goesOn ?_)) further
      exact (gives_advance_settled marked).bind (gives_pure _ _)
    · have stopped : passes session.mode test (settle session.mode first).current = false :=
        Bool.or_eq_false_iff.mpr
          ⟨isLineBreak_look session.mode marked, Bool.eq_false_iff.mpr goesOn⟩
      rw [Cursor.skipWhile_of_current stopped]
      exact gives_run_last ((gives_current marked).bind (.of_neg goesOn (gives_pure _ _)))

end Looking

/-! ### Looking ahead -/

/-- The tokens from the first one on that is no ignored line break. -/
def inSight (mode : Mode) (rest : List Lexeme) : List Lexeme :=
  if mode.lineBreaksIgnored then rest.dropWhile isLineBreak else rest

theorem inSight_cons (mode : Mode) (lexeme : Lexeme) (rest : List Lexeme) :
    inSight mode (lexeme :: rest)
      = if mode.lineBreaksIgnored && isLineBreak lexeme then inSight mode rest
        else lexeme :: rest := by
  unfold inSight
  cases mode.lineBreaksIgnored <;> cases breaks : isLineBreak lexeme <;> simp [breaks]

section Ahead

variable {text : Text} (faithful : Faithful text session.cursor)
include faithful

omit faithful in
theorem gives_ahead (session : Session) (offset : Nat) :
    Gives (ahead offset) session
      ((session.cursor.rest.drop offset).headD session.cursor.mark) session := by
  have shown : session.cursor.rest.getD offset session.cursor.mark
      = (session.cursor.rest.drop offset).headD session.cursor.mark := by
    simp [List.headD_eq_head?_getD, List.head?_drop]
  rw [← shown]
  exact (gives_get session).bind (gives_pure _ _)

/-- The loop ends at the mark, which is not passed even when the current token was not seen. -/
theorem gives_peekNext_from (offset : Nat) (seen : Bool) :
    Gives (peekNext offset seen) session
      ((inSight session.mode (if seen then session.cursor.rest.drop offset
        else (inSight session.mode (session.cursor.rest.drop offset)).drop 1)).headD
          session.cursor.mark) session := by
  obtain ⟨rest, shape⟩ : ∃ rest, session.cursor.rest.drop offset = rest := ⟨_, rfl⟩
  have reached := gives_ahead session offset
  rw [shape] at reached ⊢
  induction rest generalizing offset seen with
  | nil =>
    have ends := faithful.marked
    refine gives_run_last (reached.bind ((gives_get session).bind (.of_neg ?_ (.of_pos ?_ ?_))))
    · simp [isLineBreak, ends]
    · simp [ends]
    · cases seen <;> simpa [inSight] using gives_pure _ session
  | cons lexeme rest previous =>
    have dropped : lexeme ∈ session.cursor.rest.drop offset := by
      rw [shape]
      exact List.mem_cons_self
    have token := faithful.proper lexeme (List.mem_append_right _ (List.mem_of_mem_drop dropped))
    have behind : session.cursor.rest.drop (offset + 1) = rest := by
      rw [← List.drop_drop, shape]
      rfl
    have further (seen : Bool) := previous (offset + 1) seen behind (behind ▸ gives_ahead _ _)
    by_cases ignored : (session.mode.lineBreaksIgnored && isLineBreak lexeme) = true
    · refine gives_run_next
        (reached.bind ((gives_get session).bind (.of_pos ignored (gives_pure _ _)))) ?_
      have same := further seen
      rw [inSight_cons, if_pos ignored]
      cases seen
      · exact same
      · rwa [if_pos rfl, inSight_cons, if_pos ignored]
    · cases seen
      · have unseen : ¬(false || lexeme.kind == .endOfStream) = true := by simpa using token
        refine gives_run_next (reached.bind ((gives_get session).bind
          (.of_neg ignored (.of_neg unseen (gives_pure _ _))))) ?_
        rw [inSight_cons, if_neg ignored]
        exact further true
      · rw [if_pos rfl, inSight_cons, if_neg ignored]
        exact gives_run_last (reached.bind ((gives_get session).bind
          (.of_neg ignored (.of_pos rfl (gives_pure _ _)))))

/-- Without moving, the token behind the current one is seen. -/
theorem gives_peekNext :
    Gives (peekNext 0 false) session (look session.mode (past session.mode session.cursor))
      session := by
  have found := gives_peekNext_from faithful 0 false
  rw [look, Cursor.current, settle_rest, past_rest, settle_rest, settle_mark, past_mark]
  exact found

omit faithful in
theorem gives_nextBeyondLineBreaks (marked : session.cursor.mark.kind = .endOfStream) :
    Gives (nextBeyondLineBreaks 0) session (beyond session.cursor).current session := by
  have within : ∀ (rest : List Lexeme) (offset : Nat), session.cursor.rest.drop offset = rest →
      Gives (nextBeyondLineBreaks offset) session
        ((rest.dropWhile isLineBreak).headD session.cursor.mark) session := by
    intro rest
    induction rest with
    | nil =>
      intro offset shape
      have reached := gives_ahead session offset
      rw [shape] at reached
      exact gives_run_last
        (reached.bind (.of_neg (by simp [isLineBreak, marked]) (gives_pure _ _)))
    | cons lexeme rest previous =>
      intro offset shape
      have reached := gives_ahead session offset
      rw [shape] at reached
      by_cases breaks : isLineBreak lexeme = true
      · rw [List.dropWhile_cons_of_pos breaks]
        refine gives_run_next (reached.bind (.of_pos breaks (gives_pure _ _)))
          (previous (offset + 1) ?_)
        rw [← List.drop_drop, shape]
        rfl
      · rw [List.dropWhile_cons_of_neg breaks]
        exact gives_run_last (reached.bind (.of_neg breaks (gives_pure _ _)))
  exact within _ 0 rfl

end Ahead

/-! ### Passing a bracket -/

theorem drop_succ {α : Type} {cursor : Cursor α} (more : cursor.rest ≠ []) (count : Nat) :
    cursor.drop (count + 1) = cursor.advance.2.drop count := by
  obtain ⟨passed, rest, mark⟩ := cursor
  cases rest with
  | nil => exact absurd rfl more
  | cons item rest => simp [Cursor.drop, Cursor.advance]

theorem drop_zero {α : Type} (cursor : Cursor α) : cursor.drop 0 = cursor := by
  simp [Cursor.drop]

/-- Line breaks open and close nothing. -/
theorem drop_closing_settle (mode : Mode) (depth : Nat) (cursor : Cursor Lexeme) :
    (settle mode cursor).drop (closingLength (depth + 1) (settle mode cursor).rest)
      = cursor.drop (closingLength (depth + 1) cursor.rest) := by
  unfold settle
  split
  · obtain ⟨passed, rest, mark⟩ := cursor
    induction rest generalizing passed with
    | nil => rfl
    | cons lexeme rest previous =>
      by_cases breaks : isLineBreak lexeme = true
      · have kind : lexeme.kind = .lineBreak := eq_of_beq breaks
        have longer : closingLength (depth + 1) (lexeme :: rest)
            = closingLength (depth + 1) rest + 1 := by
          simp [closingLength, kind, TokenKind.isOpening, TokenKind.isClosing]
        have behind := previous (lexeme :: passed)
        rw [← Cursor.skipWhile_advance (List.cons_ne_nil lexeme rest) breaks, longer,
          drop_succ (List.cons_ne_nil lexeme rest)]
        exact behind
      · rw [Cursor.skipWhile_of_current (Bool.eq_false_iff.mpr breaks)]
  · rfl

section Closing

variable {text : Text} (faithful : Faithful text first)
include faithful

/-- A bracket is passed up to its end, or up to the end of the text. -/
theorem gives_skipToClosing (opened : Nat) :
    Gives (skipToClosing opened) (after session first before) ()
      (after session (first.drop (closingLength opened first.rest)) before) := by
  induction shape : first.rest.length using Nat.strong_induction_on generalizing first opened with
  | _ length previous =>
    subst shape
    cases opened with
    | zero =>
      rw [closingLength, drop_zero]
      exact gives_run_last (gives_pure _ _)
    | succ depth =>
      rw [← drop_closing_settle session.mode]
      have looked : Gives current (after session first before) (look session.mode first) _ :=
        gives_current faithful.marked
      have settled := faithful.settle session.mode
      by_cases ended : (look session.mode first).kind = .endOfStream
      · rw [settled.rest_eq_nil ended, closingLength, drop_zero]
        exact gives_run_last (looked.bind (.of_pos (beq_iff_eq.mpr ended) (gives_pure _ _)))
      have token : ¬((look session.mode first).kind == .endOfStream) = true := by simpa using ended
      have more := rest_ne_nil settled.marked ended
      obtain ⟨rest, shape⟩ : ∃ rest,
          (settle session.mode first).rest = look session.mode first :: rest :=
        ⟨_, (Cursor.moves_advance more).rest⟩
      have behind : (past session.mode first).rest = rest := by rw [past_rest, shape, List.drop_one,
        List.tail_cons]
      have taken : Gives advance (after session (settle session.mode first) before) _ _ :=
        gives_advance_settled faithful.marked
      have further (count : Nat) := previous _ (length_past faithful.marked ended)
        (faithful.past session.mode) count rfl
      rw [behind] at further
      rw [shape, closingLength, drop_succ more]
      by_cases opens : (look session.mode first).kind.isOpening = true
      · rw [if_pos opens]
        exact gives_run_next (looked.bind (.of_neg token (.of_pos opens
          (taken.bind (gives_pure _ _))))) (further (depth + 2))
      by_cases closes : (look session.mode first).kind.isClosing = true
      · rw [if_neg opens, if_pos closes]
        exact gives_run_next (looked.bind (.of_neg token (.of_neg opens (.of_pos closes
          ((gives_lift rfl).bind (taken.bind (gives_pure _ _))))))) (further depth)
      · rw [if_neg opens, if_neg closes]
        exact gives_run_next (looked.bind (.of_neg token (.of_neg opens (.of_neg closes
          (taken.bind (gives_pure _ _)))))) (further (depth + 1))

end Closing

end Checked

end RSource
