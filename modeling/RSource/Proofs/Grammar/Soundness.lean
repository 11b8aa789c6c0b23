/-
**Every reader of the grammar obeys its productions.**

Each lemma runs one reader on paper and finds the rule of `Derives` that describes the run. The
readers inside are one level deeper, and `Obeys` is what is known of them; `obeys_expressionWithin`
closes the circle by going down the levels. Loops are unrolled by `untilDone_induction` and
`collect_induction`: a round that is not the last one takes a token, so the bound of a loop is never
what ends it.
-/

import RSource.Proofs.Grammar.Consumption

namespace RSource

namespace Reader

open Grammar Cursor

/-! ### Running a reader -/

/-- What a reader gives in a mode, from a cursor on, and the cursor after it. -/
def run {α : Type} (reader : Reader α) (mode : Mode) (cursor : Cursor Lexeme) :
    α × Cursor Lexeme := reader mode cursor

variable {α β : Type} (mode : Mode) (cursor : Cursor Lexeme)

theorem run_pure (value : α) : (pure value : Reader α).run mode cursor = (value, cursor) :=
  Prod.ext rfl rfl

theorem run_bind (first : Reader α) (next : α → Reader β) :
    (first >>= next).run mode cursor
      = (next (first.run mode cursor).1).run mode (first.run mode cursor).2 := rfl

theorem run_ite (condition : Prop) [Decidable condition] (yes no : Reader α) :
    (if condition then yes else no : Reader α).run mode cursor
      = if condition then yes.run mode cursor else no.run mode cursor := by
  split <;> rfl

theorem run_current :
    Reader.current.run mode cursor = (look mode cursor, settle mode cursor) := Prod.ext rfl rfl

theorem run_mode : Reader.mode.run mode cursor = (mode, cursor) :=
  Prod.ext rfl rfl

theorem run_previous? : Reader.previous?.run mode cursor = (cursor.previous?, cursor) :=
  Prod.ext rfl rfl

theorem run_advance : Reader.advance.run mode cursor = (look mode cursor, past mode cursor) :=
  Prod.ext (advance_fst _) rfl

theorem run_leaf : Reader.leaf.run mode cursor = (leafAt mode cursor, past mode cursor) := by
  rw [Reader.leaf, run_bind, run_advance, run_pure, leafAt]

theorem run_skipLineBreaks : skipLineBreaks.run mode cursor = ((), beyond cursor) :=
  Prod.ext rfl rfl

theorem run_takeSeparators :
    (Reader.takeWhile isSeparator).run mode cursor
      = (cursor.rest.takeWhile isSeparator, pastSeparators cursor) :=
  Prod.ext rfl rfl

/-- The token behind the current one is the current one behind it. -/
theorem run_peekNext :
    Reader.peekNext.run mode cursor = (look mode (past mode cursor), cursor) := by
  refine Prod.ext ?_ rfl
  rw [look, Cursor.current, settle_rest, past_rest, settle_rest, settle_mark, past_mark]
  rfl

theorem run_missing (kind : ProblemKind) :
    (missing kind).run mode cursor = (⟨kind, (look mode cursor).token⟩, settle mode cursor) :=
  Prod.ext rfl rfl

theorem run_skipToBoundary :
    skipToBoundary.run mode cursor = (lineRest mode cursor, boundary mode cursor) :=
  Prod.ext rfl rfl

theorem run_ignoringLineBreaks (reader : Reader α) :
    (ignoringLineBreaks reader).run mode cursor = reader.run mode.bracketed cursor := rfl

theorem run_insideBraces (reader : Reader α) :
    (insideBraces reader).run mode cursor = reader.run mode.braced cursor := rfl

/-! ### Loops -/

theorem run_untilDoneWithin_cons (round : α → Reader (α × Bool)) (extra : Lexeme)
    (bound : List Lexeme) (value : α) :
    (untilDoneWithin round (extra :: bound) value).run mode cursor
      = if ((round value).run mode cursor).1.2
        then (((round value).run mode cursor).1.1, ((round value).run mode cursor).2)
        else (untilDoneWithin round bound ((round value).run mode cursor).1.1).run mode
          ((round value).run mode cursor).2 := rfl

theorem run_collectWithin_cons (round : Reader (List α × Bool)) (extra : Lexeme)
    (bound : List Lexeme) :
    (collectWithin round (extra :: bound)).run mode cursor
      = if (round.run mode cursor).1.2
        then ((round.run mode cursor).1.1, (round.run mode cursor).2)
        else ((round.run mode cursor).1.1
            ++ ((collectWithin round bound).run mode (round.run mode cursor).2).1,
          ((collectWithin round bound).run mode (round.run mode cursor).2).2) := rfl

omit cursor

/-- What holds at the start of a loop, is kept by every round and gives `Final` in the last one
gives `Final` at its end, when every round but the last takes a token. -/
theorem untilDone_induction {round : α → Reader (α × Bool)} (Inv Final : α → Cursor Lexeme → Prop)
    (more : ∀ value here, Inv value here → ((round value).run mode here).1.2 = false →
      Inv ((round value).run mode here).1.1 ((round value).run mode here).2
        ∧ ((round value).run mode here).2.rest.length < here.rest.length)
    (done : ∀ value here, Inv value here → ((round value).run mode here).1.2 = true →
      Final ((round value).run mode here).1.1 ((round value).run mode here).2)
    {start : α} {cursor : Cursor Lexeme} (begins : Inv start cursor) :
    Final ((untilDone round start).run mode cursor).1
      ((untilDone round start).run mode cursor).2 := by
  have within : ∀ (bound : List Lexeme) value here, here.rest.length ≤ bound.length →
      Inv value here → Final ((untilDoneWithin round bound value).run mode here).1
        ((untilDoneWithin round bound value).run mode here).2 := by
    intro bound
    induction bound with
    | nil =>
      intro value here short holds
      cases ended : ((round value).run mode here).1.2 with
      | true => exact done value here holds ended
      | false =>
        have shorter := (more value here holds ended).2
        rw [List.length_nil] at short
        omega
    | cons _ bound previous =>
      intro value here short holds
      rw [run_untilDoneWithin_cons]
      cases ended : ((round value).run mode here).1.2 with
      | true => exact done value here holds ended
      | false =>
        obtain ⟨kept, shorter⟩ := more value here holds ended
        rw [List.length_cons] at short
        exact previous _ _ (by omega) kept
  exact within cursor.rest start cursor le_rfl begins

/-- The same for a loop that joins what its rounds give. -/
theorem collect_induction {round : Reader (List α × Bool)}
    (Inv Final : List α → Cursor Lexeme → Prop)
    (more : ∀ items here, Inv items here → (round.run mode here).1.2 = false →
      Inv (items ++ (round.run mode here).1.1) (round.run mode here).2
        ∧ (round.run mode here).2.rest.length < here.rest.length)
    (done : ∀ items here, Inv items here → (round.run mode here).1.2 = true →
      Final (items ++ (round.run mode here).1.1) (round.run mode here).2)
    {cursor : Cursor Lexeme} (begins : Inv [] cursor) :
    Final ((collect round).run mode cursor).1 ((collect round).run mode cursor).2 := by
  have within : ∀ (bound : List Lexeme) items here, here.rest.length ≤ bound.length →
      Inv items here → Final (items ++ ((collectWithin round bound).run mode here).1)
        ((collectWithin round bound).run mode here).2 := by
    intro bound
    induction bound with
    | nil =>
      intro items here short holds
      cases ended : (round.run mode here).1.2 with
      | true => exact done items here holds ended
      | false =>
        have shorter := (more items here holds ended).2
        rw [List.length_nil] at short
        omega
    | cons _ bound previous =>
      intro items here short holds
      rw [run_collectWithin_cons]
      cases ended : (round.run mode here).1.2 with
      | true => exact done items here holds ended
      | false =>
        obtain ⟨kept, shorter⟩ := more items here holds ended
        rw [List.length_cons] at short
        have further := previous _ _ (by omega) kept
        rwa [List.append_assoc] at further
  exact within cursor.rest [] cursor le_rfl begins

end Reader

namespace Grammar

open Reader Cursor

@[simp] theorem leafAt_settle (mode : Mode) (cursor : Cursor Lexeme) :
    leafAt mode (settle mode cursor) = leafAt mode cursor := by
  rw [leafAt, look_settle, leafAt]

theorem Derives.mark {phrase : Phrase} {mode : Mode} {first last : Cursor Lexeme}
    {parts : List Part} (run : Derives phrase mode first parts last)
    (marked : first.mark.kind = .endOfStream) : last.mark.kind = .endOfStream := by
  obtain ⟨consumed, moved, kept⟩ := run.accounts marked
  rw [moved.mark]
  exact marked

/-! ### Single tokens -/

theorem run_expect (kind : TokenKind) (problem : ProblemKind) (mode : Mode)
    (cursor : Cursor Lexeme) :
    (Reader.expect kind problem).run mode cursor
      = if (look mode cursor).kind == kind then (.ok (leafAt mode cursor), past mode cursor)
        else (.error ⟨problem, (look mode cursor).token⟩, settle mode cursor) := by
  unfold Reader.expect
  simp only [run_bind, run_current, run_ite, run_leaf, run_missing, run_pure, leafAt_settle,
    past_settle, look_settle, settle_settle]

theorem derives_expect (kind : TokenKind) (role : Role) (problem : ProblemKind) (mode : Mode)
    (cursor : Cursor Lexeme) (token : (⟨kind, 0, []⟩ : Lexeme).isReadable = true) :
    Derives (.expected (isOfKind kind) role problem) mode cursor
      [.ofResult role ((Reader.expect kind problem).run mode cursor).1]
      ((Reader.expect kind problem).run mode cursor).2 := by
  rw [run_expect]
  split
  · rename_i found
    exact .found found (isReadable_of_kind (eq_of_beq found) token)
  · rename_i other
    exact .missing (Bool.eq_false_iff.mpr other)

theorem run_leafOf (kind : TokenKind) (role : Role) (mode : Mode) (cursor : Cursor Lexeme) :
    (Reader.leafOf kind role).run mode cursor
      = if (look mode cursor).kind == kind
        then ([.child role (leafAt mode cursor)], past mode cursor)
        else ([], settle mode cursor) := by
  unfold Reader.leafOf
  simp only [run_bind, run_current, run_ite, run_leaf, run_pure, leafAt_settle, past_settle]

theorem derives_leafOf {kind : TokenKind} (role : Role) (mode : Mode) (cursor : Cursor Lexeme)
    (token : (⟨kind, 0, []⟩ : Lexeme).isReadable = true) :
    Derives (.optional (isOfKind kind) role) mode cursor
      ((Reader.leafOf kind role).run mode cursor).1
      ((Reader.leafOf kind role).run mode cursor).2 := by
  rw [run_leafOf]
  split
  · rename_i found
    exact .present found (isReadable_of_kind (eq_of_beq found) token)
  · rename_i other
    exact .absent (Bool.eq_false_iff.mpr other)

theorem derives_closing (delimiter : Delimiter) (role : Role) (mode : Mode)
    (cursor : Cursor Lexeme) :
    Derives (.expected (isOfKind delimiter.closer) role (.closerMissing delimiter)) mode cursor
      [.ofResult role ((Reader.closing delimiter).run mode cursor).1]
      ((Reader.closing delimiter).run mode cursor).2 :=
  derives_expect delimiter.closer role _ mode cursor (by cases delimiter <;> rfl)

theorem derives_member (mode : Mode) (cursor : Cursor Lexeme) :
    Derives (.expected isMember .right .identifierExpected) mode cursor
      [.ofResult .right (member.run mode cursor).1] (member.run mode cursor).2 := by
  unfold member
  simp only [run_bind, run_current, run_ite]
  split
  · rename_i found
    simp only [run_leaf, run_pure, leafAt_settle, past_settle]
    exact .found found (isReadable_of_isMember found)
  · rename_i other
    simp only [run_pure]
    exact .missing (Bool.eq_false_iff.mpr other)

theorem derives_in (mode : Mode) (cursor : Cursor Lexeme) :
    Derives (.expected isIn .inKeyword .inKeywordExpected) mode cursor
      [.ofResult .inKeyword (if isIn (look mode cursor) then .ok (leafAt mode cursor)
        else .error ⟨.inKeywordExpected, (look mode cursor).token⟩)]
      (if isIn (look mode cursor) then past mode cursor else settle mode cursor) := by
  split
  · rename_i found
    exact .found found (isReadable_of_isKeyword found)
  · rename_i other
    exact .missing (Bool.eq_false_iff.mpr other)

/-- Looking for an `else` does not move the cursor. -/
theorem run_isElseNext (mode : Mode) (cursor : Cursor Lexeme) :
    isElseNext.run mode cursor = (seesElse mode cursor, cursor) := by
  unfold isElseNext seesElse
  simp only [run_bind, run_mode, run_ite, run_current, run_pure]
  split
  · rfl
  · rename_i here
    rw [Bool.or_eq_true, not_or, Bool.not_eq_true] at here
    have same : settle mode cursor = cursor := if_neg (by simp [here.2])
    rw [same]

theorem run_separation (tree : Tree) (mode : Mode) (cursor : Cursor Lexeme) :
    (separation (hasSemicolon tree)).run mode cursor
      = if isSeparated mode tree cursor then ([], settle mode cursor)
        else ([.problem ⟨.unexpectedToken, (look mode cursor).token⟩
          (lineRest mode (settle mode cursor))], boundary mode (settle mode cursor)) := by
  unfold separation isSeparated
  simp only [run_bind, run_previous?, run_current, run_ite, run_skipToBoundary, run_pure]

/-- A head, when its contents are read as the productions say. -/
theorem derives_head {construct : Construct} {levels : Nat}
    {contents : Nat → Reader (List Part)} (mode : Mode) (cursor : Cursor Lexeme)
    (inner : ∀ anchor here, here.mark.kind = .endOfStream →
      Derives (.contents construct levels anchor) mode.bracketed here
        ((contents anchor).run mode.bracketed here).1 ((contents anchor).run mode.bracketed here).2)
    (marked : cursor.mark.kind = .endOfStream) :
    Derives (.head construct levels) mode cursor ((head contents).run mode cursor).1
      ((head contents).run mode cursor).2 := by
  unfold head
  rw [run_bind, run_expect]
  by_cases opened : ((look mode cursor).kind == .openBrace) = true
  · simp only [if_pos opened, run_bind, run_ignoringLineBreaks, run_pure]
    exact .opened (eq_of_beq opened) (inner _ _ (by simpa using marked))
  · simp only [if_neg opened, run_pure]
    exact .unopened (by simpa using opened)

/-! ### The readers, one level up -/

/-- The readers of the next level obey the productions. -/
def Obeys (levels : Nat) (deeper : Expression) : Prop :=
  ∀ (minimum : Nat) (role : Role) (mode : Mode) (cursor : Cursor Lexeme),
    cursor.mark.kind = .endOfStream →
    Derives (.expression levels minimum role) mode cursor
      (Part.ofOption role ((deeper minimum).run mode cursor).1) ((deeper minimum).run mode cursor).2

section Readers

variable {levels : Nat} {deeper : Expression} (obeys : Obeys levels deeper)
include obeys

theorem derives_operand (minimum : Nat) (role : Role) (mode : Mode) (cursor : Cursor Lexeme)
    (marked : cursor.mark.kind = .endOfStream) :
    Derives (.operand levels minimum role) mode cursor
      [((operand (deeper minimum) role).run mode cursor).1]
      ((operand (deeper minimum) role).run mode cursor).2 := by
  have inner := obeys minimum role mode cursor marked
  unfold Grammar.operand
  simp only [run_bind]
  cases found : ((deeper minimum).run mode cursor).1 with
  | none =>
    rw [found] at inner
    simp only [run_bind, run_missing, run_pure]
    exact .noOperand inner
  | some tree =>
    rw [found] at inner
    exact .operand inner

theorem derives_statement (role : Role) (mode : Mode) (cursor : Cursor Lexeme)
    (marked : cursor.mark.kind = .endOfStream) :
    Derives (.statement levels role) mode cursor
      (Part.ofOption role ((statement (deeper 0)).run mode cursor).1)
      ((statement (deeper 0)).run mode cursor).2 := by
  have inner := obeys 0 .expression mode cursor marked
  unfold Grammar.statement
  simp only [run_bind]
  cases found : ((deeper 0).run mode cursor).1 with
  | none =>
    rw [found] at inner
    exact .noStatement inner
  | some tree =>
    rw [found] at inner
    simp only [run_bind, run_pure]
    exact .statement inner (derives_leafOf _ _ _ rfl)

theorem derives_value (mode : Mode) (cursor : Cursor Lexeme)
    (marked : cursor.mark.kind = .endOfStream) :
    Derives (.expression levels 0 .value) mode cursor ((value (deeper 0)).run mode cursor).1
      ((value (deeper 0)).run mode cursor).2 := by
  have inner := obeys 0 .value mode cursor marked
  unfold value
  simp only [run_bind]
  cases found : ((deeper 0).run mode cursor).1 with
  | none =>
    rw [found] at inner
    exact inner
  | some tree =>
    rw [found] at inner
    exact inner

/-! ### Statements and scopes -/

/-- One round of statements ends them or adds to them. -/
theorem statementRound_spec (terminator : Option TokenKind) (mode : Mode)
    (first here : Cursor Lexeme) (parts : List Part) (marked : here.mark.kind = .endOfStream)
    (listing : Derives (.listing terminator levels) mode first parts here) :
    (((statementRound (deeper 0) terminator).run mode here).1.2 = true →
      Derives (.statements terminator levels) mode first
        (parts ++ ((statementRound (deeper 0) terminator).run mode here).1.1)
        ((statementRound (deeper 0) terminator).run mode here).2)
    ∧ (((statementRound (deeper 0) terminator).run mode here).1.2 = false →
      Derives (.listing terminator levels) mode first
        (parts ++ ((statementRound (deeper 0) terminator).run mode here).1.1)
        ((statementRound (deeper 0) terminator).run mode here).2
      ∧ Tree.partsTokens ((statementRound (deeper 0) terminator).run mode here).1.1 ≠ []) := by
  have inner := derives_statement obeys .statements mode (settle mode (pastSeparators here))
    (by simpa using marked)
  unfold statementRound
  simp only [run_bind, run_takeSeparators, run_current, run_ite]
  split
  · rename_i ends
    simp only [run_pure, List.append_nil]
    exact ⟨fun _ => .statements listing ends, nofun⟩
  rename_i goesOn
  replace goesOn := Bool.eq_false_iff.mpr goesOn
  split
  · rename_i closed
    simp only [run_advance, run_pure, past_settle, look_settle]
    exact ⟨nofun, fun _ => ⟨.stray listing goesOn (eq_of_beq closed), by simp⟩⟩
  rename_i begins
  replace begins : (look mode (pastSeparators here)).kind ≠ .closeCurlyBrace := by
    simpa using begins
  cases found : ((statement (deeper 0)).run mode (settle mode (pastSeparators here))).1 with
  | none =>
    rw [found] at inner
    simp only [run_bind, run_advance, run_skipToBoundary, run_pure]
    exact ⟨nofun, fun _ => ⟨.unreadable listing goesOn begins inner, by simp⟩⟩
  | some tree =>
    rw [found] at inner
    have held : tree.tokens ≠ [] := by
      simpa using inner.partsTokens_ne_nil rfl (List.cons_ne_nil _ _)
    simp only [run_bind, run_pure]
    refine ⟨nofun, fun _ => ?_⟩
    rw [run_separation]
    split
    · rename_i separated
      exact ⟨.listed listing goesOn begins inner separated, by simp [held]⟩
    · rename_i crowded
      exact ⟨.crowded listing goesOn begins inner (Bool.eq_false_iff.mpr crowded), by simp [held]⟩

theorem derives_statements (terminator : Option TokenKind) (mode : Mode) (cursor : Cursor Lexeme)
    (marked : cursor.mark.kind = .endOfStream) :
    Derives (.statements terminator levels) mode cursor
      ((statements (deeper 0) terminator).run mode cursor).1
      ((statements (deeper 0) terminator).run mode cursor).2 := by
  refine collect_induction mode
    (fun parts here => Derives (.listing terminator levels) mode cursor parts here)
    (fun parts here => Derives (.statements terminator levels) mode cursor parts here)
    (fun parts here listing going => ?_) (fun parts here listing ended => ?_) .listingStart
  · have round := (statementRound_spec obeys terminator mode cursor here parts
      (listing.mark marked) listing).2 going
    have alone := (statementRound_spec obeys terminator mode here here []
      (listing.mark marked) .listingStart).2 going
    exact ⟨round.1, alone.1.accounts.shorter (by simpa using alone.2) (listing.mark marked)⟩
  · exact (statementRound_spec obeys terminator mode cursor here parts
      (listing.mark marked) listing).1 ended

theorem derives_bracedScope (role : Role) (mode : Mode) (cursor : Cursor Lexeme)
    (marked : cursor.mark.kind = .endOfStream)
    (opened : (look mode cursor).kind = .openCurlyBrace) :
    Derives (.block levels role) mode cursor
      [.child role ((bracedScope (deeper 0)).run mode cursor).1]
      ((bracedScope (deeper 0)).run mode cursor).2 := by
  have items := derives_statements obeys (some .closeCurlyBrace) mode.braced (past mode cursor)
    (by simpa using marked)
  unfold bracedScope
  simp only [run_bind, run_leaf, run_insideBraces, run_pure]
  exact .block opened items (derives_closing .curlyBrace .closeCurly _ _)

theorem derives_body (role : Role) (mode : Mode) (cursor : Cursor Lexeme)
    (marked : cursor.mark.kind = .endOfStream) :
    Derives (.body levels role) mode cursor [((body (deeper 0) role).run mode cursor).1]
      ((body (deeper 0) role).run mode cursor).2 := by
  have simple := derives_statement obeys .statement mode (settle mode (beyond cursor))
    (by simpa using marked)
  unfold body scope
  simp only [run_bind, run_skipLineBreaks, run_current, run_ite, run_pure]
  split
  · rename_i opened
    exact .blockBody (eq_of_beq opened)
      (derives_bracedScope obeys role mode _ (by simpa using marked) (by simpa using opened))
  rename_i other
  replace other : (look mode (beyond cursor)).kind ≠ .openCurlyBrace := by simpa using other
  rw [if_neg (by simp)]
  cases found : ((statement (deeper 0)).run mode (settle mode (beyond cursor))).1 with
  | none =>
    rw [found] at simple
    exact .noBody other simple
  | some tree =>
    rw [found] at simple
    exact .simpleBody other simple

/-! ### Arguments -/

theorem derives_item (style : ArgumentStyle) (mode : Mode) (cursor : Cursor Lexeme)
    (marked : cursor.mark.kind = .endOfStream) :
    Derives (.item style levels) mode cursor
      ((style.item (deeper 0)).run mode cursor).1 ((style.item (deeper 0)).run mode cursor).2 := by
  have here := derives_value obeys mode (settle mode cursor) (by simpa using marked)
  have behind := derives_value obeys mode (past mode (past mode cursor)) (by simpa using marked)
  cases style with
  | call =>
    unfold ArgumentStyle.item callArgument
    simp only [run_bind, run_current, run_peekNext, run_ite, past_settle]
    split
    · rename_i named
      simp only [run_leaf, run_pure, leafAt_settle, past_settle]
      exact .named named behind
    · rename_i unnamed
      exact .unnamed (Bool.eq_false_iff.mpr unnamed) here
  | formals =>
    unfold ArgumentStyle.item formal
    simp only [run_bind, run_current, run_ite]
    split
    · rename_i name
      simp only [run_leaf, run_pure, leafAt_settle, past_settle]
      split
      · rename_i equals
        exact .formalDefault (eq_of_beq name) equals behind
      · rename_i other
        exact .formal (eq_of_beq name) (Bool.eq_false_iff.mpr other)
    rename_i unnamed
    split
    · rename_i comma
      exact .emptyFormal (eq_of_beq comma) here
    · rename_i other
      simp only [run_pure]
      exact .misplacedFormal (by simpa using unnamed) (by simpa using other) here

/-- One round of arguments adds one with its comma, or ends the list. -/
theorem argumentRound_spec (style : ArgumentStyle) (delimiter : Delimiter) (mode : Mode)
    (first here : Cursor Lexeme) (parts : List Part) (marked : here.mark.kind = .endOfStream)
    (items : Derives (.items style delimiter levels) mode first parts here) :
    (((argumentRound (deeper 0) style delimiter).run mode here).1.2 = true →
      ∀ anchor role, Derives (.arguments style delimiter levels anchor role) mode first
        [.child role (listOf anchor
          (parts ++ ((argumentRound (deeper 0) style delimiter).run mode here).1.1))]
        ((argumentRound (deeper 0) style delimiter).run mode here).2)
    ∧ (((argumentRound (deeper 0) style delimiter).run mode here).1.2 = false →
      Derives (.items style delimiter levels) mode first
        (parts ++ ((argumentRound (deeper 0) style delimiter).run mode here).1.1)
        ((argumentRound (deeper 0) style delimiter).run mode here).2
      ∧ Tree.partsTokens ((argumentRound (deeper 0) style delimiter).run mode here).1.1 ≠ []) := by
  have item := derives_item obeys style mode (settle mode here) (by simpa using marked)
  unfold argumentRound
  simp only [run_bind, run_current, run_ite, run_leafOf]
  split
  · rename_i ends
    simp only [run_pure, List.append_nil]
    exact ⟨fun _ anchor role => .closedList items ends, Bool.noConfusion⟩
  rename_i goesOn
  replace goesOn := Bool.eq_false_iff.mpr goesOn
  split
  · rename_i comma
    have some : Part.anyChild (((style.item (deeper 0)).run mode (settle mode here)).1
        ++ [.child .comma (leafAt mode ((style.item (deeper 0)).run mode (settle mode here)).2)])
        = true := by
      simp [Part.anyChild, Part.span?]
    simp only [some, if_true, run_pure]
    refine ⟨Bool.noConfusion, fun _ => ⟨.itemsMore items goesOn item (eq_of_beq comma), ?_⟩⟩
    simp [leafAt]
  rename_i other
  replace other :
      (look mode ((style.item (deeper 0)).run mode (settle mode here)).2).kind ≠ .comma := by
    simpa using other
  simp only [List.append_nil, run_pure, List.isEmpty_nil]
  split
  · rename_i some
    exact ⟨fun _ anchor role => .lastItem items goesOn item other some, Bool.noConfusion⟩
  · rename_i none
    exact ⟨fun _ anchor role => .noItem items goesOn item other (Bool.eq_false_iff.mpr none),
      Bool.noConfusion⟩

theorem derives_argumentList (style : ArgumentStyle) (delimiter : Delimiter) (anchor : Nat)
    (role : Role) (mode : Mode) (cursor : Cursor Lexeme)
    (marked : cursor.mark.kind = .endOfStream) :
    Derives (.arguments style delimiter levels anchor role) mode cursor
      [.child role ((argumentList (deeper 0) style delimiter anchor).run mode cursor).1]
      ((argumentList (deeper 0) style delimiter anchor).run mode cursor).2 := by
  unfold argumentList
  simp only [run_bind, run_pure]
  refine collect_induction mode
    (fun parts here => Derives (.items style delimiter levels) mode cursor parts here)
    (fun parts here => Derives (.arguments style delimiter levels anchor role) mode cursor
      [.child role (listOf anchor parts)] here)
    (fun parts here items going => ?_) (fun parts here items ended => ?_) .itemsStart
  · have round := (argumentRound_spec obeys style delimiter mode cursor here parts
      (items.mark marked) items).2 going
    have alone := (argumentRound_spec obeys style delimiter mode here here []
      (items.mark marked) .itemsStart).2 going
    exact ⟨round.1, alone.1.accounts.shorter (by simpa using alone.2) (items.mark marked)⟩
  · exact (argumentRound_spec obeys style delimiter mode cursor here parts
      (items.mark marked) items).1 ended anchor role

/-! ### Constructs -/

theorem derives_condition {construct : Construct} (tests : construct.hasCondition = true)
    (anchor : Nat) (mode : Mode) (cursor : Cursor Lexeme)
    (marked : cursor.mark.kind = .endOfStream) :
    Derives (.contents construct levels anchor) mode cursor
      ((condition (deeper 0)).run mode cursor).1 ((condition (deeper 0)).run mode cursor).2 := by
  have tested := derives_operand obeys 0 .condition mode cursor marked
  unfold condition closeHead
  simp only [run_bind, run_pure]
  exact .condition tests tested (derives_closing .brace .closeBrace _ _)

theorem derives_iteration (anchor : Nat) (mode : Mode) (cursor : Cursor Lexeme)
    (marked : cursor.mark.kind = .endOfStream) :
    Derives (.contents .forLoop levels anchor) mode cursor
      ((iteration (deeper 0)).run mode cursor).1 ((iteration (deeper 0)).run mode cursor).2 := by
  have counter := derives_expect .identifier .loopVariable .identifierExpected mode cursor rfl
  have link := derives_in mode ((Reader.expect .identifier .identifierExpected).run mode cursor).2
  have range := derives_operand obeys 0 .sequence mode _ (link.mark (counter.mark marked))
  unfold iteration closeHead
  simp only [run_bind, run_current, run_ite, run_leaf, run_pure, leafAt_settle, past_settle]
  have joined : Derives (.contents .forLoop levels anchor) mode cursor _ _ :=
    .iteration counter link range (derives_closing .brace .closeBrace _ _)
  unfold isIn at joined
  split at joined
  · rename_i found
    rw [if_pos found]
    exact joined
  · rename_i other
    rw [if_neg other]
    exact joined

theorem derives_formals (anchor : Nat) (mode : Mode) (cursor : Cursor Lexeme)
    (marked : cursor.mark.kind = .endOfStream) :
    Derives (.contents .functionDefinition levels anchor) mode cursor
      ((formals (deeper 0) anchor).run mode cursor).1
      ((formals (deeper 0) anchor).run mode cursor).2 := by
  have list := derives_argumentList obeys .formals .brace anchor .formals mode cursor marked
  unfold formals closeHead
  simp only [run_bind, run_pure]
  exact .formals list (derives_closing .brace .closeBrace _ _)

theorem derives_elseBranch (mode : Mode) (cursor : Cursor Lexeme)
    (marked : cursor.mark.kind = .endOfStream) :
    Derives (.elseBranch levels) mode cursor ((elseBranch (deeper 0)).run mode cursor).1
      ((elseBranch (deeper 0)).run mode cursor).2 := by
  have other :=
    derives_body obeys .elseBody mode (past mode (beyond cursor)) (by simpa using marked)
  unfold elseBranch
  rw [run_bind, run_isElseNext]
  by_cases seen : seesElse mode cursor = true
  · simp only [if_pos seen, run_bind, run_skipLineBreaks, run_leaf, run_pure]
    exact .elseBranch seen other
  · simp only [if_neg seen, run_pure]
    exact .noElse (Bool.eq_false_iff.mpr seen)

theorem derives_construct (construct : Construct) (role : Role) (mode : Mode)
    (cursor : Cursor Lexeme) (marked : cursor.mark.kind = .endOfStream)
    (readable : (look mode cursor).isReadable = true) :
    Derives (.construct construct levels role) mode cursor
      [.child role ((construct.read (deeper 0)).run mode cursor).1]
      ((construct.read (deeper 0)).run mode cursor).2 := by
  have behind : (past mode cursor).mark.kind = .endOfStream := by simpa using marked
  have tested (construct : Construct) (tests : construct.hasCondition = true) :=
    derives_head mode (past mode cursor)
      (fun anchor here => derives_condition obeys tests anchor mode.bracketed here) behind
  have counted := derives_head mode (past mode cursor)
    (fun anchor here => derives_iteration obeys anchor mode.bracketed here) behind
  have listed := derives_head mode (past mode cursor)
    (fun anchor here => derives_formals obeys anchor mode.bracketed here) behind
  unfold Construct.read
  cases construct with
  | ifElse =>
    have top := tested .ifElse rfl
    have main := derives_body obeys .body mode _ (top.mark behind)
    simp only [run_bind, run_leaf, run_pure]
    have joined : Derives (.construct .ifElse levels role) mode cursor _ _ :=
      .ifElse readable top main (derives_elseBranch obeys mode _ (main.mark (top.mark behind)))
    simpa using joined
  | forLoop =>
    simp only [run_bind, run_leaf, run_pure]
    exact .headed rfl readable counted (derives_body obeys .body mode _ (counted.mark behind))
  | whileLoop =>
    have top := tested .whileLoop rfl
    simp only [run_bind, run_leaf, run_pure]
    exact .headed rfl readable top (derives_body obeys .body mode _ (top.mark behind))
  | repeatLoop =>
    simp only [run_bind, run_leaf, run_pure]
    exact .repeatLoop readable (derives_body obeys .body mode _ behind)
  | functionDefinition =>
    simp only [run_bind, run_leaf, run_pure]
    exact .headed rfl readable listed (derives_body obeys .body mode _ (listed.mark behind))
  | breakLoop =>
    simp only [run_bind, run_leaf, run_pure]
    exact @Derives.word levels role mode cursor .breakLoop rfl readable
  | nextRound =>
    simp only [run_bind, run_leaf, run_pure]
    exact @Derives.word levels role mode cursor .nextRound rfl readable

/-! ### Expressions -/

theorem derives_primary (role : Role) (mode : Mode) (cursor : Cursor Lexeme)
    (marked : cursor.mark.kind = .endOfStream) :
    Derives (.primary levels role) mode cursor
      (Part.ofOption role ((primary (deeper 0)).run mode cursor).1)
      ((primary (deeper 0)).run mode cursor).2 := by
  have settled : (settle mode cursor).mark.kind = .endOfStream := by simpa using marked
  unfold primary
  simp only [run_bind, run_current, run_ite]
  split
  · rename_i atom
    simp only [run_leaf, run_pure, leafAt_settle, past_settle]
    exact .atom atom
  rename_i noAtom
  replace noAtom : isAtom (look mode cursor) = false := Bool.eq_false_iff.mpr noAtom
  split
  · rename_i opened
    have inner := derives_operand obeys 0 .expression mode.bracketed (past mode cursor)
      (by simpa using marked)
    unfold group closeHead
    simp only [run_bind, run_leaf, run_pure, run_ignoringLineBreaks, leafAt_settle, past_settle]
    exact .group (eq_of_beq opened) inner (derives_closing .brace .closeBrace _ _)
  rename_i noBrace
  split
  · rename_i opened
    exact .blockPrimary (eq_of_beq opened)
      (derives_bracedScope obeys role mode _ settled (by simpa using opened))
  rename_i noCurly
  have begins : beginsPrimary (look mode cursor) = false := by
    simp [beginsPrimary, noAtom, Bool.eq_false_iff.mpr noBrace, Bool.eq_false_iff.mpr noCurly]
  split
  · rename_i keyword
    unfold construct
    simp only [run_bind, run_current, look_settle, settle_settle]
    cases found : Construct.ofWord? (look mode cursor).text with
    | none => exact .noPrimary begins fun _ => found
    | some construct =>
      simp only [run_bind, run_pure]
      exact .constructPrimary (eq_of_beq keyword) found (derives_construct obeys construct role mode
        _ settled (isReadable_of_kind (by simpa using keyword) rfl))
  · rename_i noKeyword
    exact .noPrimary begins fun keyword => absurd (beq_iff_eq.mpr keyword) noKeyword

theorem derives_call {role : Role} {mode : Mode} {first here : Cursor Lexeme} {tree : Tree}
    (marked : here.mark.kind = .endOfStream)
    (before : Derives (.suffixed levels role) mode first [.child role tree] here)
    (opened : (look mode here).kind = .openBrace) :
    Derives (.suffixed levels role) mode first
        [.child role ((call (deeper 0) tree).run mode (settle mode here)).1]
        ((call (deeper 0) tree).run mode (settle mode here)).2
      ∧ ((call (deeper 0) tree).run mode (settle mode here)).2.rest.length < here.rest.length := by
  have list := derives_argumentList obeys .call .brace (look mode here).stop .arguments
    mode.bracketed (past mode here) (by simpa using marked)
  have close := derives_closing .brace .closeBrace mode.bracketed
    ((argumentList (deeper 0) .call .brace (look mode here).stop).run mode.bracketed
      (past mode here)).2
  have bracket := Accounts.leaf .openBrace (isReadable_of_kind opened rfl)
  have taken := bracket.trans (list.accounts.trans close.accounts)
  unfold call
  simp only [run_bind, run_leaf, run_pure, run_ignoringLineBreaks, leafAt_settle, past_settle]
  exact ⟨.call before opened list close, taken.shorter (by simp [leafAt]) marked⟩

theorem derives_index {role : Role} {mode : Mode} {first here : Cursor Lexeme} {tree : Tree}
    {delimiter : Delimiter} (square : delimiter = .squareBracket ∨ delimiter = .doubleSquareBracket)
    (marked : here.mark.kind = .endOfStream)
    (before : Derives (.suffixed levels role) mode first [.child role tree] here)
    (opened : (look mode here).kind = delimiter.opener) :
    Derives (.suffixed levels role) mode first
        [.child role ((index (deeper 0) delimiter tree).run mode (settle mode here)).1]
        ((index (deeper 0) delimiter tree).run mode (settle mode here)).2
      ∧ ((index (deeper 0) delimiter tree).run mode (settle mode here)).2.rest.length
        < here.rest.length := by
  have list := derives_argumentList obeys .call delimiter (look mode here).stop .arguments
    mode.bracketed (past mode here) (by simpa using marked)
  have close := derives_closing delimiter .closeBracket mode.bracketed
    ((argumentList (deeper 0) .call delimiter (look mode here).stop).run mode.bracketed
      (past mode here)).2
  have readable : (look mode here).isReadable = true :=
    isReadable_of_kind opened (by obtain rfl | rfl := square <;> rfl)
  have bracket := Accounts.leaf .openBracket readable
  have taken := bracket.trans (list.accounts.trans close.accounts)
  unfold index
  simp only [run_bind, run_leaf, run_pure, run_ignoringLineBreaks, leafAt_settle, past_settle]
  exact ⟨.index before square opened list close, taken.shorter (by simp [leafAt]) marked⟩

omit obeys in
theorem derives_access {role : Role} {mode : Mode} {first here : Cursor Lexeme} {tree : Tree}
    {operator : Operator} (marked : here.mark.kind = .endOfStream)
    (before : Derives (.suffixed levels role) mode first [.child role tree] here)
    (accessor : accessorOf? (look mode here) = some operator) :
    Derives (.suffixed levels role) mode first
        [.child role ((access operator tree).run mode (settle mode here)).1]
        ((access operator tree).run mode (settle mode here)).2
      ∧ ((access operator tree).run mode (settle mode here)).2.rest.length < here.rest.length := by
  have right := derives_member mode (past mode here)
  have sign := Accounts.leaf .operator (isReadable_of_accessorOf? accessor)
  have taken := sign.trans right.accounts
  unfold access
  simp only [run_bind, run_leaf, run_pure, leafAt_settle, past_settle]
  exact ⟨.access before accessor right, taken.shorter (by simp [leafAt]) marked⟩

/-- One round behind an expression goes on with it, or finds that nothing follows. -/
theorem postfixRound_spec (role : Role) (mode : Mode) (first here : Cursor Lexeme) (tree : Tree)
    (marked : here.mark.kind = .endOfStream)
    (before : Derives (.suffixed levels role) mode first [.child role tree] here) :
    (((postfixRound (deeper 0) tree).run mode here).1.2 = true →
      Derives (.postfixed levels role) mode first
        [.child role ((postfixRound (deeper 0) tree).run mode here).1.1]
        ((postfixRound (deeper 0) tree).run mode here).2)
    ∧ (((postfixRound (deeper 0) tree).run mode here).1.2 = false →
      Derives (.suffixed levels role) mode first
        [.child role ((postfixRound (deeper 0) tree).run mode here).1.1]
        ((postfixRound (deeper 0) tree).run mode here).2
      ∧ ((postfixRound (deeper 0) tree).run mode here).2.rest.length < here.rest.length) := by
  unfold postfixRound
  simp only [run_bind, run_current]
  split
  · rename_i opened
    exact ⟨Bool.noConfusion, fun _ => derives_call obeys marked before opened⟩
  · rename_i opened
    exact ⟨Bool.noConfusion, fun _ => derives_index obeys (.inl rfl) marked before opened⟩
  · rename_i opened
    exact ⟨Bool.noConfusion, fun _ => derives_index obeys (.inr rfl) marked before opened⟩
  rename_i noBrace noBracket noBrackets
  cases found : (infixOf? (look mode here)).filter Operator.isAccessor with
  | some operator => exact ⟨Bool.noConfusion, fun _ => derives_access marked before found⟩
  | none =>
    have unopened : opensList (look mode here).kind = false := by
      simp only [opensList, Bool.or_eq_false_iff, beq_eq_false_iff_ne]
      exact ⟨⟨noBrace, noBracket⟩, noBrackets⟩
    have ends : extendsExpression (look mode here) = false := by
      simp [extendsExpression, unopened, accessorOf?, found]
    exact ⟨fun _ => .postfixed before ends, Bool.noConfusion⟩

theorem derives_postfixed (role : Role) (mode : Mode) (cursor : Cursor Lexeme)
    (marked : cursor.mark.kind = .endOfStream) :
    Derives (.postfixed levels role) mode cursor
      (Part.ofOption role ((postfixed (deeper 0)).run mode cursor).1)
      ((postfixed (deeper 0)).run mode cursor).2 := by
  have start := derives_primary obeys role mode cursor marked
  unfold postfixed
  simp only [run_bind]
  cases found : ((primary (deeper 0)).run mode cursor).1 with
  | none =>
    rw [found] at start
    exact .noPostfixed start
  | some tree =>
    rw [found] at start
    simp only [run_bind, run_pure]
    refine untilDone_induction mode
      (fun tree here => Derives (.suffixed levels role) mode cursor [.child role tree] here)
      (fun tree here => Derives (.postfixed levels role) mode cursor [.child role tree] here)
      (fun tree here before => ?_) (fun tree here before => ?_) (.suffixedStart start)
    · exact (postfixRound_spec obeys role mode cursor here tree (before.mark marked) before).2
    · exact (postfixRound_spec obeys role mode cursor here tree (before.mark marked) before).1

theorem derives_leading (role : Role) (mode : Mode) (cursor : Cursor Lexeme)
    (marked : cursor.mark.kind = .endOfStream) :
    Derives (.leading levels role) mode cursor
      (Part.ofOption role ((leading deeper).run mode cursor).1)
      ((leading deeper).run mode cursor).2 := by
  unfold leading
  simp only [run_bind, run_current]
  cases found : leadingOf? (look mode cursor) with
  | none => exact .unsigned found (derives_postfixed obeys role mode _ (by simpa using marked))
  | some operator =>
    simp only [run_bind, run_leaf, run_skipLineBreaks, run_pure, leafAt_settle, past_settle]
    exact .sign found (derives_operand obeys _ .right mode _ (by simpa using marked))

/-- One round of infix operators takes one with its right operand, or finds none. -/
theorem infixRound_spec (minimum : Nat) (role : Role) (mode : Mode) (first here : Cursor Lexeme)
    (tree : Tree) (marked : here.mark.kind = .endOfStream)
    (before : Derives (.chain levels minimum role) mode first [.child role tree] here) :
    (((infixRound deeper minimum tree).run mode here).1.2 = true →
      Derives (.expression (levels + 1) minimum role) mode first
        [.child role ((infixRound deeper minimum tree).run mode here).1.1]
        ((infixRound deeper minimum tree).run mode here).2)
    ∧ (((infixRound deeper minimum tree).run mode here).1.2 = false →
      Derives (.chain levels minimum role) mode first
        [.child role ((infixRound deeper minimum tree).run mode here).1.1]
        ((infixRound deeper minimum tree).run mode here).2
      ∧ ((infixRound deeper minimum tree).run mode here).2.rest.length < here.rest.length) := by
  unfold infixRound
  simp only [run_bind, run_current]
  cases found : (infixOf? (look mode here)).filter fun operator =>
      !operator.isAccessor && minimum ≤ operator.precedence with
  | none => exact ⟨fun _ => .expression before found, nofun⟩
  | some operator =>
    have right := derives_operand obeys operator.rightMinimum .right mode (beyond (past mode here))
      (by simpa using marked)
    have sign := Accounts.leaf .operator (isReadable_of_infixAt? found)
    have taken := sign.trans ((Accounts.beyond _).trans right.accounts)
    simp only [run_bind, run_leaf, run_skipLineBreaks, run_pure, leafAt_settle, past_settle]
    refine ⟨nofun, fun _ => ⟨.chainMore before found right, ?_⟩⟩
    exact taken.shorter (by simp [leafAt]) marked

theorem derives_infixed (minimum : Nat) (role : Role) (mode : Mode) (cursor : Cursor Lexeme)
    (marked : cursor.mark.kind = .endOfStream) :
    Derives (.expression (levels + 1) minimum role) mode cursor
      (Part.ofOption role ((infixed deeper minimum).run mode cursor).1)
      ((infixed deeper minimum).run mode cursor).2 := by
  have start := derives_leading obeys role mode cursor marked
  unfold infixed
  simp only [run_bind]
  cases found : ((leading deeper).run mode cursor).1 with
  | none =>
    rw [found] at start
    exact .noExpression start
  | some tree =>
    rw [found] at start
    simp only [run_bind, run_pure]
    refine untilDone_induction mode
      (fun tree here => Derives (.chain levels minimum role) mode cursor [.child role tree] here)
      (fun tree here =>
        Derives (.expression (levels + 1) minimum role) mode cursor [.child role tree] here)
      (fun tree here before => ?_) (fun tree here before => ?_) (.chainStart start)
    · exact (infixRound_spec obeys minimum role mode cursor here tree (before.mark marked) before).2
    · exact (infixRound_spec obeys minimum role mode cursor here tree (before.mark marked) before).1

end Readers

/-! ### All levels -/

theorem run_skipToClosing (mode : Mode) (cursor : Cursor Lexeme) :
    skipToClosing.run mode cursor
      = (cursor.rest.take (closingLength 1 cursor.rest),
        cursor.drop (closingLength 1 cursor.rest)) := Prod.ext rfl rfl

theorem derives_tooDeep (minimum : Nat) (role : Role) (mode : Mode) (cursor : Cursor Lexeme) :
    Derives (.expression 0 minimum role) mode cursor
      (Part.ofOption role (tooDeep.run mode cursor).1) (tooDeep.run mode cursor).2 := by
  unfold tooDeep
  simp only [run_bind, run_current, run_ite]
  split
  · rename_i ends
    exact .cutNothing ends
  rename_i goesOn
  replace goesOn := Bool.eq_false_iff.mpr goesOn
  simp only [run_advance, look_settle, past_settle]
  split
  · rename_i opened
    simp only [run_skipToClosing, run_pure]
    exact .cutBracket goesOn opened
  · rename_i other
    simp only [run_pure]
    exact .cutToken goesOn (Bool.eq_false_iff.mpr other)

/-- **Expressions obey the productions at every level.** -/
theorem obeys_expressionWithin (levels : Nat) : Obeys levels (expressionWithin levels) := by
  induction levels with
  | zero => exact fun minimum role mode cursor _ => derives_tooDeep minimum role mode cursor
  | succ levels deeper =>
    intro minimum role mode cursor marked
    exact derives_infixed deeper minimum role mode cursor marked

end Grammar

end RSource
