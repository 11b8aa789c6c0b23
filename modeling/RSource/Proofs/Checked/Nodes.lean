/-
**Nodes and the spans they are given.**

A node is added when all of its children are there: their spans are looked up by their numbers and
united. The numbers are those of `slotsOf`, so each one is found (`lies_slotsOf`), no span ends
before it starts, and the node that is added is the one that storing the tree would add
(`gives_addOver`). With that the steps that take one token, or say what follows, are settled.
-/

import RSource.Proofs.Checked.Steps

namespace RSource

namespace Checked

open Grammar Reader

variable {session : Session} {first last : Cursor Lexeme} {before parts : List Part}

/-! ### Spans -/

/-- The node of this number has this span. -/
def Lies (arena : Arena) (id : NodeId) (span : Span) : Prop :=
  (arena[id]?).map (·.span) = some span

/-- A span does not end before it starts. -/
def IsUpright (span : Span) : Prop := span.start ≤ span.stop

theorem IsUpright.union {left right : Span} (first : IsUpright left) (second : IsUpright right) :
    IsUpright (left.union right) := by
  simp only [IsUpright, Span.union] at *
  omega

/-- No child among parts ends before it starts. -/
def AreUpright (parts : List Part) : Prop := ∀ span ∈ parts.filterMap Part.span?, IsUpright span

theorem isUpright_hull {spans : List Span} {hull : Span} (found : Span.hull? spans = some hull)
    (upright : ∀ span ∈ spans, IsUpright span) : IsUpright hull := by
  cases spans with
  | nil => cases found
  | cons first rest =>
    cases found
    rw [List.forall_mem_cons] at upright
    obtain ⟨start, upright⟩ := upright
    induction rest generalizing first with
    | nil => exact start
    | cons span rest previous =>
      rw [List.forall_mem_cons] at upright
      exact previous _ (start.union upright.1) upright.2

section Upright

variable {role : Role}

@[simp] theorem areUpright_nil : AreUpright [] := by simp [AreUpright]

@[simp] theorem areUpright_child (tree : Tree) (rest : List Part) :
    AreUpright (.child role tree :: rest) ↔ IsUpright tree.span ∧ AreUpright rest := by
  simp [AreUpright]

@[simp] theorem areUpright_problem (found : Problem) (skipped : List Lexeme) (rest : List Part) :
    AreUpright (.problem found skipped :: rest) ↔ AreUpright rest := by
  simp [AreUpright]

@[simp] theorem areUpright_append (left right : List Part) :
    AreUpright (left ++ right) ↔ AreUpright left ∧ AreUpright right := by
  simp [AreUpright, or_imp, forall_and]

@[simp] theorem isUpright_leaf (lexeme : Lexeme) : IsUpright (Tree.leaf lexeme).span :=
  Nat.le_add_right _ _

@[simp] theorem isUpright_cut (lexeme : Lexeme) (skipped : List Lexeme) :
    IsUpright (Tree.cut lexeme skipped).span := Nat.le_add_right _ _

@[simp] theorem isUpright_leafAt (mode : Mode) (cursor : Cursor Lexeme) :
    IsUpright (leafAt mode cursor).span := isUpright_leaf _

theorem isUpright_node {other : Nat} (upright : AreUpright parts) :
    IsUpright ((Part.hull? parts).getD (.empty other)) := by
  cases found : Part.hull? parts with
  | none => exact Nat.le_refl other
  | some hull => exact isUpright_hull found upright

theorem areUpright_ofParts {form : Form} (upright : AreUpright parts) :
    AreUpright [.child role (.ofParts form parts)] := by
  rw [areUpright_child]
  exact ⟨isUpright_node upright, areUpright_nil⟩

theorem areUpright_listOf {anchor : Nat} (upright : AreUpright parts) :
    AreUpright [.child role (listOf anchor parts)] := by
  rw [areUpright_child]
  exact ⟨isUpright_node upright, areUpright_nil⟩

end Upright

/-- **No tree that is read ends before it starts.** -/
theorem areUpright_of_derives {phrase : Phrase} {mode : Mode} {first last : Cursor Lexeme}
    {parts : List Part} (run : Derives phrase mode first parts last) : AreUpright parts := by
  induction run with
  | missing | absent | cutNothing | noPrimary | unopened | noElse | itemsStart | listingStart
  | noOperand | noBody => simp
  | found | present | atom | cutBracket | cutToken | formal => simp
  | noExpression _ previous | expression _ _ previous | chainStart _ previous
  | operand _ previous | unsigned _ _ previous | noPostfixed _ previous
  | postfixed _ _ previous | suffixedStart _ previous | blockPrimary _ _ previous
  | constructPrimary _ _ _ previous | blockBody _ _ previous | unnamed _ _ previous
  | emptyFormal _ _ previous | noStatement _ previous | statements _ _ previous => exact previous
  | word => exact areUpright_ofParts (by simp)
  | repeatLoop _ _ main | sign _ _ main => exact areUpright_ofParts (by simpa using main)
  | chainMore _ _ _ left right | access _ _ _ left right | statement _ _ left right =>
    exact areUpright_ofParts (by simpa using ⟨(areUpright_child _ _).mp left |>.1, right⟩)
  | call _ _ _ _ target list close | index _ _ _ _ _ target list close =>
    exact areUpright_ofParts
      (by simpa using ⟨(areUpright_child _ _).mp target |>.1, list, close⟩)
  | group _ _ _ inner close | headed _ _ _ _ inner close | block _ _ _ inner close =>
    exact areUpright_ofParts (by simpa using ⟨inner, close⟩)
  | ifElse _ _ _ _ top main other =>
    exact areUpright_ofParts (by simpa using ⟨top, main, other⟩)
  | opened _ _ inner => simpa using inner
  | condition _ _ _ tested close | formals _ _ tested close => simpa using ⟨tested, close⟩
  | iteration _ _ _ _ counter link range close => simpa using ⟨counter, link, range, close⟩
  | simpleBody _ _ previous => exact areUpright_ofParts previous
  | elseBranch _ _ other | named _ _ other | formalDefault _ _ _ other
  | misplacedFormal _ _ _ other => simpa using other
  | itemsMore _ _ _ _ items item =>
    rw [areUpright_append]
    exact ⟨items, areUpright_ofParts (by simpa using item)⟩
  | closedList _ _ items => exact areUpright_listOf items
  | lastItem _ _ _ _ _ items item =>
    exact areUpright_listOf ((areUpright_append _ _).mpr ⟨items, areUpright_ofParts item⟩)
  | noItem _ _ _ _ _ items item =>
    exact areUpright_listOf ((areUpright_append _ _).mpr ⟨items, item⟩)
  | stray _ _ _ listing | unreadable _ _ _ _ listing _ => simpa using listing
  | listed _ _ _ _ _ listing statement | crowded _ _ _ _ _ listing statement =>
    simpa using ⟨listing, (areUpright_child _ _).mp statement |>.1⟩

theorem lies_last (tree : Tree) (arena : Arena) :
    Lies (Arena.store tree arena) ((Arena.store tree arena).size - 1) tree.span := by
  cases tree <;> simp [Lies, Arena.store, Arena.add, Tree.span]

theorem Lies.later {early late : Arena} {id : NodeId} {span : Span} (lies : Lies early id span)
    (more : Arena.Extends early late) : Lies late id span := by
  have there : id < early.size := by
    by_contra beyond
    rw [Lies, Array.getElem?_eq_none (Nat.le_of_not_lt beyond)] at lies
    cases lies
  rwa [Lies, more.node id there]

/-- Every slot holds the number of a node with the span of the child stored for it. -/
theorem lies_slotsOf (parts : List Part) (arena : Arena) :
    List.Forall₂ (fun slot span => Lies (grown arena parts) slot.2 span) (slotsOf arena parts)
      (parts.filterMap Part.span?) := by
  induction parts generalizing arena with
  | nil => exact .nil
  | cons part rest previous =>
    cases part with
    | problem found skipped => exact previous arena
    | child role tree =>
      exact .cons ((lies_last tree arena).later (Arena.extends_storeParts rest _))
        (previous (Arena.store tree arena))

theorem gives_spanAt {id : NodeId} {span : Span} (lies : Lies session.document.nodes id span) :
    Gives (spanAt id) session span session := by
  obtain ⟨node, found, rfl⟩ := Option.map_eq_some_iff.mp lies
  have listed : entry session.document.nodes id = pure node := by rw [entry, found]
  exact (gives_get session).bind ((gives_lift listed).bind (gives_pure _ _))

theorem gives_union {left right : Span} (first : IsUpright left) (second : IsUpright right) :
    Gives (liftM (union left right) : Steps Span) session (left.union right) session :=
  gives_lift (if_pos (first.union second))

theorem gives_cover {ids : List NodeId} {spans : List Span}
    (lies : List.Forall₂ (Lies session.document.nodes) ids spans)
    (upright : ∀ span ∈ spans, IsUpright span) :
    Gives (cover ids) session (Span.hull? spans) session := by
  have within : ∀ {ids : List NodeId} {spans : List Span} (covered : Span),
      List.Forall₂ (Lies session.document.nodes) ids spans → IsUpright covered →
      (∀ span ∈ spans, IsUpright span) →
      Gives (ids.foldlM (fun covered id => do union covered (← spanAt id)) covered) session
        (spans.foldl Span.union covered) session := by
    intro ids spans covered lies
    induction lies generalizing covered with
    | nil => exact fun _ _ => gives_pure _ _
    | cons here _ previous =>
      intro start upright
      rw [List.forall_mem_cons] at upright
      rw [List.foldlM_cons, List.foldl_cons]
      exact ((gives_spanAt here).bind (gives_union start upright.1)).bind
        (previous _ (start.union upright.1) upright.2)
  cases lies with
  | nil => exact gives_pure _ _
  | cons here rest =>
    rw [List.forall_mem_cons] at upright
    exact (gives_spanAt here).bind ((within _ rest upright.1 upright.2).bind (gives_pure _ _))

/-! ### Adding nodes -/

/-- A tree over parts is stored as those parts with one more node behind them. -/
theorem grown_node (arena : Arena) (role : Role) (form : Form) (span : Span) (parts : List Part) :
    grown arena [.child role (.node form span parts)]
      = (grown arena parts).add (.branch form (slotsOf arena parts)) span := by
  simp [grown, slotsOf, Arena.storeParts, Arena.storePart, Arena.store]

@[simp] theorem nodeOf_node (arena : Arena) (role : Role) (form : Form) (span : Span)
    (parts : List Part) :
    nodeOf arena [.child role (.node form span parts)] = (grown arena parts).size := by
  rw [nodeOf, grown_node]
  simp

@[simp] theorem nodeOf_ofParts (arena : Arena) (role : Role) (form : Form) (parts : List Part) :
    nodeOf arena [.child role (.ofParts form parts)] = (grown arena parts).size := nodeOf_node ..

/-- Adding a node over the slots of parts stores a tree over those parts. -/
theorem gives_add (session : Session) (last : Cursor Lexeme) (before parts : List Part)
    (role : Role) (form : Form) (span : Span) :
    Gives (add (.branch form (slotsOf (grown session.document.nodes before) parts)) span)
      (after session last (before ++ parts))
      (grown (grown session.document.nodes before) parts).size
      (after session last (before ++ [.child role (.node form span parts)])) := by
  have nodes : grown session.document.nodes (before ++ [.child role (.node form span parts)])
      = (grown session.document.nodes (before ++ parts)).add
        (.branch form (slotsOf (grown session.document.nodes before) parts)) span := by
    rw [grown_append, grown_node, grown_append]
  have problems : Tree.partsProblems (before ++ [.child role (.node form span parts)])
      = Tree.partsProblems (before ++ parts) := by simp
  rw [← grown_append]
  unfold after
  rw [nodes, problems]
  rfl

theorem gives_addToken (session : Session) (last : Cursor Lexeme) (before : List Part)
    (role : Role) (lexeme : Lexeme) :
    Gives (addToken lexeme) (after session last before) (grown session.document.nodes before).size
      (after session last (before ++ [.child role (.leaf lexeme)])) := by
  have nodes : grown session.document.nodes (before ++ [.child role (.leaf lexeme)])
      = (grown session.document.nodes before).add (.leaf lexeme.token) lexeme.span := by
    simp [grown, Arena.storeParts_append, Arena.storeParts, Arena.storePart, Arena.store]
  have problems : Tree.partsProblems (before ++ [.child role (.leaf lexeme)])
      = Tree.partsProblems before := by simp
  unfold after
  rw [nodes, problems]
  exact (gives_lift (if_pos (Nat.le_add_right _ _))).bind rfl

/-- The children just stored are found and covered. -/
theorem gives_cover_slots (session : Session) (last : Cursor Lexeme) (before : List Part)
    (upright : AreUpright parts) :
    Gives (cover ((slotsOf (grown session.document.nodes before) parts).map (·.2)))
      (after session last (before ++ parts)) (Part.hull? parts)
      (after session last (before ++ parts)) := by
  refine gives_cover ?_ upright
  rw [List.forall₂_map_left_iff, after, grown_append]
  exact lies_slotsOf parts _

theorem gives_coverOr {ids : List NodeId} (fallback : NodeId) {span : Span} {last : Session}
    (covered : Gives (cover ids) session (some span) last) :
    Gives (coverOr ids fallback) session span last := covered.bind (gives_pure _ _)

theorem spans_eq_nil_iff : parts.filterMap Part.span? = [] ↔ Part.anyChild parts = false := by
  simp [Part.anyChild]

section Filled

variable {form : Form} {slots : Slots} {whole : List Part} (role : Role)
  (all : whole = before ++ parts)
  (same : slots = slotsOf (grown session.document.nodes before) parts)
  (filled : parts.filterMap Part.span? ≠ []) (upright : AreUpright parts)
include all same filled upright

/-- A node over children is added with the span of all of them. -/
theorem gives_addOver (fallback : NodeId) :
    Gives (addOver form slots fallback) (after session last whole)
      (nodeOf (grown session.document.nodes before) [.child role (.ofParts form parts)])
      (after session last (before ++ [.child role (.ofParts form parts)])) := by
  subst all same
  obtain ⟨span, rest, shape⟩ := List.exists_cons_of_ne_nil filled
  have covered := gives_cover_slots session last before upright
  have added := gives_add session last before parts role form (rest.foldl Span.union span)
  rw [Part.hull?, shape] at covered
  rw [nodeOf_ofParts, Tree.ofParts, Part.hull?, shape]
  exact (gives_coverOr fallback covered).bind added

theorem gives_addUnlessEmpty :
    Gives (addUnlessEmpty form slots) (after session last whole)
      (some (nodeOf (grown session.document.nodes before) [.child role (.ofParts form parts)]))
      (after session last (before ++ [.child role (.ofParts form parts)])) := by
  subst all same
  obtain ⟨span, rest, shape⟩ := List.exists_cons_of_ne_nil filled
  have covered := gives_cover_slots session last before upright
  have added := gives_add session last before parts role form (rest.foldl Span.union span)
  rw [Part.hull?, shape] at covered
  rw [nodeOf_ofParts, Tree.ofParts, Part.hull?, shape]
  exact covered.bind (added.bind (gives_pure _ _))

end Filled

/-- Parts without a child make no node. -/
theorem gives_addUnlessEmpty_none {form : Form} {slots : Slots}
    {whole : List Part} (all : whole = before ++ parts)
    (same : slots = slotsOf (grown session.document.nodes before) parts)
    (empty : parts.filterMap Part.span? = []) :
    Gives (addUnlessEmpty form slots) (after session last whole) none
      (after session last (before ++ parts)) := by
  subst all same
  have upright : AreUpright parts := by simp [AreUpright, empty]
  have covered := gives_cover_slots session last before upright
  rw [Part.hull?, empty] at covered
  exact covered.bind (gives_pure _ _)

/-- A problem is recorded, whatever is passed over because of it. -/
theorem gives_report (session : Session) (last : Cursor Lexeme) (before : List Part)
    (kind : ProblemKind) (lexeme : Lexeme) (skipped : List Lexeme) :
    Gives (report kind lexeme) (after session last before) ()
      (after session last (before ++ [.problem ⟨kind, lexeme.token⟩ skipped])) := by
  have nodes : grown session.document.nodes (before ++ [.problem ⟨kind, lexeme.token⟩ skipped])
      = grown session.document.nodes before := by
    simp [grown, Arena.storeParts_append, Arena.storeParts, Arena.storePart]
  have problems : session.problems
        ++ Tree.partsProblems (before ++ [.problem ⟨kind, lexeme.token⟩ skipped])
      = session.problems ++ Tree.partsProblems before ++ [⟨kind, lexeme.token⟩] := by simp
  unfold after
  rw [nodes, problems]
  rfl

/-! ### Single tokens -/

section Tokens

variable (marked : first.mark.kind = .endOfStream)
include marked

theorem gives_token (role : Role) :
    Gives token (after session first before) (grown session.document.nodes before).size
      (after session (past session.mode first)
        (before ++ [.child role (leafAt session.mode first)])) :=
  (gives_advance marked).bind (gives_addToken session _ before role _)

/-- The same behind the line breaks that were passed to look at the token. -/
theorem gives_token_settled (role : Role) :
    Gives token (after session (settle session.mode first) before)
      (grown session.document.nodes before).size
      (after session (past session.mode first)
        (before ++ [.child role (leafAt session.mode first)])) :=
  (gives_advance_settled marked).bind (gives_addToken session _ before role _)

/-- A keyword is taken where one is seen. -/
theorem gives_keyword (role : Role) (word : (look session.mode first).kind = .keyword) :
    Gives keyword (after session first before) (grown session.document.nodes before).size
      (after session (past session.mode first)
        (before ++ [.child role (leafAt session.mode first)])) := by
  refine (gives_current marked).bind (.of_pos (beq_iff_eq.mpr word) ?_)
  exact (gives_advance_settled marked).bind (gives_addToken session _ before role _)

/-- The same behind the line breaks that were passed to look at the keyword. -/
theorem gives_keyword_settled (role : Role) (word : (look session.mode first).kind = .keyword) :
    Gives keyword (after session (settle session.mode first) before)
      (grown session.document.nodes before).size
      (after session (past session.mode first)
        (before ++ [.child role (leafAt session.mode first)])) := by
  refine (gives_current_settled marked).bind (.of_pos (beq_iff_eq.mpr word) ?_)
  exact (gives_advance_settled marked).bind (gives_addToken session _ before role _)

omit marked in
theorem single_optional {accepts : Lexeme → Bool} {role : Role} {mode : Mode} {parts : List Part}
    (run : Derives (.optional accepts role) mode first parts last) :
    parts = [] ∨ IsSingle role parts := by
  cases run with
  | present _ _ => exact .inr (.inl ⟨_, rfl⟩)
  | absent _ => exact .inl rfl

theorem gives_optionalToken {kind : TokenKind} {role : Role} {parts : List Part}
    (run : Derives (.optional (isOfKind kind) role) session.mode first parts last) :
    Gives (optionalToken kind) (after session first before)
      (kept (grown session.document.nodes before) parts)
      (after session last (before ++ parts)) := by
  refine (gives_current marked).bind ?_
  cases run with
  | present found _ =>
    rw [kept_child, nodeOf_leafAt]
    exact .of_pos found ((gives_token_settled marked role).bind (gives_pure _ _))
  | absent other =>
    rw [List.append_nil]
    exact .of_neg (Bool.eq_false_iff.mp other) (gives_pure _ _)

/-- An expected token is taken, or there is a problem in its place. -/
theorem gives_expected {accepts : Lexeme → Bool} {role : Role} {problem : ProblemKind}
    {parts : List Part}
    (run : Derives (.expected accepts role problem) session.mode first parts last) :
    Gives (do
        let lexeme ← current
        if accepts lexeme then return some (← token)
        else
          report problem lexeme
          return none)
      (after session first before) (kept (grown session.document.nodes before) parts)
      (after session last (before ++ parts)) := by
  refine (gives_current marked).bind ?_
  cases run with
  | found found _ =>
    rw [kept_child, nodeOf_leafAt]
    exact .of_pos found ((gives_token_settled marked role).bind (gives_pure _ _))
  | missing other =>
    refine .of_neg (Bool.eq_false_iff.mp other) ?_
    exact (gives_report session _ before problem _ []).bind (gives_pure _ _)

theorem gives_expect {kind : TokenKind} {role : Role} {problem : ProblemKind} {parts : List Part}
    (run : Derives (.expected (isOfKind kind) role problem) session.mode first parts last) :
    Gives (expect kind problem) (after session first before)
      (kept (grown session.document.nodes before) parts)
      (after session last (before ++ parts)) := gives_expected marked run

/-- What closes a bracket is known where a bracket was opened. -/
theorem gives_close {delimiter : Delimiter} {role : Role} {parts : List Part}
    (run : Derives (.expected (isOfKind delimiter.closer) role (.closerMissing delimiter))
      session.mode first parts last) :
    Gives (close delimiter.opener) (after session first before)
      (kept (grown session.document.nodes before) parts)
      (after session last (before ++ parts)) := by
  have known : delimiterOf delimiter.opener = pure delimiter := by cases delimiter <;> rfl
  exact (gives_lift known).bind (gives_expect marked run)

theorem gives_member {parts : List Part}
    (run : Derives (.expected isMember .right .identifierExpected) session.mode first parts last) :
    Gives member (after session first before) (kept (grown session.document.nodes before) parts)
      (after session last (before ++ parts)) := gives_expected marked run

end Tokens

/-! ### Tokens by their texts -/

/-- The text of a token that is not the mark is found. -/
def Sliced (text : Text) (lexeme : Lexeme) : Prop :=
  lexeme.kind ≠ .endOfStream → text.slice? lexeme.start lexeme.stop = some lexeme.text

theorem Faithful.look {text : Text} (faithful : Faithful text first) (mode : Mode) :
    Sliced text (Grammar.look mode first) := (faithful.settle mode).current

section Texts

variable {source : Checked} {lexeme : Lexeme} (sliced : Sliced source.text lexeme)
include sliced

theorem gives_textOf (token : lexeme.kind ≠ .endOfStream) :
    Gives (source.textOf lexeme) (after session last before) lexeme.text
      (after session last before) := by
  have found : slice source.text lexeme.start lexeme.stop = pure lexeme.text := by
    rw [slice, sliced token]
  exact gives_lift found

theorem gives_judged {α : Type} {kind : TokenKind} (proper : kind ≠ .endOfStream) (otherwise : α)
    (judge : Text → α) :
    Gives (source.judged kind lexeme otherwise judge) (after session last before)
      (if lexeme.kind == kind then judge lexeme.text else otherwise)
      (after session last before) := by
  unfold judged
  split
  · rename_i same
    exact (gives_textOf sliced (eq_of_beq same ▸ proper)).bind (gives_pure _ _)
  · exact gives_pure _ _

theorem gives_isKeyword (word : Text) :
    Gives (source.isKeyword lexeme word) (after session last before) (lexeme.isKeyword word)
      (after session last before) := by
  have same : lexeme.isKeyword word
      = if lexeme.kind == .keyword then lexeme.text == word else false := by
    rw [Lexeme.isKeyword]
    cases lexeme.kind == .keyword <;> rfl
  rw [same]
  exact gives_judged sliced (by decide) false (· == word)

theorem gives_isOperator (text : Text) :
    Gives (source.isOperator lexeme text) (after session last before) (lexeme.isOperator text)
      (after session last before) := by
  have same : lexeme.isOperator text
      = if lexeme.kind == .operator then lexeme.text == text else false := by
    rw [Lexeme.isOperator]
    cases lexeme.kind == .operator <;> rfl
  rw [same]
  exact gives_judged sliced (by decide) false (· == text)

theorem gives_infixOperator :
    Gives (source.infixOperator lexeme) (after session last before) (infixOf? lexeme)
      (after session last before) :=
  gives_judged sliced (by decide) none Operator.ofInfixText?

theorem gives_leadingOperator :
    Gives (source.leadingOperator lexeme) (after session last before) (leadingOf? lexeme)
      (after session last before) :=
  gives_judged sliced (by decide) none Operator.ofLeadingText?

end Texts

section Faithful

variable {source : Checked} (faithful : Faithful source.text first)
include faithful

theorem gives_linkWord {parts : List Part}
    (run : Derives (.expected isIn .inKeyword .inKeywordExpected) session.mode first parts last) :
    Gives source.linkWord (after session first before)
      (kept (grown session.document.nodes before) parts)
      (after session last (before ++ parts)) := by
  have tested : Gives (source.isKeyword (look session.mode first) "in".toList)
      (after session (settle session.mode first) before) _ _ :=
    gives_isKeyword (faithful.look session.mode) _
  refine (gives_current faithful.marked).bind (tested.bind ?_)
  cases run with
  | found found _ =>
    have word : (look session.mode first).kind = .keyword :=
      eq_of_beq (Bool.and_eq_true_iff.mp found).1
    rw [kept_child, nodeOf_leafAt]
    exact .of_pos found
      ((gives_keyword_settled faithful.marked .inKeyword word).bind (gives_pure _ _))
  | missing other =>
    refine .of_neg (Bool.eq_false_iff.mp other) ?_
    exact (gives_report session _ before .inKeywordExpected _ []).bind (gives_pure _ _)

/-- Whether a name and an equals sign follow is seen without moving. -/
theorem gives_namesHere :
    Gives (source.namesHere (look session.mode first))
      (after session (settle session.mode first) before) (Grammar.namesHere session.mode first)
      (after session (settle session.mode first) before) := by
  unfold namesHere Grammar.namesHere
  by_cases named : namesArgument (look session.mode first) = true
  · have seen : Gives (peekNext 0 false) (after session (settle session.mode first) before)
        (look session.mode (past session.mode (settle session.mode first))) _ :=
      gives_peekNext (faithful.settle session.mode)
    have behind := (faithful.past session.mode).look session.mode
    rw [past_settle] at seen
    rw [named, Bool.true_and]
    exact .of_pos rfl (seen.bind (gives_isOperator behind ['=']))
  · rw [Bool.eq_false_iff.mpr named, Bool.false_and]
    exact .of_neg Bool.false_ne_true (gives_pure _ _)

/-- An `else` is looked for without moving. -/
theorem gives_elseSight :
    ∃ lexeme, Sliced source.text lexeme
      ∧ lexeme.isKeyword "else".toList = seesElse session.mode first
      ∧ Gives elseSight (after session first before) lexeme (after session first before) := by
  have marked := faithful.marked
  by_cases far : (session.mode.braceDepth > 0 || session.mode.lineBreaksIgnored) = true
  · refine ⟨(beyond first).current, faithful.beyond.current, ?_, ?_⟩
    · rw [seesElse, if_pos far]
    · exact (gives_get _).bind (.of_pos far (gives_nextBeyondLineBreaks marked))
  · have lined : session.mode.lineBreaksIgnored = false := by
      rw [Bool.or_eq_true, not_or] at far
      exact Bool.eq_false_iff.mpr far.2
    have looked : Gives current (after session first before) (look session.mode first) _ :=
      gives_current marked
    rw [settle_of_lined lined] at looked
    refine ⟨look session.mode first, faithful.look session.mode, ?_, ?_⟩
    · rw [seesElse, if_neg far]
    · exact (gives_get _).bind (.of_neg far looked)

/-- Only the line breaks in front of an `else` are passed. -/
theorem gives_atElse :
    Gives source.atElse (after session first before) (seesElse session.mode first)
      (after session (if seesElse session.mode first then beyond first else first) before) := by
  obtain ⟨lexeme, sliced, same, found⟩ := gives_elseSight faithful
  refine found.bind ((gives_isKeyword sliced _).bind ?_)
  rw [same]
  by_cases seen : seesElse session.mode first = true
  · refine .of_pos seen ?_
    rw [if_pos seen, seen]
    exact (gives_skipLineBreaks faithful.marked).bind (gives_pure _ _)
  · refine .of_neg seen ?_
    rw [if_neg seen, Bool.eq_false_iff.mpr seen]
    exact gives_pure _ _

end Faithful

/-! ### Looking at what was stored -/

theorem any_slotsOf (arena : Arena) (parts : List Part) (role : Role) :
    (slotsOf arena parts).any (·.1 == role) = parts.any (Part.isChildIn role) := by
  induction parts generalizing arena with
  | nil => rfl
  | cons part rest previous =>
    cases part with
    | problem found skipped => simpa [Part.isChildIn] using previous arena
    | child own tree => exact congrArg _ (previous (Arena.store tree arena))

/-- The content of the node just stored is found under its number. -/
theorem gives_contentAt (session : Session) (last : Cursor Lexeme) (before parts : List Part)
    (role : Role) (form : Form) :
    Gives (contentAt (nodeOf (grown session.document.nodes before)
        [.child role (.ofParts form parts)]))
      (after session last (before ++ [.child role (.ofParts form parts)]))
      (.branch form (slotsOf (grown session.document.nodes before) parts))
      (after session last (before ++ [.child role (.ofParts form parts)])) := by
  have found : entry
      (grown session.document.nodes (before ++ [.child role (.ofParts form parts)]))
      (nodeOf (grown session.document.nodes before) [.child role (.ofParts form parts)])
      = pure ⟨.branch form (slotsOf (grown session.document.nodes before) parts),
          (Part.hull? parts).getD (.empty 0), none⟩ := by
    rw [entry, nodeOf_ofParts, grown_append, Tree.ofParts, grown_node, Arena.add,
      Array.getElem?_push_size]
  exact (gives_get _).bind ((gives_lift found).bind (gives_pure _ _))

/-- What is asked of a node just stored is what its tree has. -/
theorem has_slotsOf (form : Form) (role : Role) (arena : Arena) (parts : List Part) :
    has form role (.branch form (slotsOf arena parts)) = parts.any (Part.isChildIn role) := by
  rw [has, any_slotsOf, beq_self_eq_true, Bool.true_and]

theorem gives_hasComma (session : Session) (last : Cursor Lexeme) (before parts : List Part)
    (role : Role) :
    Gives (hasComma (nodeOf (grown session.document.nodes before)
        [.child role (.ofParts .argument parts)]))
      (after session last (before ++ [.child role (.ofParts .argument parts)]))
      (parts.any (Part.isChildIn .comma))
      (after session last (before ++ [.child role (.ofParts .argument parts)])) := by
  rw [← has_slotsOf .argument .comma (grown session.document.nodes before)]
  exact (gives_contentAt session last before parts role .argument).bind (gives_pure _ _)

theorem gives_endsWithSemicolon (session : Session) (last : Cursor Lexeme)
    (before parts : List Part) (role : Role) :
    Gives (endsWithSemicolon (nodeOf (grown session.document.nodes before)
        [.child role (.ofParts .statement parts)]))
      (after session last (before ++ [.child role (.ofParts .statement parts)]))
      (hasSemicolon (.ofParts .statement parts) || last.previous?.any (·.kind == .semicolon))
      (after session last (before ++ [.child role (.ofParts .statement parts)])) := by
  rw [Tree.ofParts, hasSemicolon, ← has_slotsOf .statement .semicolon
    (grown session.document.nodes before)]
  exact (gives_contentAt session last before parts role .statement).bind
    ((gives_get _).bind (gives_pure _ _))

end Checked

end RSource
