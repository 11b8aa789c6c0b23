/-
**Statements are never glued together silently.**

Between two statements that follow each other in a scope there is something to be seen: a semicolon
that ends the first one, a line break or a semicolon between the two, or a problem about a token
there (`IsParted`). Reading keeps this up statement by statement: behind the last one read the next
token is a closing brace, in front of which no statement begins, or it stands behind such a thing
(`Trails`). Main statement: `Reading.statements_apart`.
-/

import RSource.Proofs.Spans
import RSource.Proofs.Grammar.Listed
import RSource.Proofs.Tree.Problems
import Mathlib.Data.List.Chain

namespace RSource

open Grammar Reader Cursor

/-! ### The statements of a scope -/

/-- A statement of a scope. -/
def Part.statement? : Part → Option Tree
  | .child role tree => if role == .statements then some tree else none
  | .problem _ _ => none

/-- The statements among the parts of a scope. -/
def Tree.statementsIn (parts : List Part) : List Tree := parts.filterMap Part.statement?

namespace Tree

@[simp] theorem statementsIn_append (left right : List Part) :
    statementsIn (left ++ right) = statementsIn left ++ statementsIn right :=
  List.filterMap_append

@[simp] theorem statementsIn_statement (tree : Tree) (rest : List Part) :
    statementsIn (.child .statements tree :: rest) = tree :: statementsIn rest := rfl

@[simp] theorem statementsIn_problem (found : Problem) (skipped : List Lexeme) (rest : List Part) :
    statementsIn (.problem found skipped :: rest) = statementsIn rest := rfl

@[simp] theorem statementsIn_nil : statementsIn [] = [] := rfl

theorem statementsIn_eq_nil {parts : List Part}
    (none : ∀ statement, .child .statements statement ∉ parts) : statementsIn parts = [] := by
  refine List.filterMap_eq_nil_iff.mpr fun part member => ?_
  cases part with
  | problem found skipped => rfl
  | child role tree =>
    refine if_neg fun own => none tree ?_
    rwa [← eq_of_beq own]

end Tree

/-! ### What stands between statements -/

/-- In front of a place in the text something parts a statement from what begins there: its own last
semicolon, a separator behind it, or a problem about an unexpected token behind it. -/
inductive IsParted (tokens : List Lexeme) (problems : List Problem) (statement : Tree)
    (place : Nat) : Prop where
  | semicolon {last : Lexeme} : statement.leaves.getLast? = some last → last.kind = .semicolon →
      IsParted tokens problems statement place
  | separator {lexeme : Lexeme} : lexeme ∈ tokens → isSeparator lexeme = true →
      statement.span.stop ≤ lexeme.start → lexeme.stop ≤ place →
      IsParted tokens problems statement place
  | reported {found : Problem} : found ∈ problems → found.kind = .unexpectedToken →
      statement.span.stop ≤ found.token.start → found.token.start ≤ place →
      IsParted tokens problems statement place

theorem IsParted.mono {tokens : List Lexeme} {problems others : List Problem} {statement : Tree}
    {place further : Nat} (parted : IsParted tokens problems statement place)
    (more : problems ⊆ others) (behind : place ≤ further) :
    IsParted tokens others statement further := by
  cases parted with
  | semicolon isLast ends => exact .semicolon isLast ends
  | separator member separates after before =>
    exact .separator member separates after (Nat.le_trans before behind)
  | reported member unexpected after before =>
    exact .reported (more member) unexpected after (Nat.le_trans before behind)

namespace Grammar

section Cursors

variable {text : Text} {first last cursor : Cursor Lexeme} {taken : List Lexeme}

/-- The tokens gone over and those that are left lie one behind the other. -/
theorem apart_of_moves (covered : IsOver (significant text) first)
    (moved : Moves first last taken) : (taken ++ last.rest).Pairwise (·.stop ≤ ·.start) := by
  have apart := (lexemes_apart text).sublist (significant_sublist text)
  rw [← moved.rest]
  exact apart.sublist covered.suffix.sublist

theorem stop_le_of_moves (covered : IsOver (significant text) first)
    (moved : Moves first last taken) :
    ∀ lexeme ∈ taken, ∀ further ∈ last.rest, lexeme.stop ≤ further.start :=
  (List.pairwise_append.mp (apart_of_moves covered moved)).2.2

/-- The current token begins in front of all others that are left. -/
theorem start_le_of_mem_rest (covered : IsOver (significant text) cursor) {lexeme : Lexeme}
    (member : lexeme ∈ cursor.rest) : cursor.current.start ≤ lexeme.start := by
  have moved := moves_advance (List.ne_nil_of_mem member)
  rw [moved.rest] at member
  rcases List.mem_append.mp member with own | behind
  · rw [List.mem_singleton.mp own]
  · have before := stop_le_of_moves covered moved _ (List.mem_singleton_self _) lexeme behind
    exact Nat.le_trans (Nat.le_add_right _ _) before

end Cursors

/-! ### Statements one behind the other -/

/-- What is known of the statement read last, in front of a cursor: the tokens that are left begin
behind it, and those behind the separators are parted from it, unless a brace closes the scope. -/
structure Trails (text : Text) (problems : List Problem) (statement : Tree)
    (here : Cursor Lexeme) : Prop where
  ends : ∀ further ∈ here.rest, statement.span.stop ≤ further.start
  parted : (pastSeparators here).current.kind = .closeCurlyBrace
    ∨ ∀ further ∈ (pastSeparators here).rest,
      IsParted (significant text) problems statement further.start

section Statement

variable {text : Text} {levels : Nat} {mode : Mode} {first last : Cursor Lexeme} {tree : Tree}

/-- A statement lies over the tokens that it was read from. -/
theorem Derives.spans_statement
    (run : Derives (.statement levels .statements) mode first [.child .statements tree] last)
    (covered : IsOver (significant text) first) :
    first.current.start ≤ tree.span.start
      ∧ ∀ further ∈ last.rest, tree.span.stop ≤ further.start := by
  obtain ⟨consumed, moved, kept⟩ := run.accounts covered.marked
  obtain ⟨held, drawn⟩ := List.forall_mem_singleton.mp run.drawn
  have inside : tree.leaves ⊆ consumed := by
    refine List.Subset.trans (Tree.leaves_sublist tree).subset ?_
    simpa using kept.sublist.subset
  constructor
  · refine Tree.le_start_of_leaves drawn (Tree.isHeld_nil_iff.mp held) fun leaf member => ?_
    refine start_le_of_mem_rest covered ?_
    rw [moved.rest]
    exact List.mem_append_left _ (inside member)
  · intro further behind
    exact Tree.stop_le_of_leaves drawn (Tree.isHeld_nil_iff.mp held) fun leaf member =>
      stop_le_of_moves covered moved leaf (inside member) further behind

/-- A semicolon of its own is the last leaf of a statement. -/
theorem Derives.getLast?_of_hasSemicolon
    (run : Derives (.statement levels .statements) mode first [.child .statements tree] last)
    (own : hasSemicolon tree = true) :
    ∃ semicolon, tree.leaves.getLast? = some semicolon ∧ semicolon.kind = .semicolon := by
  cases run with
  | @statement _ _ _ _ here _ _ _ _ ends =>
    cases ends with
    | present found _ => exact ⟨look mode here, by simp [leafAt], eq_of_beq found⟩
    | absent _ => cases own

/-- A semicolon right in front of the cursor is the last leaf, or stands behind the statement. -/
theorem Derives.parted_of_previous
    (run : Derives (.statement levels .statements) mode first [.child .statements tree] last)
    (covered : IsOver (significant text) first) {semicolon : Lexeme}
    (previous : last.previous? = some semicolon) (kind : semicolon.kind = .semicolon)
    (problems : List Problem) :
    ∀ further ∈ last.rest, IsParted (significant text) problems tree further.start := by
  intro further behind
  obtain ⟨consumed, moved, kept⟩ := run.accounts covered.marked
  obtain ⟨held, drawn⟩ := List.forall_mem_singleton.mp run.drawn
  replace held := Tree.isHeld_nil_iff.mp held
  have inside : tree.leaves.Sublist consumed :=
    (Tree.leaves_sublist tree).trans (by simpa using kept.sublist)
  obtain ⟨front, own, rfl⟩ :=
    (List.eq_nil_or_concat' consumed).resolve_left fun none => held (by simpa [none] using inside)
  obtain rfl : own = semicolon := by simpa [Cursor.previous?, moved.passed] using previous
  obtain ⟨early, late, split, inFront, atEnd⟩ := List.sublist_append_iff.mp inside
  have member : own ∈ significant text := covered.suffix.subset (by simp [moved.rest])
  rcases List.sublist_singleton.mp atEnd with none | one
  · -- All leaves stand in front of the semicolon.
    have apart := apart_of_moves covered moved
    have before : ∀ leaf ∈ tree.leaves, leaf.stop ≤ own.start := by
      intro leaf member
      rw [split, none, List.append_nil] at member
      have inner := (List.pairwise_append.mp apart).1
      exact (List.pairwise_append.mp inner).2.2 leaf (inFront.subset member) own
        (List.mem_singleton_self _)
    refine .separator member ?_ (Tree.stop_le_of_leaves drawn held before) ?_
    · simp [isSeparator, kind]
    · exact (List.pairwise_append.mp apart).2.2 own (by simp) further behind
  · exact .semicolon (by rw [split, one, List.getLast?_concat]) kind

/-- **A statement with its separator is parted from what follows.** -/
theorem Derives.trails_of_isSeparated
    (run : Derives (.statement levels .statements) mode first [.child .statements tree] last)
    (covered : IsOver (significant text) first) (lined : mode.lineBreaksIgnored = false)
    (separated : isSeparated mode tree last = true) (problems : List Problem) :
    Trails text problems tree last := by
  have ends := (run.spans_statement covered).2
  refine ⟨ends, ?_⟩
  have suffix : (pastSeparators last).rest ⊆ last.rest :=
    (List.dropWhile_suffix isSeparator).subset
  have looked : look mode last = last.current := by rw [look, settle_of_lined lined]
  rw [isSeparated, Bool.or_eq_true, Bool.or_eq_true, looked] at separated
  rcases separated with (own | previous) | next
  · obtain ⟨semicolon, isLast, kind⟩ := run.getLast?_of_hasSemicolon own
    exact .inr fun _ _ => .semicolon isLast kind
  · obtain ⟨semicolon, same, kind⟩ := (Option.any_eq_true _ _).mp previous
    have parted := run.parted_of_previous covered same (eq_of_beq kind) problems
    exact .inr fun further behind => parted further (suffix behind)
  · have behindStatement := run.isOver covered
    rw [endsStatement, Bool.or_eq_true, Bool.or_eq_true, beq_iff_eq, beq_iff_eq, beq_iff_eq] at next
    rcases next with (breaks | ended) | closes
    · -- The line break is the first of the separators.
      refine .inr fun further behind => ?_
      have more : last.rest ≠ [] := List.ne_nil_of_mem (suffix behind)
      have separates : isSeparator last.current = true := by simp [isSeparator, breaks]
      have first : last.current ∈ last.rest.takeWhile isSeparator := by
        rw [(moves_advance more).rest]
        simp only [List.singleton_append, List.takeWhile_cons_of_pos separates]
        exact List.mem_cons_self
      have inRest := (List.takeWhile_prefix isSeparator).subset first
      have member := behindStatement.suffix.subset inRest
      exact .separator member separates (ends _ inRest)
        (stop_le_of_moves behindStatement (moves_skipWhile isSeparator last) _ first further behind)
    · have nothing := rest_eq_nil_of_ended behindStatement.items ended
      refine .inr fun further behind => ?_
      rw [nothing] at suffix
      exact absurd (suffix behind) List.not_mem_nil
    · have stays : pastSeparators last = last :=
        skipWhile_of_current (by simp [isSeparator, closes])
      exact .inl (by rwa [stays])

end Statement

section Listing

variable {text : Text} {here middle there : Cursor Lexeme} {problems : List Problem} {tree : Tree}
  {parts : List Part}

/-- A problem at a token behind a statement parts it from what is left from there on. -/
theorem trails_of_problem (covered : IsOver (significant text) middle)
    (ends : ∀ further ∈ middle.rest, tree.span.stop ≤ further.start)
    (more : middle.rest ≠ []) (onward : there.rest ⊆ middle.rest)
    (met : ⟨.unexpectedToken, middle.current.token⟩ ∈ problems) :
    Trails text problems tree there := by
  have token : middle.current ∈ middle.rest := current_mem_rest more
  refine ⟨fun further behind => ends further (onward behind), .inr fun further behind => ?_⟩
  have inThere := (List.dropWhile_suffix isSeparator).subset behind
  exact .reported met rfl (ends _ token) (start_le_of_mem_rest covered (onward inThere))

/-- The statements of a list are parted one from the other, and the last one from what follows. -/
structure Spaced (text : Text) (parts : List Part) (here : Cursor Lexeme) : Prop where
  chain : (Tree.statementsIn parts).IsChain fun left right =>
    IsParted (significant text) (Tree.partsProblems parts) left right.span.start
  last : ∀ tree ∈ (Tree.statementsIn parts).getLast?,
    Trails text (Tree.partsProblems parts) tree here

/-- A problem about a token behind the separators. -/
theorem Spaced.problem (spaced : Spaced text parts here) (covered : IsOver (significant text) here)
    (more : (pastSeparators here).rest ≠ []) (onward : there.rest ⊆ (pastSeparators here).rest)
    {found : Problem} (same : found = ⟨.unexpectedToken, (pastSeparators here).current.token⟩)
    (skipped : List Lexeme) : Spaced text (parts ++ [.problem found skipped]) there where
  chain := by
    rw [Tree.statementsIn_append, Tree.statementsIn_problem, Tree.statementsIn_nil, List.append_nil]
    exact spaced.chain.imp fun left right parted => parted.mono (by simp) (Nat.le_refl _)
  last tree isLast := by
    rw [Tree.statementsIn_append, Tree.statementsIn_problem, Tree.statementsIn_nil,
      List.append_nil] at isLast
    have ends := (spaced.last tree isLast).ends
    refine trails_of_problem covered.pastSeparators (fun further behind => ?_) more onward ?_
    · exact ends further ((List.dropWhile_suffix isSeparator).subset behind)
    · simp [same]

/-- A statement behind the separators, with the problems right behind it. -/
theorem Spaced.statement {levels : Nat} {mode : Mode} {last : Cursor Lexeme} {behind : List Part}
    (spaced : Spaced text parts here) (covered : IsOver (significant text) here)
    (more : (pastSeparators here).rest ≠ [])
    (other : (pastSeparators here).current.kind ≠ .closeCurlyBrace)
    (run : Derives (.statement levels .statements) mode (pastSeparators here)
      [.child .statements tree] last)
    (problems : Tree.statementsIn behind = [])
    (trails : Trails text (Tree.partsProblems (parts ++ .child .statements tree :: behind))
      tree there) :
    Spaced text (parts ++ .child .statements tree :: behind) there where
  chain := by
    rw [Tree.statementsIn_append, Tree.statementsIn_statement, problems]
    refine List.IsChain.append ?_ (List.isChain_singleton _) fun left isLast right isFirst => ?_
    · exact spaced.chain.imp fun left right parted => parted.mono (by simp) (Nat.le_refl _)
    · obtain rfl : tree = right := by simpa using isFirst
      have parted := (spaced.last left isLast).parted.resolve_left other
      have begins := (run.spans_statement covered.pastSeparators).1
      exact (parted _ (current_mem_rest more)).mono (by simp) begins
  last other isLast := by
    rw [Tree.statementsIn_append, Tree.statementsIn_statement, problems,
      List.getLast?_concat] at isLast
    cases isLast
    exact trails

end Listing

/-- **The statements of a scope are parted one from the other.** -/
theorem Derives.spaced {text : Text} {terminator : Option TokenKind} {levels : Nat} {mode : Mode}
    {first last : Cursor Lexeme} {parts : List Part}
    (run : Derives (.listing terminator levels) mode first parts last)
    (lined : mode.lineBreaksIgnored = false) (covered : IsOver (significant text) first) :
    Spaced text parts last := by
  generalize shape : Phrase.listing terminator levels = phrase at run
  induction run with
  | listingStart => exact ⟨.nil, nofun⟩
  | @stray _ _ mode _ last _ before goesOn _ previous =>
    cases shape
    have here := before.isOver covered
    rw [look, settle_of_lined lined] at goesOn ⊢
    have more := rest_ne_nil here.pastSeparators.marked (ne_endOfStream_of_endsBlock goesOn)
    refine (previous lined covered rfl).problem here more ?_ rfl _
    rw [past_rest, settle_of_lined lined]
    exact List.drop_subset 1 _
  | @unreadable _ _ mode _ second _ _ before goesOn _ failed previous _ =>
    cases shape
    have here := before.isOver covered
    rw [failed.stays rfl rfl]
    simp only [look, settle_of_lined lined] at goesOn ⊢
    have more := rest_ne_nil here.pastSeparators.marked (ne_endOfStream_of_endsBlock goesOn)
    refine (previous lined covered rfl).problem here more ?_ rfl _
    refine List.Subset.trans (List.dropWhile_suffix _).subset ?_
    rw [past_rest, settle_of_lined lined]
    exact List.drop_subset 1 _
  | @listed _ _ mode _ second last parts tree before goesOn other statement separated previous _ =>
    cases shape
    have here := before.isOver covered
    simp only [look, settle_of_lined lined] at goesOn other statement ⊢
    have more := rest_ne_nil here.pastSeparators.marked (ne_endOfStream_of_endsBlock goesOn)
    exact (previous lined covered rfl).statement here more other statement rfl
      (statement.trails_of_isSeparated here.pastSeparators lined separated _)
  | @crowded _ _ mode _ second last parts tree before goesOn other statement crowded previous _ =>
    cases shape
    have here := before.isOver covered
    simp only [look, settle_of_lined lined] at goesOn other statement ⊢
    have more := rest_ne_nil here.pastSeparators.marked (ne_endOfStream_of_endsBlock goesOn)
    have behind := statement.isOver here.pastSeparators
    refine (previous lined covered rfl).statement here more other statement rfl ?_
    refine trails_of_problem behind (statement.spans_statement here.pastSeparators).2 ?_ ?_ ?_
    · refine rest_ne_nil behind.marked fun ended => ?_
      simp [isSeparated, look, settle_of_lined lined, endsStatement, ended] at crowded
    · exact (List.dropWhile_suffix _).subset
    · simp
  | _ => cases shape

end Grammar

/-! ### Statements of a document -/

/-- The problems of a node are among those of the tree. -/
theorem Tree.IsWithin.problems_subset {node tree : Tree} (within : node.IsWithin tree) :
    node.problems ⊆ tree.problems := by
  induction within with
  | here => exact List.Subset.refl _
  | @inside _ _ parts role tree member _ previous =>
    obtain ⟨before, behind, rfl⟩ := List.append_of_mem member
    refine List.Subset.trans previous ?_
    simp

namespace Document

/-- The statements of a scope show the statements among its parts. -/
theorem ShowsParts.statements {document : Document} {slots : List (Role × NodeId)}
    {parts : List Part} (shown : document.ShowsParts slots parts) :
    List.Forall₂ document.Shows ((slots.filter (·.1 == .statements)).map (·.2))
      (Tree.statementsIn parts) := by
  induction parts generalizing slots with
  | nil =>
    obtain rfl : slots = [] := shown
    exact .nil
  | cons part rest previous =>
    obtain ⟨others, here, behind⟩ := shown
    cases part with
    | problem found skipped =>
      obtain rfl : slots = others := here
      exact previous behind
    | child role tree =>
      obtain ⟨id, rfl, same⟩ := here
      rw [List.filter_cons, Tree.statementsIn, List.filterMap_cons, Part.statement?]
      cases role == .statements with
      | true => exact .cons same (previous behind)
      | false => exact previous behind

/-- What is shown of neighbours holds of the nodes that show them. -/
theorem isChain_of_shows {document : Document} {related : Tree → Tree → Prop} {ids : List NodeId}
    {trees : List Tree} (shown : List.Forall₂ document.Shows ids trees)
    (chain : trees.IsChain related) :
    ids.IsChain fun first second =>
      ∃ left right, document.Shows first left ∧ document.Shows second right
        ∧ related left right := by
  induction shown with
  | nil => exact .nil
  | @cons first left ids trees own others previous =>
    cases others with
    | nil => exact .singleton _
    | cons next behind =>
      rw [List.isChain_cons_cons] at chain ⊢
      exact ⟨⟨left, _, own, next, chain.1⟩, previous chain.2⟩

end Document

namespace Reading

open Document

/-- In front of `second` something parts `first` from it: the semicolon that `first` ends with, a
line break or a semicolon between them, or a problem about an unexpected token there. -/
inductive StandApart (text : Text) (first second : NodeId) : Prop where
  | semicolon {last : Token} : ((read text).document.tokensBelow first).getLast? = some last →
      last.kind = .semicolon → StandApart text first second
  | separator {token : Token} : token ∈ tokensOf text →
      token.kind = .lineBreak ∨ token.kind = .semicolon →
      ((read text).document.span first).stop ≤ token.start →
      token.stop ≤ ((read text).document.span second).start → StandApart text first second
  | reported {found : Problem} : found ∈ (read text).problems → found.kind = .unexpectedToken →
      ((read text).document.span first).stop ≤ found.token.start →
      found.token.start ≤ ((read text).document.span second).start → StandApart text first second

variable {text : Text}

/-- What parts two trees parts the nodes that show them. -/
theorem standApart_of_isParted {first second : NodeId} {left right : Tree}
    (parted : IsParted (significant text) (read text).problems left right.span.start)
    (behind : Document.root < first) (inside : first < (read text).document.nodes.size)
    (shownLeft : (read text).document.Shows first left)
    (shownRight : (read text).document.Shows second right) : StandApart text first second := by
  cases parted with
  | @semicolon last isLast kind =>
    have tokens : (read text).document.tokensBelow first = left.leaves.map (·.token) :=
      Shows.tokens (read text).isDescending left shownLeft behind inside
    have below : ((read text).document.tokensBelow first).getLast? = some last.token := by
      rw [tokens, List.getLast?_map, isLast]
      rfl
    exact .semicolon below kind
  | @separator lexeme member separates after before =>
    rw [← shownLeft.span] at after
    rw [← shownRight.span] at before
    have kind : lexeme.kind = .lineBreak ∨ lexeme.kind = .semicolon := by
      simpa [isSeparator] using separates
    exact .separator (List.mem_map_of_mem (mem_significant_iff.mp member).1) kind after before
  | reported member unexpected after before =>
    rw [← shownLeft.span] at after
    rw [← shownRight.span] at before
    exact .reported member unexpected after before

/-- The statements among the parts of a scope are parted one from the other. -/
theorem spaced_parts {form : Form} {span : Span} {parts : List Part}
    (scope : form = .globalScope ∨ form = .scope)
    (within : (Tree.node form span parts).IsWithin (read text).tree) :
    (Tree.statementsIn parts).IsChain fun left right =>
      IsParted (significant text) (read text).problems left right.span.start := by
  have below : Tree.partsProblems parts ⊆ (read text).problems := within.problems_subset
  have lists := Reading.isScope scope within
  generalize (form == .scope) = braced at lists
  cases lists with
  | @mk _ _ _ _ _ front listing behind noFront noBehind run covered lined =>
    rw [Tree.statementsIn_append, Tree.statementsIn_append, Tree.statementsIn_eq_nil noFront,
      Tree.statementsIn_eq_nil noBehind, List.nil_append, List.append_nil]
    refine (run.spaced lined covered).chain.imp fun left right parted => ?_
    exact parted.mono (List.Subset.trans (by simp) below) (Nat.le_refl _)

/-- **Two statements that follow each other in a scope are parted.** -/
theorem statements_apart {scope first second : NodeId} {before behind : List NodeId}
    (form : ((read text).document.content scope).form? = some .globalScope
      ∨ ((read text).document.content scope).form? = some .scope)
    (listed : ((read text).document.content scope).statements
      = before ++ first :: second :: behind) : StandApart text first second := by
  obtain ⟨own, kind, same⟩ : ∃ own, (own = .globalScope ∨ own = .scope)
      ∧ ((read text).document.content scope).form? = some own := by
    rcases form with outer | braced
    · exact ⟨_, .inl rfl, outer⟩
    · exact ⟨_, .inr rfl, braced⟩
  have notRoot : own ≠ .root := by rcases kind with rfl | rfl <;> exact nofun
  obtain ⟨span, parts, within, slots, content, _, filled⟩ :=
    (read text).exists_shown_of_form same notRoot
  have all : (Content.branch own slots).statements
      = (slots.filter (·.1 == .statements)).map (·.2) := by rcases kind with rfl | rfl <;> rfl
  rw [content, all] at listed
  have chain := isChain_of_shows filled.statements (spaced_parts kind within)
  rw [listed, List.isChain_append_cons_cons] at chain
  obtain ⟨left, right, shownLeft, shownRight, parted⟩ := chain.2.1
  have child : (read text).document.IsChildOf first scope := by
    rw [IsChildOf, children, content]
    have member : first ∈ (slots.filter (·.1 == .statements)).map (·.2) := by simp [listed]
    obtain ⟨slot, filtered, number⟩ := List.mem_map.mp member
    exact List.mem_map.mpr ⟨slot, (List.mem_filter.mp filtered).1, number⟩
  obtain ⟨behindRoot, inside⟩ := child_inside child
  exact standApart_of_isParted parted behindRoot inside shownLeft shownRight

/-- In `x {y}` the block begins at the very token that the problem is about. -/
theorem statements_apart_at_brace :
    let text := "x \x7by\x7d".toList
    ∃ scope first second : NodeId,
      ((read text).document.content scope).form? = some .globalScope
      ∧ ((read text).document.content scope).statements = [] ++ first :: second :: []
      ∧ StandApart text first second := by
  intro text
  have form : ((read text).document.content 9).form? = some .globalScope := by decide
  have listed : ((read text).document.content 9).statements = [] ++ 2 :: 8 :: [] := by decide
  exact ⟨9, 2, 8, form, listed, statements_apart (.inl form) listed⟩

end Reading

end RSource
