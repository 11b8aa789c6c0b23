/-
**A line break inside a statement means nothing.**

A line break counts only where the innermost scope or statement around it is a scope
(`Document.IsInsignificant` says that it is a statement). Behind a statement that a scope lists no
such line break stands before the next token of the scope (`ScopeNode.not_isInsignificant`): a
statement around it would lie below the scope, on one side of the line break. So a text without
problems may lose any of these line breaks (`Edit`). Main statement: `Reading.insignificant`, the
document stays the same, number by number.
-/

import RSource.Session
import RSource.Proofs.Arena.Shown
import RSource.Proofs.Grammar.Edited
import RSource.Proofs.Grammar.Extent

namespace RSource

open Grammar Reader Cursor

/-! ### What a scope is made of -/

/-- No child begins with a separator of statements. -/
def BeginsPlainly (parts : List Part) : Prop :=
  ∀ role tree, .child role tree ∈ parts → ∀ first ∈ tree.leaves.head?, isSeparator first = false

/-- In a braced scope no child begins with a separator, and without problems a token closes it. -/
def Tree.IsFramed : Tree → Prop
  | .node .scope _ parts => BeginsPlainly parts
    ∧ (Tree.partsProblems parts = [] → ∃ before closer,
      parts = before ++ [.child .closeCurly (.leaf closer)] ∧ isSeparator closer = false)
  | _ => True

namespace Grammar

/-- The first leaf of an expression is the token that it was read at. -/
theorem Derives.head?_leaves {phrase : Phrase} {mode : Mode} {first last : Cursor Lexeme}
    {parts : List Part} (run : Derives phrase mode first parts last)
    (single : phrase.isExpression = true) (some : parts ≠ []) :
    (Tree.partsLeaves parts).head? = .some (look mode first) := by
  induction run with
  | expression _ _ previous | chainStart _ previous | postfixed _ _ previous
  | suffixedStart _ previous =>
    exact previous rfl (List.cons_ne_nil _ _)
  | unsigned _ _ previous | blockPrimary _ _ previous | constructPrimary _ _ _ previous =>
    rw [← look_settle]
    exact previous rfl some
  | chainMore _ _ _ previous _ | call _ _ _ _ previous _ _ | index _ _ _ _ _ previous _ _
  | access _ _ _ previous _ | statement _ _ previous _ =>
    have front := previous rfl (List.cons_ne_nil _ _)
    simp only [Tree.partsLeaves_child, Tree.partsLeaves_nil, List.append_nil] at front
    simp [front]
  | _ => simp_all [Phrase.isExpression, leafAt, Tree.leaves]

theorem isSeparator_of_kind {lexeme : Lexeme} {kind : TokenKind} (found : lexeme.kind = kind)
    (token : isSeparator ⟨kind, 0, []⟩ = false) : isSeparator lexeme = false := by
  unfold isSeparator at token ⊢
  rwa [found]

theorem Derives.begins_statement {levels : Nat} {role own : Role} {mode : Mode}
    {first last : Cursor Lexeme} {tree : Tree}
    (run : Derives (.statement levels own) mode first [.child own tree] last) :
    BeginsPlainly [.child role tree] := by
  intro _ _ member leaf front
  cases List.mem_singleton.mp member
  have begins := run.head?_leaves rfl (List.cons_ne_nil _ _)
  rw [Tree.partsLeaves_child, Tree.partsLeaves_nil, List.append_nil] at begins
  cases begins.symm.trans front
  exact isSeparator_of_endsNesting (run.endsNesting_look rfl nofun (List.cons_ne_nil _ _))

theorem Derives.begins_listing {terminator : Option TokenKind} {levels : Nat} {mode : Mode}
    {first last : Cursor Lexeme} {parts : List Part}
    (run : Derives (.listing terminator levels) mode first parts last) : BeginsPlainly parts := by
  generalize shape : Phrase.listing terminator levels = phrase at run
  induction run with
  | listingStart => exact nofun
  | stray _ _ _ previous | unreadable _ _ _ _ previous _ =>
    cases shape
    intro role tree member
    exact previous rfl role tree (by simpa using member)
  | @listed _ _ _ _ _ _ parts statement _ _ _ read _ previous _
  | @crowded _ _ _ _ _ _ parts statement _ _ _ read _ previous _ =>
    cases shape
    intro role tree member
    have split : Part.child role tree ∈ parts
        ∨ Part.child role tree ∈ [Part.child .statements statement] := by
      simpa using member
    rcases split with early | late
    · exact previous rfl role tree early
    · exact read.begins_statement role tree late
  | _ => cases shape

theorem isFramed_of_block {items : List Lexeme} : HoldsOfBlocks items Tree.IsFramed := by
  intro levels role mode first last tree covered run
  cases run with
  | @block _ _ _ _ _ _ items close opened inside ends =>
    refine ⟨fun role tree member leaf front => ?_, fun clean => ?_⟩
    · rcases List.mem_cons.mp member with same | behind
      · cases same
        cases front
        exact isSeparator_of_kind opened rfl
      rcases List.mem_append.mp behind with early | late
      · cases inside with
        | statements listing _ => exact listing.begins_listing role tree early leaf front
      · cases ends with
        | missing _ => simp at late
        | found closed _ =>
          cases List.mem_singleton.mp late
          cases front
          exact isSeparator_of_kind (eq_of_beq closed) rfl
    · cases ends with
      | missing _ => simp at clean
      | found closed _ =>
        exact ⟨.child .openCurly (leafAt mode first) :: items, _, rfl,
          isSeparator_of_kind (eq_of_beq closed) rfl⟩

end Grammar

/-! ### Line breaks inside statements -/

/-- Whether a node says what a line break in it means: a scope that has a list of statements, or a
statement. -/
def Form.isFrame : Form → Bool
  | globalScope | scope | statement => true
  | _ => false

namespace Document

/-- Whether a node says what a line break in it means. -/
def isFrame (document : Document) (id : NodeId) : Bool :=
  (document.content id).form?.any Form.isFrame

/-- Whether a node reaches over a span. -/
def Covers (document : Document) (id : NodeId) (span : Span) : Prop :=
  span.IsWithin (document.span id).start (document.span id).stop

instance (document : Document) (id : NodeId) (span : Span) :
    Decidable (document.Covers id span) :=
  inferInstanceAs (Decidable (_ ∧ _))

/-- A node that says what line breaks mean, around a span and below all such nodes. -/
structure IsInnermost (document : Document) (id : NodeId) (span : Span) : Prop where
  frame : document.isFrame id = true
  covers : document.Covers id span
  below : ∀ other < document.nodes.size, document.isFrame other = true →
    document.Covers other span → id ∈ document.preorder other

instance (document : Document) (id : NodeId) (span : Span) :
    Decidable (document.IsInnermost id span) :=
  decidable_of_iff (document.isFrame id = true ∧ document.Covers id span
      ∧ ∀ other < document.nodes.size, document.isFrame other = true →
        document.Covers other span → id ∈ document.preorder other)
    ⟨fun ⟨frame, covers, below⟩ => ⟨frame, covers, below⟩,
      fun innermost => ⟨innermost.frame, innermost.covers, innermost.below⟩⟩

/-- A line break is insignificant when the innermost scope or statement around it is a statement. -/
def IsInsignificant (document : Document) (lexeme : Lexeme) : Prop :=
  lexeme.kind = .lineBreak ∧ ∃ id < document.nodes.size,
    (document.content id).form? = some .statement ∧ document.IsInnermost id lexeme.span

instance (document : Document) (lexeme : Lexeme) : Decidable (document.IsInsignificant lexeme) :=
  inferInstanceAs (Decidable (_ ∧ _))

/-- A number that no node has is no scope and no statement. -/
theorem lt_size_of_isFrame {document : Document} {id : NodeId}
    (frame : document.isFrame id = true) : id < document.nodes.size := by
  by_contra outside
  rw [isFrame, content, Array.getElem?_eq_none (Nat.le_of_not_lt outside)] at frame
  cases frame

end Document

/-! ### The tokens around a place -/

section Places

variable {items gap tail : List Lexeme} {leaf lexeme other : Lexeme}

/-- Of tokens in order, one that begins between two others stands between them. -/
theorem mem_gap_of_between (ordered : items.Pairwise (·.start < ·.start))
    (suffix : leaf :: gap ++ lexeme :: tail <:+ items) (member : other ∈ items)
    (behind : leaf.start < other.start) (before : other.start < lexeme.start) : other ∈ gap := by
  obtain ⟨early, rfl⟩ := suffix
  rw [List.pairwise_append, List.cons_append, List.pairwise_cons, List.pairwise_append,
    List.pairwise_cons] at ordered
  obtain ⟨_, ⟨_, _, ⟨late, _⟩, _⟩, first⟩ := ordered
  rcases List.mem_append.mp member with inEarly | inRest
  · have place := first other inEarly leaf (by simp)
    omega
  · rw [List.cons_append, List.mem_cons, List.mem_append, List.mem_cons] at inRest
    rcases inRest with rfl | between | rfl | inTail
    · omega
    · exact between
    · omega
    · have place := late other inTail
      omega

/-- A token on either side of another one. -/
theorem stop_le_or_le_start (apart : items.Pairwise (·.stop ≤ ·.start)) (member : other ∈ items)
    (own : lexeme ∈ items) (distinct : other ≠ lexeme) :
    other.stop ≤ lexeme.start ∨ lexeme.stop ≤ other.start := by
  obtain ⟨before, behind, rfl⟩ := List.append_of_mem own
  rw [List.pairwise_append, List.pairwise_cons] at apart
  rcases List.mem_append.mp member with early | late
  · exact .inl (apart.2.2 other early lexeme List.mem_cons_self)
  · exact .inr (apart.2.1.1 other ((List.mem_cons.mp late).resolve_left distinct))

end Places

/-! ### Scopes of a text -/

/-- A line break that stands behind the last leaf of a statement, with separators only between. -/
structure StandsBehind (items : List Lexeme) (statement : Tree) (leaf : Lexeme)
    (gap : List Lexeme) (lexeme : Lexeme) (tail : List Lexeme) : Prop where
  final : leaf ∈ statement.leaves.getLast?
  suffix : leaf :: gap ++ lexeme :: tail <:+ items
  separators : ∀ other ∈ gap, isSeparator other = true
  unreadable : lexeme.isReadable = false

/-- A node of a text that lists statements. -/
structure ScopeNode (text : Text) (id : NodeId) (form : Form) (span : Span) (parts : List Part) :
    Prop where
  shown : (read text).document.Shows id (.node form span parts)
  form : form = .globalScope ∨ form = .scope
  drawn : ∃ places, ∀ part ∈ parts, part.IsDrawn places
  begins : BeginsPlainly parts
  leaves : (Tree.partsLeaves parts).Sublist (significant text)
  readable : ∀ leaf ∈ Tree.partsLeaves parts, leaf.isReadable = true

/-- A tree inside one that is drawn holds a leaf or is empty. -/
theorem Tree.IsWithin.isHeld {node tree : Tree} (within : node.IsWithin tree) {places : List Nat}
    (held : tree.IsHeld places) (drawn : tree.All Tree.IsDrawn) : ∃ places, node.IsHeld places := by
  induction within generalizing places with
  | here => exact ⟨places, held⟩
  | @inside form span parts role tree member _ previous =>
    obtain ⟨own, below⟩ := (Tree.all_node_iff form span parts).mp drawn
    exact previous (own.1 role tree member) (below _ member)

theorem ScopeNode.exists_of_isWithin {text : Text} {form : Form} {span : Span} {parts : List Part}
    (within : (Tree.node form span parts).IsWithin (read text).tree)
    (scope : form = .globalScope ∨ form = .scope) {places : List Nat}
    (drawn : ∀ part ∈ parts, part.IsDrawn places) (begins : BeginsPlainly parts) :
    ∃ id, ScopeNode text id form span parts := by
  obtain ⟨id, shown⟩ := (read text).shows_document.1.exists_of_isWithin within
  refine ⟨id, shown, scope, ⟨places, drawn⟩, begins, ?_, fun leaf member => ?_⟩
  · exact within.leaves_sublist.trans
      ((Tree.leaves_sublist _).trans (keeps_significant text).sublist)
  · exact Tree.isReadable_of_mem_leaves _ (faithful_tree text) leaf
      (within.leaves_sublist.subset member)

section Between

variable {text : Text} {lexeme : Lexeme}

/-- A tree that reaches over a token which is no leaf of it has leaves on both sides. -/
theorem exists_leaves_around {tree : Tree} (drawn : tree.All Tree.IsDrawn) {places : List Nat}
    (held : tree.IsHeld places) (covers : lexeme.span.IsWithin tree.span.start tree.span.stop)
    (wide : lexeme.start < lexeme.stop)
    (sides : ∀ leaf ∈ tree.leaves, leaf.stop ≤ lexeme.start ∨ lexeme.stop ≤ leaf.start) :
    (∃ leaf ∈ tree.leaves, leaf.stop ≤ lexeme.start)
      ∧ ∃ leaf ∈ tree.leaves, lexeme.stop ≤ leaf.start := by
  obtain ⟨first, last⟩ := covers
  replace first : tree.span.start ≤ lexeme.start := first
  replace last : lexeme.stop ≤ tree.span.stop := last
  have some : tree.leaves ≠ [] := held.resolve_right fun ⟨place, _, empty⟩ => by
    rw [empty] at first last
    exact absurd (Nat.le_trans last first) (Nat.not_le.mpr wide)
  have inside := tree.span_covers drawn
  constructor
  · by_contra none
    push Not at none
    have all (leaf : Lexeme) (member : leaf ∈ tree.leaves) :
        leaf.span.IsWithin lexeme.stop tree.span.stop :=
      ⟨(sides leaf member).resolve_left (Nat.not_le.mpr (none leaf member)), (inside leaf member).2⟩
    have start := (tree.span_within drawn some all).1
    omega
  · by_contra none
    push Not at none
    have all (leaf : Lexeme) (member : leaf ∈ tree.leaves) :
        leaf.span.IsWithin tree.span.start lexeme.start :=
      ⟨(inside leaf member).1,
        (sides leaf member).resolve_right (Nat.not_le.mpr (none leaf member))⟩
    have stop := (tree.span_within drawn some all).2
    omega

end Between

section ScopeNode

variable {text : Text} {id : NodeId} {form : Form} {span : Span} {parts : List Part}
  (scope : ScopeNode text id form span parts)
include scope

theorem ScopeNode.isFrame : (read text).document.isFrame id = true := by
  obtain ⟨slots, content, _⟩ := scope.shown
  rw [Document.isFrame, content]
  rcases scope.form with rfl | rfl <;> rfl

theorem ScopeNode.sides {leaf lexeme : Lexeme} (member : leaf ∈ Tree.partsLeaves parts)
    (own : lexeme ∈ significant text) (unreadable : lexeme.isReadable = false) :
    leaf.stop ≤ lexeme.start ∨ lexeme.stop ≤ leaf.start := by
  refine stop_le_or_le_start ((lexemes_apart text).sublist (significant_sublist text))
    (scope.leaves.subset member) own ?_
  rintro rfl
  rw [scope.readable leaf member] at unreadable
  cases unreadable

/-- A statement around a line break lies in a child of the scope with leaves on both sides. -/
theorem ScopeNode.exists_child {lexeme : Lexeme} (own : lexeme ∈ significant text)
    (unreadable : lexeme.isReadable = false) (covers : lexeme.span.IsWithin span.start span.stop)
    (insignificant : (read text).document.IsInsignificant lexeme) :
    ∃ role tree, .child role tree ∈ parts ∧ (∃ leaf ∈ tree.leaves, leaf.stop ≤ lexeme.start)
      ∧ ∃ leaf ∈ tree.leaves, lexeme.stop ≤ leaf.start := by
  obtain ⟨_, inner, _, isStatement, innermost⟩ := insignificant
  have spanned : (read text).document.span id = span := by
    obtain ⟨_, _, spanned, _⟩ := scope.shown
    exact spanned
  have below := innermost.below id (Document.lt_size_of_isFrame scope.isFrame) scope.isFrame
    (by rwa [Document.Covers, spanned])
  obtain ⟨node, within, shown⟩ := scope.shown.exists_of_mem_preorder below
  have around : lexeme.span.IsWithin node.span.start node.span.stop := by
    have same : (read text).document.span inner = node.span := by
      cases node with
      | leaf | cut => exact shown.2
      | node => exact shown.choose_spec.2.1
    rw [← same]
    exact innermost.covers
  cases within with
  | here =>
    obtain ⟨_, content, _⟩ := shown
    rw [content] at isStatement
    cases isStatement
    rcases scope.form with global | braced
    · cases global
    · cases braced
  | @inside _ _ _ role tree member within =>
    obtain ⟨places, drawn⟩ := scope.drawn
    obtain ⟨held, all⟩ := drawn _ member
    obtain ⟨_, inHeld⟩ := within.isHeld held all
    have wide := start_lt_stop_of_mem_lexemes ((significant_sublist text).subset own)
    obtain ⟨⟨first, inFirst, before⟩, last, inLast, behind⟩ :=
      exists_leaves_around (within.all all) inHeld around wide fun leaf inNode =>
        scope.sides ((Tree.leaves_sublist_of_child member).subset
          (within.leaves_sublist.subset inNode)) own unreadable
    exact ⟨role, tree, member, ⟨first, within.leaves_sublist.subset inFirst, before⟩,
      last, within.leaves_sublist.subset inLast, behind⟩

/-- **Behind a statement of a scope, a line break is not inside one.** -/
theorem ScopeNode.not_isInsignificant {statement : Tree} {leaf lexeme : Lexeme}
    {gap tail : List Lexeme} (listed : .child .statements statement ∈ parts)
    (behind : StandsBehind (significant text) statement leaf gap lexeme tail)
    (covers : lexeme.span.IsWithin span.start span.stop) :
    ¬ (read text).document.IsInsignificant lexeme := by
  intro insignificant
  obtain ⟨final, suffix, separators, unreadable⟩ := behind
  have own : lexeme ∈ significant text := suffix.subset (by simp)
  obtain ⟨role, tree, member, ⟨first, inFirst, before⟩, last, inLast, behind⟩ :=
    scope.exists_child own unreadable covers insignificant
  have wide := start_lt_stop_of_mem_lexemes ((significant_sublist text).subset own)
  have ordered := (significant_ordered text).sublist scope.leaves
  have leafBefore : leaf.start < lexeme.start := by
    have order := (significant_ordered text).sublist suffix.sublist
    exact List.rel_of_pairwise_cons order (by simp)
  obtain ⟨early, shape⟩ := List.getLast?_eq_some_iff.mp final
  have inStatement : leaf ∈ statement.leaves := by simp [shape]
  obtain ⟨left, right, rfl⟩ := List.append_of_mem listed
  rw [Tree.partsLeaves_append, Tree.partsLeaves_child, List.pairwise_append,
    List.pairwise_append] at ordered
  obtain ⟨_, ⟨inside, _, across⟩, between⟩ := ordered
  rcases List.mem_append.mp member with inLeft | inRest
  · -- The child stands in front of the statement, and so do all its leaves.
    have place := between last ((Tree.leaves_sublist_of_child inLeft).subset inLast) leaf
      (List.mem_append_left _ inStatement)
    omega
  rcases List.mem_cons.mp inRest with same | inRight
  · -- The child is the statement, whose last leaf stands in front of the line break.
    cases same
    rw [shape, List.pairwise_append] at inside
    rw [shape, List.mem_append, List.mem_singleton] at inLast
    rcases inLast with inEarly | rfl
    · have place := inside.2.2 last inEarly leaf (List.mem_singleton_self _)
      omega
    · omega
  · -- The child stands behind the statement: its first leaf would be a separator.
    obtain ⟨head, others, front⟩ := List.exists_cons_of_ne_nil (List.ne_nil_of_mem inFirst)
    have inTree : head ∈ tree.leaves := by simp [front]
    have inParts := (Tree.leaves_sublist_of_child inRight).subset inTree
    have later := across leaf inStatement head inParts
    have sooner : head.start ≤ first.start := by
      have order := (significant_ordered text).sublist
        ((Tree.leaves_sublist_of_child member).trans scope.leaves)
      rw [front] at order inFirst
      rcases List.mem_cons.mp inFirst with rfl | further
      · exact Nat.le_refl _
      · exact Nat.le_of_lt (List.rel_of_pairwise_cons order further)
    have wideFirst := start_lt_stop_of_mem_lexemes ((significant_sublist text).subset
      (scope.leaves.subset ((Tree.leaves_sublist_of_child member).subset inFirst)))
    have between := mem_gap_of_between (significant_ordered text) suffix
      (scope.leaves.subset ((Tree.leaves_sublist_of_child member).subset inTree)) later (by omega)
    have plain := scope.begins role tree member head (by rw [front]; rfl)
    rw [separators head between] at plain
    cases plain

/-- What stands behind a statement of a braced scope stands in front of its closing brace. -/
theorem ScopeNode.covers {statement : Tree} {leaf lexeme : Lexeme} {gap tail : List Lexeme}
    (framed : (Tree.node .scope span parts).IsFramed) (clean : Tree.partsProblems parts = [])
    (drawn : (Tree.node .scope span parts).All Tree.IsDrawn)
    (listed : .child .statements statement ∈ parts)
    (behind : StandsBehind (significant text) statement leaf gap lexeme tail) :
    lexeme.span.IsWithin span.start span.stop := by
  obtain ⟨before, closer, rfl, plain⟩ := framed.2 clean
  have inBefore : .child .statements statement ∈ before := by simpa using listed
  obtain ⟨early, shape⟩ := List.getLast?_eq_some_iff.mp behind.final
  have inStatement : leaf ∈ statement.leaves := by simp [shape]
  have inParts := (Tree.leaves_sublist_of_child inBefore).subset inStatement
  have order := (significant_ordered text).sublist scope.leaves
  rw [Tree.partsLeaves_append, List.pairwise_append] at order
  have later : leaf.start < closer.start :=
    order.2.2 leaf inParts closer (by simp [Tree.leaves])
  have leafBefore : leaf.start < lexeme.start :=
    List.rel_of_pairwise_cons ((significant_ordered text).sublist behind.suffix.sublist) (by simp)
  have inside := Tree.span_covers _ drawn
  have first := (inside leaf (by simpa [Tree.leaves_node] using .inl inParts)).1
  have final := (inside closer (by simp [Tree.leaves_node])).2
  have own : lexeme ∈ significant text := behind.suffix.subset (by simp)
  have isLeaf : closer ∈ Tree.partsLeaves (before ++ [.child .closeCurly (.leaf closer)]) := by simp
  have wide := start_lt_stop_of_mem_lexemes
    ((significant_sublist text).subset (scope.leaves.subset isLeaf))
  rcases scope.sides isLeaf own behind.unreadable with sooner | further
  · have between := mem_gap_of_between (significant_ordered text) behind.suffix
      (scope.leaves.subset isLeaf) later (by omega)
    rw [behind.separators closer between] at plain
    cases plain
  · refine ⟨Nat.le_trans first (Nat.le_of_lt leafBefore), ?_⟩
    exact Nat.le_trans further (Nat.le_trans (Nat.le_of_lt wide) final)

end ScopeNode

/-! ### Reading without them -/

/-- Leaving out some line breaks of a text. -/
def Edit.without (removed : Lexeme → Bool) (text : Text) : Edit where
  keeps lexeme := !(removed lexeme && isLineBreak lexeme)
  more := []
  mark := .endMark text.bytes
  kept lexeme token := by rw [token, Bool.and_false, Bool.not_false]
  marked := rfl

section Without

variable {text : Text} {removed : Lexeme → Bool}
  (insignificant : ∀ lexeme ∈ lexemes text, removed lexeme = true →
    (read text).document.IsInsignificant lexeme)
include insignificant

theorem ScopeNode.closes {id : NodeId} {form : Form} {span : Span} {parts : List Part}
    (scope : ScopeNode text id form span parts) {statement : Tree}
    (listed : .child .statements statement ∈ parts)
    (covers : ∀ {leaf lexeme : Lexeme} {gap tail : List Lexeme},
      StandsBehind (significant text) statement leaf gap lexeme tail →
        lexeme.span.IsWithin span.start span.stop) :
    (Edit.without removed text).Closes (significant text) statement := by
  intro leaf final gap tail suffix separators unreadable lexeme shown
  cases tail with
  | nil => cases shown
  | cons own tail =>
    have behind : StandsBehind (significant text) statement leaf gap own tail :=
      ⟨final, suffix, separators, unreadable own rfl⟩
    have inside : own ∈ lexemes text :=
      (significant_sublist text).subset (suffix.subset (by simp))
    have kept : (Edit.without removed text).keeps own = true := by
      cases gone : removed own with
      | false => simp [Edit.without, gone]
      | true =>
        exact absurd (insignificant own inside gone)
          (scope.not_isInsignificant listed behind (covers behind))
    rw [Edit.list, List.filter_cons_of_pos kept] at shown
    have same : own = lexeme := Option.some.inj shown
    rw [← same]
    exact unreadable own rfl

/-- A text without problems may lose the line breaks. -/
theorem fits_without (clean : (read text).problems = []) {items : List Part}
    {last : Cursor Lexeme} (derivation : Derivation text items last) :
    ∀ part ∈ items, (Edit.without removed text).Fits (significant text) part := by
  have noProblems : Tree.partsProblems items = [] := by
    rw [Reading.problems, derivation.tree] at clean
    exact clean
  have covered : IsOver (significant text) (beginning text) := ⟨rfl, rfl⟩
  have framed : ∀ part ∈ items, part.All Tree.IsFramed :=
    derivation.derives.all_of_blocks (fun _ => trivial) (fun _ _ => trivial)
      (fun form _ _ other _ => by cases form <;> trivial)
      isFramed_of_block covered
  intro part member
  cases part with
  | problem found skipped =>
    rw [Tree.partsProblems_eq_flatMap, List.flatMap_eq_nil_iff] at noProblems
    exact List.cons_ne_nil _ _ (noProblems _ member)
  | child role tree =>
    refine ⟨Tree.problems_of_child noProblems member, fun node within => ?_⟩
    cases node with
    | leaf lexeme => trivial
    | cut lexeme skipped => trivial
    | node form span parts =>
      by_cases braced : form = .scope
      · subst braced
        intro statement listed
        have frame := framed _ member _ within
        have drawn := within.all (Reading.drawn derivation _ member).2
        obtain ⟨own, below⟩ := (Tree.all_node_iff _ _ _).mp drawn
        have inTree : (Tree.node .scope span parts).IsWithin (read text).tree := by
          rw [derivation.tree]
          exact .inside member within
        obtain ⟨id, scope⟩ := ScopeNode.exists_of_isWithin inTree (.inr rfl)
          (Tree.drawn_of_all own below) frame.1
        exact scope.closes insignificant listed
          (scope.covers frame (inTree.problems clean) drawn listed)
      · cases form <;> trivial

/-- Behind each statement of the global scope too. -/
theorem closes_without {items : List Part} {last : Cursor Lexeme}
    (derivation : Derivation text items last) {statement : Tree}
    (listed : .child .statements statement ∈ items) :
    (Edit.without removed text).Closes (significant text) statement := by
  have inTree : (Tree.node .globalScope ⟨0, text.bytes⟩ items).IsWithin (read text).tree := by
    rw [derivation.tree]
    exact .here
  have begins : BeginsPlainly items := by
    cases derivation.derives with
    | statements listing _ => exact listing.begins_listing
  obtain ⟨id, scope⟩ :=
    ScopeNode.exists_of_isWithin inTree (.inl rfl) (Reading.drawn derivation) begins
  refine scope.closes insignificant listed fun behind => ⟨Nat.zero_le _, ?_⟩
  exact stop_le_of_mem_lexemes ((significant_sublist text).subset (behind.suffix.subset (by simp)))

/-- **The statements of a text without problems are read without the line breaks too.** -/
theorem derives_without (clean : (read text).problems = []) {items : List Part}
    {last : Cursor Lexeme} (derivation : Derivation text items last) :
    ∃ last, Derives (.statements none maxNesting) .outermost
      ((Edit.without removed text).cursor (beginning text)) items last := by
  have covered : IsOver (significant text) (beginning text) := ⟨rfl, rfl⟩
  have fits := fits_without insignificant clean derivation
  have closes := @closes_without text removed insignificant items last derivation
  cases derivation.derives with
  | @statements _ _ _ _ behind _ listing ends =>
    have edited := listing.edited covered fits
      ⟨rfl, fun inside => absurd inside (Nat.lt_irrefl 0), fun _ => closes⟩
    have rest : (pastSeparators ((Edit.without removed text).cursor behind)).rest = [] :=
      Edit.pastSeparators_cursor_rest fun lexeme member => by
        have none : behind.rest.dropWhile isSeparator = [] := derivation.rest
        exact List.dropWhile_eq_nil_iff.mp none lexeme member
    refine ⟨_, .statements edited ?_⟩
    rw [look, settle_of_lined rfl, Cursor.current, rest]
    rfl

end Without

/-! ### Sessions -/

/-- A session reads the tokens it is given as a text is read. -/
theorem Session.readAll_start (text : Text) (lexemes : List Lexeme) :
    (Session.start text lexemes).readAll.problems = (programOf lexemes text.bytes).problems
      ∧ (Session.start text lexemes).readAll.document
        = (Reading.mk text (programOf lexemes text.bytes)
          ((lexemes.filter (·.isComment)).map (·.token))).document := by
  refine ⟨rfl, ?_⟩
  rw [← filter_isComment lexemes]
  rfl

/-- **A text without problems is read alike without line breaks inside its statements.** -/
theorem Reading.insignificant {text : Text} {removed : Lexeme → Bool}
    (clean : (read text).problems = [])
    (insignificant : ∀ lexeme ∈ lexemes text, removed lexeme = true →
      (read text).document.IsInsignificant lexeme) :
    (Session.start text ((lexemes text).filter (!removed ·))).readAll.problems = []
      ∧ (Session.start text ((lexemes text).filter (!removed ·))).readAll.document
        = (read text).document := by
  obtain ⟨items, last, derivation⟩ := Reading.derivation text
  obtain ⟨behind, derives⟩ := derives_without insignificant clean derivation
  have breaks : ∀ lexeme ∈ lexemes text, removed lexeme = true → lexeme.kind = .lineBreak :=
    fun lexeme member gone => (insignificant lexeme member gone).1
  have tokens : (((lexemes text).filter (!removed ·)).filter (!·.isWhitespace)).filter
      (!·.isComment) = (Edit.without removed text).list (significant text) := by
    rw [Edit.list, significant]
    simp only [List.filter_filter]
    rw [show (Edit.without removed text).more = [] from rfl, List.append_nil]
    refine List.filter_congr fun lexeme member => ?_
    cases gone : removed lexeme with
    | false => simp [Edit.without, gone]
    | true => simp [Edit.without, gone, isLineBreak, breaks lexeme member gone]
  have comments : ((lexemes text).filter (!removed ·)).filter (·.isComment)
      = (lexemes text).filter (·.isComment) := by
    rw [List.filter_filter]
    refine List.filter_congr fun lexeme member => ?_
    cases gone : removed lexeme with
    | false => simp
    | true => simp [Lexeme.isComment, breaks lexeme member gone]
  have tree : programOf ((lexemes text).filter (!removed ·)) text.bytes = (read text).tree := by
    rw [derivation.tree]
    have same := @programOf_eq ((lexemes text).filter (!removed ·)) text.bytes items behind
    rw [tokens] at same
    exact same derives
  obtain ⟨problems, document⟩ :=
    Session.readAll_start text ((lexemes text).filter (!removed ·))
  rw [problems, document, tree, comments]
  exact ⟨clean, rfl⟩

/-- In the call the line break means nothing; the one behind it ends the statement. -/
theorem Reading.insignificant_in_call :
    (read "f(\n1)\n".toList).problems = []
      ∧ (∀ lexeme ∈ lexemes "f(\n1)\n".toList, (lexeme.start == 2) = true →
        (read "f(\n1)\n".toList).document.IsInsignificant lexeme)
      ∧ (Session.start "f(\n1)\n".toList
          ((lexemes "f(\n1)\n".toList).filter (!·.start == 2))).readAll.document
        = (read "f(\n1)\n".toList).document := by
  have clean : (read "f(\n1)\n".toList).problems = [] := by decide
  have insignificant : ∀ lexeme ∈ lexemes "f(\n1)\n".toList, (lexeme.start == 2) = true →
      (read "f(\n1)\n".toList).document.IsInsignificant lexeme := by decide
  exact ⟨clean, insignificant, (Reading.insignificant clean insignificant).2⟩

end RSource
