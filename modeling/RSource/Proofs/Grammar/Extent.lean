/-
**A node reaches exactly over its leaves.**

The span of a node is the smallest one over its children, and each child holds a leaf, but for an
argument list with nothing in it: that one lies where the bracket in front of it ends
(`Tree.IsDrawn`). So a node with leaves begins at one of them and ends at one of them:
`Tree.span_covers` and `Tree.span_within`. Main statement: `Derives.drawn`.
-/

import RSource.Proofs.Leaves
import RSource.Proofs.Tree.Leaves
import RSource.Proofs.Tree.Subtrees

namespace RSource

/-! ### Smallest spans -/

namespace Span

/-- Whether a span lies between two offsets. -/
def IsWithin (low high : Nat) (span : Span) : Prop := low ≤ span.start ∧ span.stop ≤ high

theorem isWithin_foldl_iff {low high : Nat} (first : Span) (rest : List Span) :
    (rest.foldl union first).IsWithin low high
      ↔ first.IsWithin low high ∧ ∀ span ∈ rest, span.IsWithin low high := by
  induction rest generalizing first with
  | nil => simp
  | cons span rest previous =>
    rw [List.foldl_cons, previous, List.forall_mem_cons, ← and_assoc]
    refine and_congr_left' ?_
    simp only [IsWithin, union, Nat.le_min, Nat.max_le]
    omega

/-- The smallest span lies between two offsets when all spans do. -/
theorem isWithin_hull_iff {low high : Nat} {spans : List Span} {hull : Span}
    (found : hull? spans = some hull) :
    hull.IsWithin low high ↔ ∀ span ∈ spans, span.IsWithin low high := by
  cases spans with
  | nil => cases found
  | cons first rest =>
    cases found
    rw [isWithin_foldl_iff, List.forall_mem_cons]

end Span

namespace Part

@[simp] theorem spans_child (role : Role) (tree : Tree) (rest : List Part) :
    (child role tree :: rest).filterMap span? = tree.span :: rest.filterMap span? := rfl

@[simp] theorem spans_problem (found : Problem) (skipped : List Lexeme) (rest : List Part) :
    (problem found skipped :: rest).filterMap span? = rest.filterMap span? := rfl

theorem mem_spans_iff {parts : List Part} {span : Span} :
    span ∈ parts.filterMap span? ↔ ∃ role tree, .child role tree ∈ parts ∧ tree.span = span := by
  rw [List.mem_filterMap]
  constructor
  · rintro ⟨part, member, same⟩
    cases part with
    | child role tree => exact ⟨role, tree, member, Option.some.inj same⟩
    | problem found skipped => cases same
  · rintro ⟨role, tree, member, rfl⟩
    exact ⟨_, member, rfl⟩

/-- Over parts that hold a leaf there is a smallest span. -/
theorem exists_hull {parts : List Part} (held : Tree.partsLeaves parts ≠ []) :
    ∃ hull, hull? parts = some hull := by
  cases spans : parts.filterMap span? with
  | nil =>
    refine absurd ?_ held
    rw [Tree.partsLeaves_eq_flatMap, List.flatMap_eq_nil_iff]
    intro part member
    cases part with
    | child role tree =>
      have listed := mem_spans_iff.mpr ⟨role, tree, member, rfl⟩
      rw [spans] at listed
      cases listed
    | problem found skipped => rfl
  | cons first rest => exact ⟨_, congrArg Span.hull? spans⟩

end Part

/-! ### Nodes -/

namespace Tree

/-- A tree holds a leaf, or it is empty and lies at one of these places. -/
def IsHeld (places : List Nat) (tree : Tree) : Prop :=
  tree.leaves ≠ [] ∨ ∃ place ∈ places, tree.span = .empty place

/-- Where the leaves of parts end. -/
def stops (parts : List Part) : List Nat := (partsLeaves parts).map Lexeme.stop

/-- A node reaches over its children, each of which is empty behind a leaf or holds one. -/
def IsDrawn : Tree → Prop
  | .node _ span parts =>
    (∀ role tree, .child role tree ∈ parts → tree.IsHeld (stops parts))
      ∧ ∀ hull ∈ Part.hull? parts, span = hull
  | _ => True

end Tree

/-- A problem, or a tree that is drawn and holds a leaf or lies at one of these places. -/
def Part.IsDrawn (places : List Nat) : Part → Prop
  | .child _ tree => tree.IsHeld places ∧ tree.All Tree.IsDrawn
  | .problem _ _ => True

namespace Tree

variable {places others : List Nat} {parts : List Part} {role : Role}

theorem IsHeld.mono {tree : Tree} (held : tree.IsHeld places) (more : places ⊆ others) :
    tree.IsHeld others :=
  held.imp_right fun ⟨place, member, same⟩ => ⟨place, more member, same⟩

theorem isHeld_nil_iff {tree : Tree} : tree.IsHeld [] ↔ tree.leaves ≠ [] := by simp [IsHeld]

theorem drawn_mono (drawn : ∀ part ∈ parts, part.IsDrawn places) (more : places ⊆ others) :
    ∀ part ∈ parts, part.IsDrawn others := by
  intro part member
  have own := drawn part member
  cases part with
  | child role tree => exact ⟨own.1.mono more, own.2⟩
  | problem found skipped => trivial

/-- Parts that all hold a leaf are drawn wherever they stand. -/
theorem drawn_anywhere (drawn : ∀ part ∈ parts, part.IsDrawn []) :
    ∀ part ∈ parts, part.IsDrawn places := drawn_mono drawn (List.nil_subset _)

theorem drawn_single {tree : Tree} (drawn : ∀ part ∈ [Part.child role tree], part.IsDrawn [])
    {other : Role} : (Part.child other tree).IsDrawn places := by
  rw [List.forall_mem_singleton] at drawn
  exact ⟨drawn.1.mono (List.nil_subset _), drawn.2⟩

/-- Children that are drawn wherever they stand hold a leaf. -/
theorem partsLeaves_ne_nil (drawn : ∀ part ∈ parts, part.IsDrawn []) {tree : Tree}
    (member : .child role tree ∈ parts) : partsLeaves parts ≠ [] := by
  have held := isHeld_nil_iff.mp (drawn _ member).1
  intro none
  rw [partsLeaves_eq_flatMap, List.flatMap_eq_nil_iff] at none
  exact held (none _ member)

@[simp] theorem isDrawn_leaf (lexeme : Lexeme) :
    (Part.child role (.leaf lexeme)).IsDrawn places ↔ True := by
  simp [Part.IsDrawn, IsHeld, IsDrawn]

@[simp] theorem isDrawn_cut (lexeme : Lexeme) (skipped : List Lexeme) :
    (Part.child role (.cut lexeme skipped)).IsDrawn places ↔ True := by
  simp [Part.IsDrawn, IsHeld, IsDrawn, leaves]

@[simp] theorem isDrawn_problem (found : Problem) (skipped : List Lexeme) :
    (Part.problem found skipped).IsDrawn places ↔ True := Iff.rfl

/-- Parts of a node that is drawn. -/
theorem drawn_of_all {form : Form} {span : Span} (own : (node form span parts).IsDrawn)
    (below : ∀ part ∈ parts, part.All IsDrawn) : ∀ part ∈ parts, part.IsDrawn (stops parts) := by
  intro part member
  cases part with
  | child role tree => exact ⟨own.1 role tree member, below _ member⟩
  | problem found skipped => trivial

/-- A node over parts that are drawn. -/
theorem all_isDrawn_node {form : Form} {span other : Span}
    (drawn : ∀ part ∈ parts, part.IsDrawn (stops parts))
    (spanned : span = (Part.hull? parts).getD other) : (node form span parts).All IsDrawn := by
  refine (all_node_iff form span parts).mpr ⟨⟨fun role tree member => (drawn _ member).1, ?_⟩, ?_⟩
  · rintro hull found
    rw [spanned, found]
    rfl
  · intro part member
    have own := drawn part member
    cases part with
    | child role tree => exact own.2
    | problem found skipped => trivial

/-- A node that holds a leaf. -/
theorem drawn_ofParts {form : Form} (drawn : ∀ part ∈ parts, part.IsDrawn (stops parts))
    (held : partsLeaves parts ≠ []) :
    ∀ part ∈ [Part.child role (.ofParts form parts)], part.IsDrawn places := by
  rw [List.forall_mem_singleton]
  exact ⟨.inl held, all_isDrawn_node drawn rfl⟩

/-! ### The span of a drawn tree -/

/-- A node that holds a leaf has the smallest span over its children. -/
theorem IsDrawn.hull {form : Form} {span : Span} (drawn : (node form span parts).IsDrawn)
    (held : partsLeaves parts ≠ []) : Part.hull? parts = some span := by
  obtain ⟨hull, found⟩ := Part.exists_hull held
  rw [drawn.2 hull found, found]

/-- A node reaches over its children. -/
theorem IsDrawn.child {form : Form} {span : Span} (drawn : (node form span parts).IsDrawn)
    {tree : Tree} (member : .child role tree ∈ parts) :
    tree.span.IsWithin span.start span.stop := by
  have listed := Part.mem_spans_iff.mpr ⟨role, tree, member, rfl⟩
  cases hull : Part.hull? parts with
  | none =>
    rw [Part.hull?] at hull
    cases shape : parts.filterMap Part.span? with
    | nil => rw [shape] at listed; cases listed
    | cons first rest => rw [shape] at hull; cases hull
  | some found =>
    rw [drawn.2 found hull]
    exact (Span.isWithin_hull_iff hull).mp ⟨Nat.le_refl _, Nat.le_refl _⟩ _ listed

/-- **A tree reaches over everything within it.** -/
theorem IsWithin.span {node tree : Tree} (within : node.IsWithin tree) (drawn : tree.All IsDrawn) :
    node.span.IsWithin tree.span.start tree.span.stop := by
  induction within with
  | here => exact ⟨Nat.le_refl _, Nat.le_refl _⟩
  | inside member _ previous =>
    obtain ⟨own, below⟩ := (all_node_iff _ _ _).mp drawn
    have outer := own.child member
    have inner := previous (below _ member)
    exact ⟨Nat.le_trans outer.1 inner.1, Nat.le_trans inner.2 outer.2⟩

mutual

/-- **A tree reaches over its leaves.** -/
theorem span_covers (tree : Tree) (drawn : tree.All IsDrawn) :
    ∀ leaf ∈ tree.leaves, leaf.span.IsWithin tree.span.start tree.span.stop := by
  cases tree with
  | leaf lexeme | cut lexeme skipped =>
    intro leaf member
    rw [List.mem_singleton.mp member]
    exact ⟨Nat.le_refl _, Nat.le_refl _⟩
  | node form span parts =>
    intro leaf member
    obtain ⟨own, below⟩ := (all_node_iff form span parts).mp drawn
    have hull := own.hull (List.ne_nil_of_mem member)
    have inside := (Span.isWithin_hull_iff hull).mp ⟨Nat.le_refl _, Nat.le_refl _⟩
    exact span_covers_parts parts below (fun role tree listed =>
      inside _ (Part.mem_spans_iff.mpr ⟨role, tree, listed, rfl⟩)) leaf member

theorem span_covers_parts (parts : List Part) (drawn : ∀ part ∈ parts, part.All IsDrawn)
    {low high : Nat}
    (inside : ∀ role tree, .child role tree ∈ parts → tree.span.IsWithin low high) :
    ∀ leaf ∈ partsLeaves parts, leaf.span.IsWithin low high := by
  match parts with
  | [] => exact fun leaf member => absurd member List.not_mem_nil
  | .problem found skipped :: rest =>
    exact span_covers_parts rest (List.forall_mem_cons.mp drawn).2
      fun role tree listed => inside role tree (List.mem_cons_of_mem _ listed)
  | .child role tree :: rest =>
    intro leaf member
    obtain ⟨own, behind⟩ := List.forall_mem_cons.mp drawn
    rcases List.mem_append.mp member with here | further
    · have outer := inside role tree List.mem_cons_self
      have inner := span_covers tree own leaf here
      exact ⟨Nat.le_trans outer.1 inner.1, Nat.le_trans inner.2 outer.2⟩
    · exact span_covers_parts rest behind
        (fun role tree listed => inside role tree (List.mem_cons_of_mem _ listed)) leaf further

end

mutual

/-- **A tree that holds a leaf reaches no further than its leaves.** -/
theorem span_within (tree : Tree) (drawn : tree.All IsDrawn) (held : tree.leaves ≠ [])
    {low high : Nat} (inside : ∀ leaf ∈ tree.leaves, leaf.span.IsWithin low high) :
    tree.span.IsWithin low high := by
  cases tree with
  | leaf lexeme | cut lexeme skipped => exact inside lexeme List.mem_cons_self
  | node form span parts =>
    obtain ⟨own, below⟩ := (all_node_iff form span parts).mp drawn
    refine (Span.isWithin_hull_iff (own.hull held)).mpr fun span listed => ?_
    obtain ⟨role, tree, member, rfl⟩ := Part.mem_spans_iff.mp listed
    rcases own.1 role tree member with some | ⟨place, behind, empty⟩
    · exact span_within_parts parts below inside role tree member some
    · obtain ⟨leaf, isLeaf, rfl⟩ := List.mem_map.mp behind
      obtain ⟨early, late⟩ := inside leaf isLeaf
      rw [empty]
      exact ⟨Nat.le_trans early (Nat.le_add_right _ _), late⟩

theorem span_within_parts (parts : List Part) (drawn : ∀ part ∈ parts, part.All IsDrawn)
    {low high : Nat} (inside : ∀ leaf ∈ partsLeaves parts, leaf.span.IsWithin low high) :
    ∀ role tree, .child role tree ∈ parts → tree.leaves ≠ [] → tree.span.IsWithin low high := by
  match parts with
  | [] => exact fun role tree member => absurd member List.not_mem_nil
  | .problem found skipped :: rest =>
    intro role tree member held
    refine span_within_parts rest (List.forall_mem_cons.mp drawn).2 inside role tree ?_ held
    simpa using member
  | .child own first :: rest =>
    intro role tree member held
    obtain ⟨here, behind⟩ := List.forall_mem_cons.mp drawn
    rcases List.mem_cons.mp member with same | further
    · cases same
      exact span_within first here held fun leaf early => inside leaf (List.mem_append_left _ early)
    · exact span_within_parts rest behind
        (fun leaf late => inside leaf (List.mem_append_right _ late)) role tree further held

end

end Tree

namespace Grammar

open Reader Cursor RSource.Tree

/-- Where an empty argument list may lie. -/
def Phrase.places : Phrase → List Part → List Nat
  | .arguments _ _ _ anchor _, _ | .contents _ _ anchor, _ => [anchor]
  | .head _ _, parts => stops parts
  | _, _ => []

/-- An argument list that holds no leaf lies at its anchor. -/
theorem drawn_listOf {role : Role} {anchor : Nat} {items : List Part}
    (drawn : ∀ part ∈ items, part.IsDrawn []) :
    ∀ part ∈ [Part.child role (listOf anchor items)], part.IsDrawn [anchor] := by
  rw [List.forall_mem_singleton]
  refine ⟨?_, all_isDrawn_node (drawn_anywhere drawn) rfl⟩
  by_cases held : partsLeaves items = []
  · refine .inr ⟨anchor, List.mem_cons_self, ?_⟩
    have none : items.filterMap Part.span? = [] := by
      rw [List.eq_nil_iff_forall_not_mem]
      intro span member
      obtain ⟨role, tree, listed, _⟩ := Part.mem_spans_iff.mp member
      exact partsLeaves_ne_nil drawn listed held
    rw [listOf, Tree.span, Part.hull?, none]
    rfl
  · exact .inl held

/-- An argument without a comma is the last one of its list. -/
theorem drawn_last {items item : List Part} (before : ∀ part ∈ items, part.IsDrawn [])
    (own : ∀ part ∈ item, part.IsDrawn []) (some : Part.anyChild item = true) :
    ∀ part ∈ items ++ [.child .argument (.ofParts .argument item)], part.IsDrawn [] := by
  obtain ⟨part, member, child⟩ := List.any_eq_true.mp some
  obtain ⟨role, tree, rfl⟩ : ∃ role tree, part = .child role tree := by
    cases part with
    | child role tree => exact ⟨role, tree, rfl⟩
    | problem found skipped => cases child
  exact List.forall_mem_append.mpr
    ⟨before, drawn_ofParts (drawn_anywhere own) (partsLeaves_ne_nil own member)⟩

@[simp] theorem isDrawn_leafAt {role : Role} {places : List Nat} (mode : Mode)
    (cursor : Cursor Lexeme) : (Part.child role (leafAt mode cursor)).IsDrawn places ↔ True :=
  isDrawn_leaf _

/-- **All trees that are read reach over their leaves.** -/
theorem Derives.drawn {phrase : Phrase} {mode : Mode} {first last : Cursor Lexeme}
    {parts : List Part} (run : Derives phrase mode first parts last) :
    ∀ part ∈ parts, part.IsDrawn (phrase.places parts) := by
  induction run with
  | found | present | atom => simp
  | missing | absent | cutNothing | noPrimary | unopened | noElse | itemsStart | listingStart
  | noOperand | noBody => simp
  | cutBracket | cutToken => simp
  | noExpression _ previous | expression _ _ previous | chainStart _ previous
  | operand _ previous | unsigned _ _ previous | noPostfixed _ previous
  | postfixed _ _ previous | suffixedStart _ previous | blockPrimary _ _ previous
  | constructPrimary _ _ _ previous | blockBody _ _ previous | unnamed _ _ previous
  | emptyFormal _ _ previous | noStatement _ previous | statements _ _ previous => exact previous
  | chainMore _ _ _ left right =>
    refine drawn_ofParts ?_ (by simp [leafAt])
    simpa using ⟨drawn_single left, drawn_anywhere right⟩
  | sign _ _ right =>
    refine drawn_ofParts ?_ (by simp [leafAt])
    simpa using drawn_anywhere right
  | call _ _ _ _ function list close =>
    refine drawn_ofParts ?_ (by simp [leafAt])
    simpa [or_imp, forall_and] using
      ⟨drawn_single function, drawn_mono list (by simp [Phrase.places, stops, leafAt]),
        drawn_anywhere close⟩
  | index _ _ _ _ _ target list close =>
    refine drawn_ofParts ?_ (by simp [leafAt])
    simpa [or_imp, forall_and] using
      ⟨drawn_single target, drawn_mono list (by simp [Phrase.places, stops, leafAt]),
        drawn_anywhere close⟩
  | access _ _ _ target right =>
    refine drawn_ofParts ?_ (by simp [leafAt])
    simpa using ⟨drawn_single target, drawn_anywhere right⟩
  | group _ _ _ inner close =>
    refine drawn_ofParts ?_ (by simp [leafAt])
    simpa [or_imp, forall_and] using ⟨drawn_anywhere inner, drawn_anywhere close⟩
  | ifElse _ _ _ _ top main other =>
    refine drawn_ofParts ?_ (by simp [leafAt])
    simpa [or_imp, forall_and] using
      ⟨drawn_mono top (by simp [Phrase.places, stops]), drawn_anywhere main, drawn_anywhere other⟩
  | headed _ _ _ _ top main =>
    refine drawn_ofParts ?_ (by simp [leafAt])
    simpa [or_imp, forall_and] using
      ⟨drawn_mono top (by simp [Phrase.places, stops]), drawn_anywhere main⟩
  | repeatLoop _ _ main =>
    refine drawn_ofParts ?_ (by simp [leafAt])
    simpa using drawn_anywhere main
  | word => exact drawn_ofParts (by simp) (by simp [leafAt])
  | opened _ _ inner =>
    simpa using drawn_mono inner (by simp [Phrase.places, stops, leafAt])
  | condition _ _ _ tested close =>
    simpa [or_imp, forall_and] using ⟨drawn_anywhere tested, drawn_anywhere close⟩
  | iteration _ _ _ _ counter link range close =>
    simpa [or_imp, forall_and] using
      ⟨drawn_anywhere counter, drawn_anywhere link, drawn_anywhere range, drawn_anywhere close⟩
  | formals _ _ list close =>
    simpa [or_imp, forall_and] using ⟨list, drawn_anywhere close⟩
  | simpleBody _ _ previous =>
    exact drawn_ofParts (drawn_anywhere previous) (partsLeaves_ne_nil previous List.mem_cons_self)
  | elseBranch _ _ other => simpa using drawn_anywhere other
  | itemsMore _ _ _ _ items item =>
    refine List.forall_mem_append.mpr ⟨items, drawn_ofParts ?_ (by simp [leafAt])⟩
    simpa [or_imp, forall_and] using drawn_anywhere item
  | closedList _ _ items => exact drawn_listOf items
  | lastItem _ _ _ _ some items item => exact drawn_listOf (drawn_last items item some)
  | noItem _ _ _ _ _ items item => exact drawn_listOf (List.forall_mem_append.mpr ⟨items, item⟩)
  | named _ _ value | formalDefault _ _ _ value => simpa using drawn_anywhere value
  | formal => simp
  | misplacedFormal _ _ _ value => simpa using drawn_anywhere value
  | statement _ _ expression semicolon =>
    refine drawn_ofParts ?_ ?_
    · exact List.forall_mem_cons.mpr ⟨drawn_single expression, drawn_anywhere semicolon⟩
    · have held := partsLeaves_ne_nil expression List.mem_cons_self
      simp only [partsLeaves_child, partsLeaves_nil, List.append_nil] at held ⊢
      exact List.append_ne_nil_of_left_ne_nil held _
  | block _ _ _ items close =>
    refine drawn_ofParts ?_ (by simp [leafAt])
    simpa [or_imp, forall_and] using ⟨drawn_anywhere items, drawn_anywhere close⟩
  | stray _ _ _ listing | unreadable _ _ _ _ listing _ =>
    simpa [or_imp, forall_and, Phrase.places] using listing
  | listed _ _ _ _ _ listing statement | crowded _ _ _ _ _ listing statement =>
    simpa [or_imp, forall_and] using ⟨listing, drawn_single statement⟩

end Grammar

open Grammar

/-- **Everything below the global scope of a text reaches over its leaves.** -/
theorem Reading.drawn {text : Text} {items : List Part} {last : Cursor Lexeme}
    (derivation : Derivation text items last) : ∀ part ∈ items, part.IsDrawn [] :=
  derivation.derives.drawn

/-- Everything below the global scope of a text lies in the text. -/
theorem Reading.span_le {text : Text} {items : List Part} {last : Cursor Lexeme}
    (derivation : Derivation text items last) :
    ∀ part ∈ items, part.All fun node => node.span.stop ≤ text.bytes := by
  intro part member
  have drawn := Reading.drawn derivation part member
  cases part with
  | problem found skipped => trivial
  | child role tree =>
    have inside : ∀ leaf ∈ tree.leaves, leaf.span.IsWithin 0 text.bytes := by
      intro leaf isLeaf
      have inTree : leaf ∈ (read text).tree.leaves := by
        rw [derivation.tree]
        exact (Tree.leaves_sublist_of_child member).subset isLeaf
      exact ⟨Nat.zero_le _, stop_le_of_mem_lexemes (mem_lexemes_of_mem_leaves inTree).1⟩
    have whole := Tree.span_within tree drawn.2 (Tree.isHeld_nil_iff.mp drawn.1) inside
    exact fun node within => Nat.le_trans (within.span drawn.2).2 whole.2

end RSource
