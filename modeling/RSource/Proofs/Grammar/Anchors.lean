/-
**Children stand one behind the other.**

Every child of a node holds a token, but for an argument list without arguments: that one stands
right behind the bracket that opens it, and lies where the bracket ends (`Anchored`). So the spans
of children never overlap: `Tree.spans_apart`. Main statement: `Derives.anchored`, this holds of
every node that is read.
-/

import RSource.Proofs.Grammar.Extent

namespace RSource

/-- The roles of brackets that open an argument list. -/
def Role.opensList : Role → Bool
  | openBrace | openBracket => true
  | _ => false

/-- An argument list without arguments that lies at an offset. -/
def Tree.IsEmptyList (place : Nat) (tree : Tree) : Prop :=
  ∃ items, tree = .node .argumentList (.empty place) items ∧ ∀ part ∈ items, part.span? = none

/-- Parts whose children hold a leaf, or are an empty argument list behind its bracket. -/
inductive Anchored : List Part → Prop where
  | nil : Anchored []
  | problem {found : Problem} {skipped : List Lexeme} {rest : List Part} : Anchored rest →
      Anchored (.problem found skipped :: rest)
  | held {role : Role} {tree : Tree} {rest : List Part} : tree.leaves ≠ [] → Anchored rest →
      Anchored (.child role tree :: rest)
  | list {opener role : Role} {opening : Lexeme} {tree : Tree} {rest : List Part} :
      opener.opensList = true → tree.IsEmptyList opening.stop → Anchored rest →
      Anchored (.child opener (.leaf opening) :: .child role tree :: rest)

namespace Anchored

variable {left right parts : List Part}

theorem append (before : Anchored left) (behind : Anchored right) : Anchored (left ++ right) := by
  induction before with
  | nil => exact behind
  | problem _ previous => exact .problem previous
  | held some _ previous => exact .held some previous
  | list opener empty _ previous => exact .list opener empty previous

theorem leaf {role : Role} (lexeme : Lexeme) (behind : Anchored parts) :
    Anchored (.child role (.leaf lexeme) :: parts) := .held (List.cons_ne_nil _ _) behind

/-- Parts that hold leaves wherever they stand. -/
theorem of_drawn (drawn : ∀ part ∈ parts, part.IsDrawn []) : Anchored parts := by
  induction parts with
  | nil => exact .nil
  | cons part rest previous =>
    rw [List.forall_mem_cons] at drawn
    cases part with
    | child role tree => exact .held (Tree.isHeld_nil_iff.mp drawn.1.1) (previous drawn.2)
    | problem found skipped => exact .problem (previous drawn.2)

/-- A tree that was read in one role stands in another. -/
theorem single {role other : Role} {tree : Tree}
    (drawn : ∀ part ∈ [Part.child role tree], part.IsDrawn []) (behind : Anchored parts) :
    Anchored (.child other tree :: parts) := by
  rw [List.forall_mem_singleton] at drawn
  exact .held (Tree.isHeld_nil_iff.mp drawn.1) behind

end Anchored

/-- The children of a node stand one behind the other. -/
def Tree.IsAnchored : Tree → Prop
  | .node _ _ parts => Anchored parts
  | _ => True

namespace Tree

/-! ### The spans of children -/

/-- A child ends before everything that its leaves end before. -/
theorem stop_le_of_leaves {tree : Tree} (drawn : tree.All IsDrawn) (held : tree.leaves ≠ [])
    {high : Nat} (before : ∀ leaf ∈ tree.leaves, leaf.stop ≤ high) : tree.span.stop ≤ high :=
  (span_within tree drawn held fun leaf member =>
    ⟨(span_covers tree drawn leaf member).1, before leaf member⟩).2

theorem le_start_of_leaves {tree : Tree} (drawn : tree.All IsDrawn) (held : tree.leaves ≠ [])
    {low : Nat} (behind : ∀ leaf ∈ tree.leaves, low ≤ leaf.start) : low ≤ tree.span.start :=
  (span_within tree drawn held fun leaf member =>
    ⟨behind leaf member, (span_covers tree drawn leaf member).2⟩).1

/-- Children begin behind everything that the leaves begin behind. -/
theorem le_start_of_anchored {parts : List Part} (anchored : Anchored parts)
    (drawn : ∀ part ∈ parts, part.All IsDrawn) {low : Nat}
    (behind : ∀ leaf ∈ partsLeaves parts, low ≤ leaf.start) :
    ∀ span ∈ parts.filterMap Part.span?, low ≤ span.start := by
  induction anchored with
  | nil => nofun
  | problem _ previous => exact previous (List.forall_mem_cons.mp drawn).2 behind
  | @held role tree rest some _ previous =>
    obtain ⟨own, others⟩ := List.forall_mem_cons.mp drawn
    rw [partsLeaves_child, List.forall_mem_append] at behind
    rw [Part.spans_child, List.forall_mem_cons]
    exact ⟨le_start_of_leaves own some behind.1, previous others behind.2⟩
  | @list opener role opening tree rest _ empty _ previous =>
    obtain ⟨_, _, others⟩ := List.forall_mem_cons.mp drawn |>.imp_right List.forall_mem_cons.mp
    obtain ⟨items, rfl, bare⟩ := empty
    rw [partsLeaves_child, leaves_leaf, List.singleton_append, List.forall_mem_cons,
      partsLeaves_child, List.forall_mem_append] at behind
    rw [Part.spans_child, Part.spans_child, List.forall_mem_cons, List.forall_mem_cons]
    exact ⟨behind.1, Nat.le_trans behind.1 (Nat.le_add_right _ _), previous others behind.2.2⟩

/-- **The spans of children do not overlap.** -/
theorem spans_apart {parts : List Part} (anchored : Anchored parts)
    (drawn : ∀ part ∈ parts, part.All IsDrawn)
    (apart : (partsLeaves parts).Pairwise (·.stop ≤ ·.start)) :
    (parts.filterMap Part.span?).Pairwise (·.stop ≤ ·.start) := by
  induction anchored with
  | nil => exact .nil
  | problem _ previous => exact previous (List.forall_mem_cons.mp drawn).2 apart
  | @held role tree rest some anchored previous =>
    obtain ⟨own, others⟩ := List.forall_mem_cons.mp drawn
    rw [partsLeaves_child, List.pairwise_append] at apart
    obtain ⟨_, further, between⟩ := apart
    rw [Part.spans_child, List.pairwise_cons]
    refine ⟨le_start_of_anchored anchored others fun leaf late => ?_, previous others further⟩
    exact stop_le_of_leaves own some fun early member => between early member leaf late
  | @list opener role opening tree rest _ empty anchored previous =>
    obtain ⟨_, _, others⟩ := List.forall_mem_cons.mp drawn |>.imp_right List.forall_mem_cons.mp
    obtain ⟨items, rfl, bare⟩ := empty
    rw [partsLeaves_child, leaves_leaf, List.singleton_append, List.pairwise_cons,
      partsLeaves_child, List.forall_mem_append, List.pairwise_append] at apart
    have behind := le_start_of_anchored anchored others apart.1.2
    rw [Part.spans_child, Part.spans_child, List.pairwise_cons, List.pairwise_cons,
      List.forall_mem_cons]
    exact ⟨⟨Nat.le_refl _, behind⟩, behind, previous others apart.2.2.1⟩

end Tree

namespace Grammar

open RSource.Tree

/-- An argument list has arguments or lies at its anchor. -/
theorem Derives.exists_listOf {style : ArgumentStyle} {delimiter : Delimiter} {levels anchor : Nat}
    {role : Role} {mode : Mode} {first last : Cursor Lexeme} {parts : List Part}
    (run : Derives (.arguments style delimiter levels anchor role) mode first parts last) :
    ∃ items, parts = [.child role (listOf anchor items)] := by
  cases run <;> exact ⟨_, rfl⟩

theorem Derives.anchored_list {style : ArgumentStyle} {delimiter : Delimiter} {levels : Nat}
    {role opener : Role} {mode : Mode} {first last : Cursor Lexeme} {list behind : List Part}
    {opening : Lexeme} (opens : opener.opensList = true)
    (run : Derives (.arguments style delimiter levels opening.stop role) mode first list last)
    (others : Anchored behind) : Anchored (.child opener (.leaf opening) :: (list ++ behind)) := by
  have drawn := run.drawn
  obtain ⟨items, rfl⟩ := run.exists_listOf
  rw [List.forall_mem_singleton] at drawn
  by_cases held : partsLeaves items = []
  · refine .list opens ⟨items, ?_, ?_⟩ others
    · rcases drawn.1 with some | ⟨place, member, span⟩
      · exact absurd held some
      · rw [List.mem_singleton.mp member] at span
        exact congrArg (Tree.node _ · _) span
    · obtain ⟨own, _⟩ := (all_node_iff _ _ _).mp drawn.2
      intro part member
      cases part with
      | problem found skipped => rfl
      | child role tree =>
        rcases own.1 role tree member with some | ⟨place, inStops, _⟩
        · exact absurd (leaves_sublist_of_child member) (by rw [held]; simpa using some)
        · rw [stops, held] at inStops
          cases inStops
  · exact .leaf opening (.held held others)

/-- The head of a construct. -/
theorem Derives.anchored_head {construct : Construct} {levels : Nat} {mode : Mode}
    {first last : Cursor Lexeme} {parts : List Part}
    (run : Derives (.head construct levels) mode first parts last) : Anchored parts := by
  cases run with
  | unopened _ => exact .problem .nil
  | opened _ contents =>
    cases contents with
    | condition _ tested close =>
      exact .leaf _ ((Anchored.of_drawn tested.drawn).append (.of_drawn close.drawn))
    | iteration counter link range close =>
      have front := ((Anchored.of_drawn counter.drawn).append (.of_drawn link.drawn)).append
        (.of_drawn range.drawn)
      exact .leaf _ (front.append (.of_drawn close.drawn))
    | formals list close => exact list.anchored_list rfl (.of_drawn close.drawn)

/-- A node with such parts. -/
theorem anchored_ofParts {role : Role} {form : Form} {parts : List Part} (own : Anchored parts)
    (below : ∀ part ∈ parts, part.All Tree.IsAnchored) :
    ∀ part ∈ [Part.child role (.ofParts form parts)], part.All Tree.IsAnchored := by
  rw [List.forall_mem_singleton]
  exact (all_ofParts_iff form parts).mpr ⟨own, below⟩

theorem anchored_listOf {role : Role} {anchor : Nat} {items : List Part}
    (drawn : ∀ part ∈ items, part.IsDrawn []) (below : ∀ part ∈ items, part.All Tree.IsAnchored) :
    ∀ part ∈ [Part.child role (listOf anchor items)], part.All Tree.IsAnchored := by
  rw [List.forall_mem_singleton]
  exact (all_node_iff _ _ _).mpr ⟨.of_drawn drawn, below⟩

@[simp] theorem all_isAnchored_leafAt (mode : Mode) (cursor : Cursor Lexeme) :
    (leafAt mode cursor).All Tree.IsAnchored := (all_leaf_iff _).mpr trivial

/-- **The children of every node that is read stand one behind the other.** -/
theorem Derives.anchored {phrase : Phrase} {mode : Mode} {first last : Cursor Lexeme}
    {parts : List Part} (run : Derives phrase mode first parts last) :
    ∀ part ∈ parts, part.All Tree.IsAnchored := by
  induction run with
  | found | present | atom => simp
  | missing | absent | cutNothing | noPrimary | unopened | noElse | itemsStart | listingStart
  | noOperand | noBody => simp
  | cutBracket | cutToken => simp [Tree.IsAnchored]
  | noExpression _ previous | expression _ _ previous | chainStart _ previous
  | operand _ previous | unsigned _ _ previous | noPostfixed _ previous
  | postfixed _ _ previous | suffixedStart _ previous | blockPrimary _ _ previous
  | constructPrimary _ _ _ previous | blockBody _ _ previous | unnamed _ _ previous
  | emptyFormal _ _ previous | noStatement _ previous | statements _ _ previous => exact previous
  | chainMore inLeft _ inRight left right =>
    refine anchored_ofParts (.single inLeft.drawn (.leaf _ (.of_drawn inRight.drawn))) ?_
    simpa using ⟨all_of_single left, right⟩
  | sign _ inRight right =>
    refine anchored_ofParts (.leaf _ (.of_drawn inRight.drawn)) ?_
    simpa using right
  | call inFunction _ inList inClose function list close =>
    refine anchored_ofParts
      (.single inFunction.drawn (inList.anchored_list rfl (.of_drawn inClose.drawn))) ?_
    simpa [or_imp, forall_and] using ⟨all_of_single function, list, close⟩
  | index inTarget _ _ inList inClose target list close =>
    refine anchored_ofParts
      (.single inTarget.drawn (inList.anchored_list rfl (.of_drawn inClose.drawn))) ?_
    simpa [or_imp, forall_and] using ⟨all_of_single target, list, close⟩
  | access inTarget _ inRight target right =>
    refine anchored_ofParts (.single inTarget.drawn (.leaf _ (.of_drawn inRight.drawn))) ?_
    simpa using ⟨all_of_single target, right⟩
  | group _ inInner inClose inner close =>
    refine anchored_ofParts
      (.leaf _ ((Anchored.of_drawn inInner.drawn).append (.of_drawn inClose.drawn))) ?_
    simpa [or_imp, forall_and] using ⟨inner, close⟩
  | ifElse _ inTop inMain inOther top main other =>
    refine anchored_ofParts (.leaf _ ((inTop.anchored_head.append (.of_drawn inMain.drawn)).append
      (.of_drawn inOther.drawn))) ?_
    simpa [or_imp, forall_and] using ⟨top, main, other⟩
  | headed _ _ inTop inMain top main =>
    refine anchored_ofParts (.leaf _ (inTop.anchored_head.append (.of_drawn inMain.drawn))) ?_
    simpa [or_imp, forall_and] using ⟨top, main⟩
  | repeatLoop _ inMain main =>
    refine anchored_ofParts (.leaf _ (.of_drawn inMain.drawn)) ?_
    simpa using main
  | word => exact anchored_ofParts (.leaf _ .nil) (by simp)
  | opened _ _ inner => simpa using inner
  | condition _ _ _ tested close => simpa [or_imp, forall_and] using ⟨tested, close⟩
  | iteration _ _ _ _ counter link range close =>
    simpa [or_imp, forall_and] using ⟨counter, link, range, close⟩
  | formals _ _ list close => simpa [or_imp, forall_and] using ⟨list, close⟩
  | simpleBody _ inStatement previous =>
    exact anchored_ofParts (.single inStatement.drawn .nil) (by simpa using previous)
  | elseBranch _ _ other => simpa using other
  | itemsMore _ _ inItem _ items item =>
    refine List.forall_mem_append.mpr ⟨items, anchored_ofParts
      ((Anchored.of_drawn inItem.drawn).append (.leaf _ .nil)) ?_⟩
    simpa [or_imp, forall_and] using item
  | closedList inItems _ items => exact anchored_listOf inItems.drawn items
  | lastItem inItems _ inItem _ some items item =>
    exact anchored_listOf (drawn_last inItems.drawn inItem.drawn some)
      (List.forall_mem_append.mpr ⟨items, anchored_ofParts (.of_drawn inItem.drawn) item⟩)
  | noItem inItems _ inItem _ _ items item =>
    exact anchored_listOf (List.forall_mem_append.mpr ⟨inItems.drawn, inItem.drawn⟩)
      (List.forall_mem_append.mpr ⟨items, item⟩)
  | named _ _ value | formalDefault _ _ _ value => simpa using value
  | formal => simp
  | misplacedFormal _ _ _ value => simpa using value
  | statement inExpression inSemicolon expression semicolon =>
    refine anchored_ofParts (.single inExpression.drawn (.of_drawn inSemicolon.drawn)) ?_
    exact List.forall_mem_cons.mpr ⟨all_of_single expression, semicolon⟩
  | block _ inItems inClose items close =>
    refine anchored_ofParts
      (.leaf _ ((Anchored.of_drawn inItems.drawn).append (.of_drawn inClose.drawn))) ?_
    simpa [or_imp, forall_and] using ⟨items, close⟩
  | stray _ _ _ listing | unreadable _ _ _ _ listing _ =>
    simpa [or_imp, forall_and] using listing
  | listed _ _ _ _ _ listing statement | crowded _ _ _ _ _ listing statement =>
    simpa [or_imp, forall_and] using ⟨listing, all_of_single statement⟩

end Grammar

end RSource
