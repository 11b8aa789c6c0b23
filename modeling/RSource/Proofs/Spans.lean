/-
**Every node lies exactly over its tokens.**

The spans of a document's nodes are slices of the text, those of the children of a node lie one
behind the other inside the node's own, and a node begins with the first token below it and ends
with the last. Only the root and the global scope reach over the whole text, and an argument list
without arguments lies where the bracket in front of it ends. Main statement: `hasExactSpans_read`.
-/

import RSource.Proofs.Arena.Ownership
import RSource.Proofs.Grammar.Anchors
import RSource.Proofs.Text.Slices

namespace RSource

namespace Document

/-- The tokens at and below a node, in the order in which they are met. -/
def tokensBelow (document : Document) (id : NodeId) : List Token :=
  (document.preorder id).filterMap fun inner => (document.content inner).token?

/-- Whether the span of a node does not follow from tokens below it: the root, a global scope and an
argument list without arguments. -/
def isUnbound (document : Document) (id : NodeId) : Bool :=
  match document.content id with
  | .branch .root _ | .branch .globalScope _ => true
  | .branch .argumentList slots => slots.isEmpty
  | _ => false

/-- An argument list without arguments stands right behind the bracket that opens it, and is empty
where the bracket ends. -/
def FollowsBracket (document : Document) (id : NodeId) : Prop :=
  ∃ parent before opener opening role behind,
    (document.content parent).slots = before ++ (opener, opening) :: (role, id) :: behind
      ∧ opener.opensList = true ∧ document.span id = .empty (document.span opening).stop

/-- The spans of all nodes are those of their tokens. -/
structure HasExactSpans (document : Document) : Prop where
  /-- Each is a slice of the text. -/
  sliced : ∀ id < document.nodes.size, ∃ window, document.slice? id = some window
  /-- Children end before the next one begins. -/
  apart : ∀ id < document.nodes.size,
    ((document.children id).map document.span).Pairwise (·.stop ≤ ·.start)
  /-- Children lie inside their parent. -/
  nested : ∀ child parent, document.IsChildOf child parent →
    (document.span child).IsWithin (document.span parent).start (document.span parent).stop
  /-- A node begins with its first token and ends with its last. -/
  tight : ∀ id < document.nodes.size, document.isUnbound id = false →
    (document.tokensBelow id).head?.map (·.start) = some (document.span id).start
      ∧ (document.tokensBelow id).getLast?.map (·.stop) = some (document.span id).stop
  /-- A list without arguments is empty behind its bracket. -/
  bare : ∀ id < document.nodes.size, (document.content id).form? = some .argumentList →
    document.children id = [] → document.FollowsBracket id

end Document

/-! ### Trees -/

namespace Tree

/-- **A tree that holds a leaf begins with its first leaf and ends with its last.** -/
theorem span_eq {tree : Tree} (drawn : tree.All IsDrawn) (held : tree.leaves ≠ [])
    (apart : tree.leaves.Pairwise (·.stop ≤ ·.start)) :
    tree.leaves.head?.map (·.start) = some tree.span.start
      ∧ tree.leaves.getLast?.map (·.stop) = some tree.span.stop := by
  have covers := span_covers tree drawn
  constructor
  · obtain ⟨first, rest, shape⟩ := List.exists_cons_of_ne_nil held
    rw [shape, List.pairwise_cons] at apart
    rw [shape] at covers
    have early : first.start ≤ tree.span.start := by
      refine le_start_of_leaves drawn held fun leaf member => ?_
      rw [shape] at member
      rcases List.mem_cons.mp member with rfl | behind
      · exact Nat.le_refl _
      · exact Nat.le_trans (Nat.le_add_right _ _) (apart.1 leaf behind)
    rw [shape, List.head?_cons, Option.map_some,
      Nat.le_antisymm early (covers first List.mem_cons_self).1]
  · obtain ⟨front, last, shape⟩ := (List.eq_nil_or_concat' tree.leaves).resolve_left held
    rw [shape, List.pairwise_append] at apart
    have isLast : last ∈ front ++ [last] := List.mem_append_right _ List.mem_cons_self
    rw [shape] at covers
    have late : tree.span.stop ≤ last.stop := by
      refine stop_le_of_leaves drawn held fun leaf member => ?_
      rw [shape] at member
      rcases List.mem_append.mp member with before | own
      · exact Nat.le_trans (apart.2.2 leaf before last List.mem_cons_self) (Nat.le_add_right _ _)
      · rw [List.mem_singleton.mp own]
    rw [shape, List.getLast?_append, List.getLast?_singleton, Option.some_or, Option.map_some,
      Nat.le_antisymm late (covers last isLast).2]

end Tree

/-! ### What is shown -/

namespace Document

variable {document : Document} {id : NodeId}

/-- The slots of a node lie where the children of its tree lie. -/
theorem ShowsParts.spans {slots : List (Role × NodeId)} {parts : List Part}
    (shown : document.ShowsParts slots parts) :
    (slots.map (·.2)).map document.span = parts.filterMap Part.span? := by
  induction parts generalizing slots with
  | nil =>
    obtain rfl : slots = [] := shown
    rfl
  | cons part rest previous =>
    obtain ⟨others, here, behind⟩ := shown
    cases part with
    | child role tree =>
      obtain ⟨first, rfl, same⟩ := here
      rw [Part.spans_child, List.map_cons, List.map_cons, previous behind, same.span]
    | problem found skipped =>
      obtain rfl : slots = others := here
      exact previous behind

/-- The node in a slot holds a leaf, or is a list without arguments behind its bracket. -/
inductive Fills (document : Document) (role : Role) (id : NodeId) (slots : List (Role × NodeId))
    (parts : List Part) : Prop where
  | tree {tree : Tree} : .child role tree ∈ parts → document.Shows id tree → tree.leaves ≠ [] →
      Fills document role id slots parts
  | list {before behind : List (Role × NodeId)} {opener : Role} {opening : NodeId}
      {lexeme : Lexeme} {list : Tree} :
      slots = before ++ (opener, opening) :: (role, id) :: behind → opener.opensList = true →
      .child opener (.leaf lexeme) ∈ parts → document.Shows opening (.leaf lexeme) →
      document.Shows id list → list.IsEmptyList lexeme.stop → Fills document role id slots parts

theorem Fills.behind {role : Role} {slots : List (Role × NodeId)} {parts : List Part}
    (filled : document.Fills role id slots parts) (front : List (Role × NodeId))
    (earlier : List Part) : document.Fills role id (front ++ slots) (earlier ++ parts) := by
  cases filled with
  | tree inside shown held => exact .tree (List.mem_append_right _ inside) shown held
  | @list before behind opener opening _ _ same opens inside first second empty =>
    have further :
        front ++ slots = front ++ before ++ (opener, opening) :: (role, id) :: behind := by
      rw [same, List.append_assoc]
    exact .list further opens (List.mem_append_right _ inside) first second empty

/-- **Every slot is filled so.** -/
theorem ShowsParts.fills {slots : List (Role × NodeId)} {parts : List Part}
    (shown : document.ShowsParts slots parts) (anchored : Anchored parts) {role : Role}
    (member : (role, id) ∈ slots) : document.Fills role id slots parts := by
  induction anchored generalizing slots with
  | nil =>
    obtain rfl : slots = [] := shown
    exact absurd member List.not_mem_nil
  | @problem found skipped _ _ previous =>
    obtain ⟨others, rfl, behind⟩ := shown
    exact (previous behind member).behind [] [.problem found skipped]
  | @held own tree _ some _ previous =>
    obtain ⟨others, ⟨first, rfl, same⟩, behind⟩ := shown
    rcases List.mem_cons.mp member with here | further
    · cases here
      exact .tree List.mem_cons_self same some
    · exact (previous behind further).behind [(own, first)] [.child own tree]
  | @list opener own opening list _ opens empty _ previous =>
    obtain ⟨_, ⟨first, rfl, leaf⟩, _, ⟨second, rfl, same⟩, behind⟩ := shown
    rw [List.mem_cons, List.mem_cons] at member
    rcases member with here | here | further
    · cases here
      exact .tree List.mem_cons_self leaf (List.cons_ne_nil _ _)
    · cases here
      exact .list (List.nil_append _).symm opens List.mem_cons_self leaf same empty
    · exact (previous behind further).behind [(opener, first), (own, second)]
        [.child opener (.leaf opening), .child own list]

/-- A node without children shows a tree without leaves, unless it is a token. -/
theorem ShowsParts.leaves_eq_nil {parts : List Part} (shown : document.ShowsParts [] parts) :
    Tree.partsLeaves parts = [] := by
  rw [Tree.partsLeaves_eq_flatMap, List.flatMap_eq_nil_iff]
  intro part member
  cases part with
  | problem found skipped => rfl
  | child role tree =>
    obtain ⟨_, inNone, _⟩ := shown.exists_of_child member
    cases inNone

/-- An empty list has no children, and lies at its place. -/
theorem Shows.emptyList {tree : Tree} {place : Nat} (shown : document.Shows id tree)
    (empty : tree.IsEmptyList place) :
    document.content id = .branch .argumentList [] ∧ document.span id = .empty place := by
  obtain ⟨items, rfl, bare⟩ := empty
  obtain ⟨slots, content, span, filled⟩ := shown
  have none : slots = [] := by
    rw [List.eq_nil_iff_forall_not_mem]
    rintro ⟨role, child⟩ member
    obtain ⟨tree, inside, _⟩ := filled.exists_of_slot member
    cases bare _ inside
  rw [none] at content
  exact ⟨content, span⟩

/-! ### Tokens below a node -/

/-- Below the root every child has a smaller number than its parent, and is not the root. -/
def IsDescending (document : Document) : Prop :=
  ∀ parent, parent ≠ root → ∀ child, document.IsChildOf child parent → root < child ∧ child < parent

mutual

/-- **The tokens below a node are those of the leaves of its tree.** -/
theorem Shows.tokens (descending : document.IsDescending) {id : NodeId} {bound : Nat}
    (tree : Tree) (shown : document.Shows id tree) (behind : root < id) (enough : id < bound) :
    ((document.preorderWithin bound id).filterMap fun inner => (document.content inner).token?)
      = tree.leaves.map (·.token) := by
  obtain ⟨bound, rfl⟩ := Nat.exists_eq_succ_of_ne_zero (Nat.ne_of_gt (Nat.lt_of_le_of_lt
    (Nat.zero_le _) enough))
  cases tree with
  | leaf lexeme | cut lexeme skipped =>
    rw [preorderWithin, children_eq_nil shown.1, List.flatMap_nil, List.filterMap_cons, shown.1]
    rfl
  | node form span parts =>
    obtain ⟨slots, content, _, filled⟩ := shown
    have own : document.children id = slots.map (·.2) := by
      rw [children, content]
      rfl
    have inside : ∀ slot ∈ slots, root < slot.2 ∧ slot.2 < bound := by
      intro slot member
      have child : document.IsChildOf slot.2 id := by
        rw [IsChildOf, own]
        exact List.mem_map_of_mem member
      obtain ⟨notRoot, before⟩ := descending id (Nat.ne_of_gt behind) _ child
      exact ⟨notRoot, Nat.lt_of_lt_of_le before (Nat.le_of_lt_succ enough)⟩
    rw [preorderWithin, List.filterMap_cons_none (by rw [content]; rfl), own]
    exact ShowsParts.tokens descending parts filled inside

theorem ShowsParts.tokens (descending : document.IsDescending) {slots : List (Role × NodeId)}
    {bound : Nat} (parts : List Part) (shown : document.ShowsParts slots parts)
    (inside : ∀ slot ∈ slots, root < slot.2 ∧ slot.2 < bound) :
    (((slots.map (·.2)).flatMap (document.preorderWithin bound)).filterMap
        fun inner => (document.content inner).token?)
      = (Tree.partsLeaves parts).map (·.token) := by
  match parts with
  | [] =>
    obtain rfl : slots = [] := shown
    rfl
  | .problem found skipped :: rest =>
    obtain ⟨_, rfl, filled⟩ := shown
    exact ShowsParts.tokens descending rest filled inside
  | .child role tree :: rest =>
    obtain ⟨_, ⟨first, rfl, same⟩, filled⟩ := shown
    obtain ⟨here, others⟩ := List.forall_mem_cons.mp inside
    rw [List.map_cons, List.flatMap_cons, List.filterMap_append,
      Shows.tokens descending tree same here.1 here.2,
      ShowsParts.tokens descending rest filled others, Tree.partsLeaves_child, List.map_append]

end

end Document

/-! ### Documents that were read -/

namespace Reading

open Document

theorem isDescending (reading : Reading) : reading.document.IsDescending :=
  fun _ notRoot _ listed => ⟨(child_inside listed).1, reading.child_lt notRoot listed⟩

variable {text : Text}

/-- The children of every node of a text stand one behind the other. -/
theorem anchored (text : Text) : (read text).tree.All Tree.IsAnchored := by
  obtain ⟨items, last, derivation⟩ := Reading.derivation text
  rw [derivation.tree, Tree.all_node_iff]
  exact ⟨.of_drawn derivation.derives.drawn, derivation.derives.anchored⟩

/-- A node of a text is the global scope or reaches over its children. -/
theorem eq_or_drawn {node : Tree} (within : node.IsWithin (read text).tree) :
    node = (read text).tree ∨ node.All Tree.IsDrawn := by
  obtain ⟨items, last, derivation⟩ := Reading.derivation text
  rw [derivation.tree] at within ⊢
  cases within with
  | here => exact .inl rfl
  | inside member inner => exact .inr (inner.all (derivation.derives.drawn _ member).2)

theorem drawn_parts {form : Form} {span : Span} {parts : List Part}
    (within : (Tree.node form span parts).IsWithin (read text).tree) :
    ∀ part ∈ parts, part.All Tree.IsDrawn := by
  rcases eq_or_drawn within with same | drawn
  · obtain ⟨items, last, derivation⟩ := Reading.derivation text
    rw [derivation.tree] at same
    cases same
    intro part member
    have own := derivation.derives.drawn part member
    cases part with
    | child role tree => exact own.2
    | problem found skipped => trivial
  · exact ((Tree.all_node_iff form span parts).mp drawn).2

theorem leaves_apart {node : Tree} (within : node.IsWithin (read text).tree) :
    node.leaves.Pairwise (·.stop ≤ ·.start) :=
  (((lexemes_apart text).sublist (significant_sublist text)).sublist
    (keeps_significant text).sublist).sublist
    ((within.leaves_sublist).trans (Tree.leaves_sublist _))

theorem span_tree : (read text).tree.span = ⟨0, text.bytes⟩ := by
  obtain ⟨items, last, derivation⟩ := Reading.derivation text
  rw [derivation.tree]
  rfl

/-- The node of the global scope. -/
theorem span_globalScope :
    (read text).document.span ((read text).stored.size - 1) = ⟨0, text.bytes⟩ := by
  rw [(read text).shows_document.1.span, span_tree]

theorem content_globalScope :
    ∃ slots, (read text).document.content ((read text).stored.size - 1)
      = .branch .globalScope slots := by
  obtain ⟨items, last, derivation⟩ := Reading.derivation text
  have shown := (read text).shows_document.1
  rw [derivation.tree] at shown
  obtain ⟨slots, content, _⟩ := shown
  exact ⟨slots, content⟩

theorem isUnbound_root : (read text).document.isUnbound Document.root = true := by
  rw [isUnbound, content_document, if_pos rfl]

theorem isUnbound_globalScope :
    (read text).document.isUnbound ((read text).stored.size - 1) = true := by
  obtain ⟨slots, content⟩ := @content_globalScope text
  rw [isUnbound, content]

/-- **A node below the global scope holds a token, or is an empty list behind its bracket.** -/
theorem holds_or_follows {id : NodeId} (behind : 0 < id)
    (inside : id < (read text).stored.size - 1) :
    (∃ node : Tree, node.IsWithin (read text).tree ∧ node.All Tree.IsDrawn ∧ node.leaves ≠ []
        ∧ (read text).document.Shows id node)
      ∨ ∃ opening ∈ (read text).tree.leaves,
          (read text).document.content id = .branch .argumentList []
            ∧ (read text).document.span id = .empty opening.stop
            ∧ (read text).document.FollowsBracket id := by
  have whole : id < (read text).document.nodes.size := by
    rw [size_document]
    exact Nat.lt_of_lt_of_le inside (Nat.sub_le _ _)
  obtain ⟨parent, listed⟩ := (read text).exists_parent behind whole
  have notRoot : parent ≠ Document.root := by
    rintro rfl
    rw [IsChildOf, children_root, List.mem_singleton] at listed
    exact absurd listed (Nat.ne_of_lt inside)
  have outer := parent_inside listed
  rw [size_document] at outer
  obtain ⟨node, within, shown⟩ := (read text).exists_shown (Nat.pos_of_ne_zero notRoot) outer
  cases node with
  | leaf lexeme | cut lexeme skipped =>
    rw [IsChildOf, children_eq_nil shown.1] at listed
    cases listed
  | node form span parts =>
    obtain ⟨slots, content, _, filled⟩ := shown
    rw [IsChildOf, children, content] at listed
    obtain ⟨⟨role, _⟩, slot, rfl⟩ := List.mem_map.mp listed
    have stands : Anchored parts := anchored text _ within
    cases filled.fills stands slot with
    | @tree tree child same held =>
      exact .inl ⟨tree, .trans (.inside child .here) within, drawn_parts within _ child, held, same⟩
    | @list before behind opener opening lexeme list same opens child first second empty =>
      obtain ⟨bare, span⟩ := second.emptyList empty
      have leaf : lexeme ∈ (read text).tree.leaves := by
        refine within.leaves_sublist.subset ?_
        exact (Tree.leaves_sublist_of_child child).subset List.mem_cons_self
      refine .inr ⟨lexeme, leaf, bare, span, parent, before, opener, opening, role, behind, ?_,
        opens, ?_⟩
      · rw [content, ← same]
        rfl
      · rw [span, first.span]
        rfl

/-- A token ends between two characters. -/
theorem isBoundary_of_mem_leaves {leaf : Lexeme} (member : leaf ∈ (read text).tree.leaves) :
    text.IsBoundary leaf.start ∧ text.IsBoundary leaf.stop := by
  obtain ⟨before, behind, shape, start⟩ :=
    exists_of_mem_lexemes (mem_lexemes_of_mem_leaves member).1
  refine ⟨⟨before, leaf.text ++ behind, ?_, start⟩, before ++ leaf.text, behind, shape, ?_⟩
  · rw [shape, List.append_assoc]
  · rw [Lexeme.stop, start, Text.bytes_append]

/-- A node is the root, the global scope or below it. -/
theorem root_or_scope_or_below {id : NodeId} (inside : id < (read text).document.nodes.size) :
    id = Document.root ∨ id = (read text).stored.size - 1
      ∨ 0 < id ∧ id < (read text).stored.size - 1 := by
  rw [size_document] at inside
  obtain root | behind := Nat.eq_zero_or_pos id
  · exact .inl root
  obtain before | scope := Nat.lt_or_eq_of_le (Nat.le_sub_one_of_lt inside)
  · exact .inr (.inr ⟨behind, before⟩)
  · exact .inr (.inl scope)

/-! ### The parts of the main statement -/

theorem sliced {id : NodeId} (inside : id < (read text).document.nodes.size) :
    ∃ window, (read text).document.slice? id = some window := by
  have whole : ∃ window, text.slice? 0 text.bytes = some window :=
    Text.exists_slice (Text.isBoundary_zero text) (Text.isBoundary_bytes text) (Nat.zero_le _)
  unfold Document.slice?
  rcases root_or_scope_or_below inside with rfl | rfl | ⟨behind, before⟩
  · rwa [span_root]
  · rwa [span_globalScope]
  rcases holds_or_follows behind before with
    ⟨node, within, drawn, held, shown⟩ | ⟨opening, leaf, _, span, _⟩
  · rw [shown.span]
    obtain ⟨first, last⟩ := Tree.span_eq drawn held (leaves_apart within)
    obtain ⟨early, isFirst, start⟩ := Option.map_eq_some_iff.mp first
    obtain ⟨late, isLast, stop⟩ := Option.map_eq_some_iff.mp last
    have member := within.leaves_sublist.subset (List.mem_of_mem_head? isFirst)
    have ordered := (Tree.span_covers node drawn late (List.mem_of_getLast? isLast)).1
    rw [← start] at ordered
    rw [← start, ← stop]
    exact Text.exists_slice (isBoundary_of_mem_leaves member).1
      (isBoundary_of_mem_leaves (within.leaves_sublist.subset (List.mem_of_getLast? isLast))).2
      (Nat.le_trans ordered (Nat.le_add_right _ _))
  · rw [span]
    have stop := (isBoundary_of_mem_leaves leaf).2
    exact Text.exists_slice stop stop (Nat.le_refl _)

theorem apart {id : NodeId} (inside : id < (read text).document.nodes.size) :
    (((read text).document.children id).map (read text).document.span).Pairwise
      (·.stop ≤ ·.start) := by
  obtain root | behind := Nat.eq_zero_or_pos id
  · subst root
    rw [show (read text).document.children 0 = _ from children_root (read text)]
    exact List.pairwise_singleton _ _
  rw [size_document] at inside
  obtain ⟨node, within, shown⟩ := (read text).exists_shown behind inside
  cases node with
  | leaf lexeme | cut lexeme skipped =>
    rw [children_eq_nil shown.1]
    exact .nil
  | node form span parts =>
    obtain ⟨slots, content, _, filled⟩ := shown
    have listed : (read text).document.children id = slots.map (·.2) := by
      rw [children, content]
      rfl
    have stands : Anchored parts := anchored text _ within
    rw [listed, filled.spans]
    exact Tree.spans_apart stands (drawn_parts within) (leaves_apart within)

theorem nested {child parent : NodeId} (listed : (read text).document.IsChildOf child parent) :
    ((read text).document.span child).IsWithin ((read text).document.span parent).start
      ((read text).document.span parent).stop := by
  obtain root | behind := Nat.eq_zero_or_pos parent
  · subst root
    rw [IsChildOf, show (read text).document.children 0 = _ from children_root (read text),
      List.mem_singleton] at listed
    rw [listed, span_globalScope, show (read text).document.span 0 = _ from span_root (read text)]
    exact ⟨Nat.le_refl _, Nat.le_refl _⟩
  have outer := parent_inside listed
  rw [size_document] at outer
  obtain ⟨node, within, shown⟩ := (read text).exists_shown behind outer
  cases node with
  | leaf lexeme | cut lexeme skipped =>
    rw [IsChildOf, children_eq_nil shown.1] at listed
    cases listed
  | node form span parts =>
    have own := shown.span
    obtain ⟨slots, content, _, filled⟩ := shown
    rw [IsChildOf, children, content] at listed
    obtain ⟨⟨role, _⟩, slot, rfl⟩ := List.mem_map.mp listed
    obtain ⟨tree, inside, same⟩ := filled.exists_of_slot slot
    rw [own, same.span]
    rcases eq_or_drawn within with scope | drawn
    · obtain ⟨items, last, derivation⟩ := Reading.derivation text
      rw [scope, span_tree]
      rw [derivation.tree] at scope
      cases scope
      exact ⟨Nat.zero_le _, Reading.span_le derivation _ inside _ .here⟩
    · exact (drawn _ .here).child inside

theorem tight {id : NodeId} (inside : id < (read text).document.nodes.size)
    (bound : (read text).document.isUnbound id = false) :
    ((read text).document.tokensBelow id).head?.map (·.start)
        = some ((read text).document.span id).start
      ∧ ((read text).document.tokensBelow id).getLast?.map (·.stop)
        = some ((read text).document.span id).stop := by
  rcases root_or_scope_or_below inside with rfl | rfl | ⟨behind, before⟩
  · rw [isUnbound_root] at bound
    cases bound
  · rw [isUnbound_globalScope] at bound
    cases bound
  rcases holds_or_follows behind before with
    ⟨node, within, drawn, held, shown⟩ | ⟨opening, _, content, _⟩
  · have tokens : (read text).document.tokensBelow id = node.leaves.map (·.token) :=
      Shows.tokens (read text).isDescending node shown behind inside
    obtain ⟨first, last⟩ := Tree.span_eq drawn held (leaves_apart within)
    rw [tokens, shown.span, List.head?_map, List.getLast?_map, Option.map_map, Option.map_map]
    exact ⟨first, last⟩
  · rw [isUnbound, content] at bound
    cases bound

theorem bare {id : NodeId} (inside : id < (read text).document.nodes.size)
    (list : ((read text).document.content id).form? = some .argumentList)
    (none : (read text).document.children id = []) : (read text).document.FollowsBracket id := by
  rcases root_or_scope_or_below inside with rfl | rfl | ⟨behind, before⟩
  · rw [content_document, if_pos rfl] at list
    cases list
  · obtain ⟨slots, content⟩ := @content_globalScope text
    rw [content] at list
    cases list
  rcases holds_or_follows behind before with
    ⟨node, _, _, held, shown⟩ | ⟨_, _, _, _, follows⟩
  · cases node with
    | leaf lexeme | cut lexeme skipped =>
      rw [shown.1] at list
      cases list
    | node form span parts =>
      obtain ⟨slots, content, _, filled⟩ := shown
      rw [children, content] at none
      obtain rfl : slots = [] := List.map_eq_nil_iff.mp none
      exact absurd filled.leaves_eq_nil held
  · exact follows

end Reading

/-- **Every node of every text lies exactly over its tokens.** -/
theorem hasExactSpans_read (text : Text) : (read text).document.HasExactSpans where
  sliced _ := Reading.sliced
  apart _ := Reading.apart
  nested _ _ := Reading.nested
  tight _ := Reading.tight
  bare _ := Reading.bare

end RSource
