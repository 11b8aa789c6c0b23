/-
**The grouping of a chain, by its loosest operator.**

A chain is an operand with links behind it, each an operator and the operand behind that. Its
`reference` tree is split at the operator of the least precedence: at the last one of them where
that precedence groups to the left, at the first one where it groups to the right. Main statement:
`Spells.eq_reference`, a tree over the chain in which every operator is well grouped is that tree.
-/

import RSource.Proofs.Grouping

namespace RSource

/-- An operator and the operand behind it. -/
structure Link where
  sign : Lexeme
  operand : Lexeme
  deriving Repr, DecidableEq

namespace Link

/-- The operator of a link. -/
def operator (link : Link) : Operator := (Grammar.infixOf? link.sign).getD .help

def precedence (link : Link) : Nat := link.operator.precedence

def hasPrecedence (precedence : Nat) (link : Link) : Bool := link.precedence == precedence

/-- A link of an infix operator that is no accessor, and a literal or a name. -/
structure IsPlain (link : Link) : Prop where
  infixOf : ∃ operator, Grammar.infixOf? link.sign = some operator ∧ operator.isAccessor = false
  atom : Grammar.isAtom link.operand = true

theorem IsPlain.operator_eq {link : Link} (plain : link.IsPlain) :
    Grammar.infixOf? link.sign = some link.operator ∧ link.operator.isAccessor = false := by
  obtain ⟨operator, found, member⟩ := plain.infixOf
  rw [Link.operator, found]
  exact ⟨rfl, member⟩

theorem IsPlain.isUnary {link : Link} (plain : link.IsPlain) : link.operator.isUnary = false :=
  Grammar.isUnary_of_infixOf? plain.operator_eq.1

end Link

/-! ### The reference -/

section Split

variable {α : Type} (test : α → Bool)

/-- A list around the first item that passes a test. -/
def splitFirst : List α → Option (List α × α × List α)
  | [] => none
  | item :: rest =>
    if test item then some ([], item, rest)
    else (splitFirst rest).map fun found => (item :: found.1, found.2)

/-- A list around the last item that passes a test. -/
def splitLast : List α → Option (List α × α × List α)
  | [] => none
  | item :: rest =>
    match splitLast rest with
    | some found => some (item :: found.1, found.2)
    | none => if test item then some ([], item, rest) else none

variable {test}

theorem eq_append_of_splitFirst {items : List α} {found : List α × α × List α}
    (split : splitFirst test items = some found) : items = found.1 ++ found.2.1 :: found.2.2 := by
  induction items generalizing found with
  | nil => cases split
  | cons item rest previous =>
    unfold splitFirst at split
    split at split
    · cases split
      rfl
    · obtain ⟨inner, further, rfl⟩ := Option.map_eq_some_iff.mp split
      exact congrArg (item :: ·) (previous further)

theorem eq_append_of_splitLast {items : List α} {found : List α × α × List α}
    (split : splitLast test items = some found) : items = found.1 ++ found.2.1 :: found.2.2 := by
  induction items generalizing found with
  | nil => cases split
  | cons item rest previous =>
    unfold splitLast at split
    split at split
    · rename_i inner further
      cases split
      exact congrArg (item :: ·) (previous further)
    · split at split
      · cases split
        rfl
      · cases split

theorem splitFirst_append {before after : List α} {item : α} (passes : test item = true)
    (none : ∀ other ∈ before, test other = false) :
    splitFirst test (before ++ item :: after) = some (before, item, after) := by
  induction before with
  | nil => simp [splitFirst, passes]
  | cons other before previous =>
    rw [List.forall_mem_cons] at none
    simp [splitFirst, none.1, previous none.2]

theorem splitLast_eq_none {items : List α} (none : ∀ other ∈ items, test other = false) :
    splitLast test items = Option.none := by
  induction items with
  | nil => rfl
  | cons item rest previous =>
    rw [List.forall_mem_cons] at none
    simp [splitLast, none.1, previous none.2]

theorem splitLast_append {before after : List α} {item : α} (passes : test item = true)
    (none : ∀ other ∈ after, test other = false) :
    splitLast test (before ++ item :: after) = some (before, item, after) := by
  induction before with
  | nil => simp [splitLast, passes, splitLast_eq_none none]
  | cons other before previous => simp [splitLast, previous]

end Split

/-- The least precedence of a chain. -/
def leastPrecedence (links : List Link) : Nat := ((links.map Link.precedence).min?).getD 0

/-- A chain around its loosest operator: the last one of the least precedence where that groups to
the left, the first one where it groups to the right. -/
def splitLoosest (links : List Link) : Option (List Link × Link × List Link) :=
  let isLoosest := Link.hasPrecedence (leastPrecedence links)
  match (links.find? isLoosest).map fun link : Link => link.operator.association with
  | none => none
  | some .left => splitLast isLoosest links
  | some .right => splitFirst isLoosest links

theorem eq_append_of_splitLoosest {links : List Link} {found : List Link × Link × List Link}
    (split : splitLoosest links = some found) : links = found.1 ++ found.2.1 :: found.2.2 := by
  unfold splitLoosest at split
  simp only at split
  split at split
  · cases split
  · exact eq_append_of_splitLast split
  · exact eq_append_of_splitFirst split

/-- The tree of a chain, grouped by its loosest operator. -/
def reference (first : Lexeme) (links : List Link) : Tree :=
  match _split : splitLoosest links with
  | none => .leaf first
  | some (before, link, after) =>
    .ofParts (.operator link.operator)
      [ .child .left (reference first before), .child .operator (.leaf link.sign),
        .child .right (reference link.operand after) ]
termination_by links.length
decreasing_by
  all_goals
    have whole := congrArg List.length (eq_append_of_splitLoosest _split)
    simp only [List.length_append, List.length_cons] at whole
    omega

/-! ### Splitting a chain -/

/-- A chain is split at its loosest operator. -/
structure IsSplit (before : List Link) (link : Link) (after : List Link) : Prop where
  least : ∀ other ∈ before ++ after, link.precedence ≤ other.precedence
  last : link.operator.association = .left → ∀ other ∈ after, link.precedence < other.precedence
  first : link.operator.association = .right → ∀ other ∈ before, link.precedence < other.precedence

theorem leastPrecedence_eq {before after : List Link} {link : Link}
    (least : ∀ other ∈ before ++ after, link.precedence ≤ other.precedence) :
    leastPrecedence (before ++ link :: after) = link.precedence := by
  have found : ((before ++ link :: after).map Link.precedence).min? = some link.precedence := by
    rw [List.min?_eq_some_iff]
    refine ⟨List.mem_map_of_mem (by simp), fun precedence member => ?_⟩
    obtain ⟨other, inside, rfl⟩ := List.mem_map.mp member
    rcases List.mem_append.mp inside with early | late
    · exact least other (List.mem_append_left _ early)
    · rcases List.mem_cons.mp late with rfl | behind
      · exact Nat.le_refl _
      · exact least other (List.mem_append_right _ behind)
  rw [leastPrecedence, found, Option.getD_some]

/-- **A split at the loosest operator is the split.** -/
theorem splitLoosest_eq {before after : List Link} {link : Link}
    (split : IsSplit before link after) :
    splitLoosest (before ++ link :: after) = some (before, link, after) := by
  have inside : link ∈ before ++ link :: after := by simp
  have own : link.hasPrecedence link.precedence = true := beq_self_eq_true _
  have found : ((before ++ link :: after).find? (Link.hasPrecedence link.precedence)).map
      (fun other => other.operator.association) = some link.operator.association := by
    cases first : (before ++ link :: after).find? (Link.hasPrecedence link.precedence) with
    | none => exact absurd own (List.find?_eq_none.mp first link inside)
    | some other =>
      have same : other.precedence = link.precedence := eq_of_beq (List.find?_some first :)
      exact congrArg some (Operator.association_eq_of_precedence_eq same)
  unfold splitLoosest
  simp only [leastPrecedence_eq split.least, found]
  cases association : link.operator.association with
  | left =>
    refine splitLast_append own fun other late => ?_
    exact beq_eq_false_iff_ne.mpr (Nat.ne_of_gt (split.last association other late))
  | right =>
    refine splitFirst_append own fun other early => ?_
    exact beq_eq_false_iff_ne.mpr (Nat.ne_of_gt (split.first association other early))

theorem reference_nil (first : Lexeme) : reference first [] = .leaf first := by
  rw [reference]
  rfl

theorem reference_split {before after : List Link} {link : Link} (first : Lexeme)
    (split : IsSplit before link after) :
    reference first (before ++ link :: after)
      = .ofParts (.operator link.operator)
          [ .child .left (reference first before), .child .operator (.leaf link.sign),
            .child .right (reference link.operand after) ] := by
  rw [reference]
  split
  · rename_i none
    rw [splitLoosest_eq split] at none
    cases none
  · rename_i found
    rw [splitLoosest_eq split] at found
    cases found
    rfl

/-! ### Trees over a chain -/

/-- A tree of infix operators over the operands and the operators of a chain, in their order. -/
inductive Spells : Tree → Lexeme → List Link → Prop where
  | leaf {word : Lexeme} : Spells (.leaf word) word []
  | node {left right : Tree} {word : Lexeme} {before after : List Link} {link : Link} :
      Spells left word before → Spells right link.operand after →
      Spells (.ofParts (.operator link.operator)
        [.child .left left, .child .operator (.leaf link.sign), .child .right right])
        word (before ++ link :: after)

theorem Spells.problems {tree : Tree} {word : Lexeme} {links : List Link}
    (spells : Spells tree word links) : tree.problems = [] := by
  induction spells with
  | leaf => rfl
  | node _ _ left right => simp [left, right]

/-- The operator at the top of a tree is as loose as any of a chain. -/
def TopIsLeast (tree : Tree) (links : List Link) : Prop :=
  ∀ operator span parts, tree = .node (.operator operator) span parts →
    ∀ link ∈ links, operator.precedence ≤ link.precedence

/-- A tree over a link has an operator at its top. -/
theorem Spells.exists_operator {tree : Tree} {word : Lexeme} {links : List Link}
    (spells : Spells tree word links) (plain : ∀ link ∈ links, link.IsPlain) (some : links ≠ []) :
    ∃ operator span parts, tree = .node (.operator operator) span parts
      ∧ operator.isUnary = false ∧ operator.isAccessor = false := by
  cases spells with
  | leaf => exact absurd rfl some
  | @node _ _ _ _ _ link _ _ =>
    have own := plain link (by simp)
    exact ⟨_, _, _, rfl, own.isUnary, own.operator_eq.2⟩

/-- A well grouped operator is the loosest of its chain. -/
theorem isSplit_of_wellGrouped {left right : Tree} {word : Lexeme} {before after : List Link}
    {link : Link} (inLeft : Spells left word before) (inRight : Spells right link.operand after)
    (plain : ∀ other ∈ before ++ link :: after, other.IsPlain)
    (leastLeft : TopIsLeast left before) (leastRight : TopIsLeast right after)
    (grouped : WellGrouped link.operator
      [.child .left left, .child .operator (.leaf link.sign), .child .right right]) :
    IsSplit before link after := by
  have onLeft : ∀ other ∈ before, link.precedence < other.precedence
      ∨ link.precedence ≤ other.precedence ∧ link.operator.association = .left := by
    intro other early
    obtain ⟨operator, span, parts, rfl, _, member⟩ := inLeft.exists_operator
      (fun other early => plain other (List.mem_append_left _ early)) (List.ne_nil_of_mem early)
    have least := leastLeft operator span parts rfl other early
    rcases grouped.left _ List.mem_cons_self operator .here member with tighter | ⟨_, same, side⟩
    · exact .inl (Nat.lt_of_lt_of_le tighter least)
    · rw [same] at least
      exact .inr ⟨least, side⟩
  have onRight : ∀ other ∈ after, link.precedence < other.precedence
      ∨ link.precedence ≤ other.precedence ∧ link.operator.association = .right := by
    intro other late
    obtain ⟨operator, span, parts, rfl, binary, _⟩ := inRight.exists_operator
      (fun other late => plain other (List.mem_append_right _ (List.mem_cons_of_mem _ late)))
      (List.ne_nil_of_mem late)
    have least := leastRight operator span parts rfl other late
    have bound := grouped.right left List.mem_cons_self operator span parts (by simp) binary
    cases side : link.operator.association with
    | left =>
      rw [side] at bound
      exact .inl (Nat.lt_of_lt_of_le bound least)
    | right =>
      rw [side] at bound
      exact .inr ⟨Nat.le_trans bound least, rfl⟩
  refine ⟨fun other member => ?_, fun side other late => ?_, fun side other early => ?_⟩
  · rcases List.mem_append.mp member with early | late
    · exact (onLeft other early).elim Nat.le_of_lt And.left
    · exact (onRight other late).elim Nat.le_of_lt And.left
  · rcases onRight other late with tighter | ⟨_, other⟩
    · exact tighter
    · rw [side] at other
      cases other
  · rcases onLeft other early with tighter | ⟨_, other⟩
    · exact tighter
    · rw [side] at other
      cases other

/-- **A well grouped tree over a chain is its reference.** -/
theorem Spells.eq_reference {tree : Tree} {word : Lexeme} {links : List Link}
    (spells : Spells tree word links) (plain : ∀ link ∈ links, link.IsPlain)
    (grouped : tree.All Tree.IsWellGrouped) :
    tree = reference word links ∧ TopIsLeast tree links := by
  induction spells with
  | leaf => exact ⟨(reference_nil _).symm, nofun⟩
  | @node left right word before after link inLeft inRight ofLeft ofRight =>
    obtain ⟨top, below⟩ := (Tree.all_ofParts_iff _ _).mp grouped
    obtain ⟨leftBelow, _, rightBelow⟩ : left.All Tree.IsWellGrouped
        ∧ (Tree.leaf link.sign).All Tree.IsWellGrouped ∧ right.All Tree.IsWellGrouped := by
      simpa using below
    obtain ⟨leftEq, leastLeft⟩ := ofLeft
      (fun other early => plain other (List.mem_append_left _ early)) leftBelow
    obtain ⟨rightEq, leastRight⟩ := ofRight
      (fun other late => plain other (List.mem_append_right _ (List.mem_cons_of_mem _ late)))
      rightBelow
    have own := plain link (by simp)
    have split := isSplit_of_wellGrouped inLeft inRight plain leastLeft leastRight
      (top own.operator_eq.2)
    refine ⟨?_, ?_⟩
    · rw [reference_split word split, ← leftEq, ← rightEq]
    · intro operator span parts same other member
      cases same
      rcases List.mem_append.mp member with early | late
      · exact split.least other (List.mem_append_left _ early)
      · rcases List.mem_cons.mp late with rfl | behind
        · exact Nat.le_refl _
        · exact split.least other (List.mem_append_right _ behind)

end RSource
