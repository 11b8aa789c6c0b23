/-
**Every gap in the tree is a problem, and the other way round.**

A node with an empty slot was built where something was missing, and that was recorded once.
`Form.gaps` lists, for a form and the roles that are filled, the problems that the empty slots stand
for; `Form.Takes.own_eq_gaps` says that these are the problems a node has of its own. So the
problems of each kind are as many as the nodes with such a gap: `Reading.accountsForGaps`.
-/

import RSource.Proofs.Arena.Shown
import RSource.Proofs.Grammar.Shape
import RSource.Proofs.Tree.Problems
import Mathlib.Algebra.BigOperators.Group.List.Basic
import Mathlib.Algebra.GroupWithZero.Nat

namespace RSource

/-! ### Gaps -/

/-- A problem of this kind stands where a slot is empty. -/
def ProblemKind.isGap : ProblemKind → Bool
  | identifierExpected | unexpectedToken | nestingTooDeep => false
  | _ => true

/-- The problem of an empty slot. -/
def gap (has : Role → Bool) (role : Role) (kind : ProblemKind) : List ProblemKind :=
  if has role then [] else [kind]

/-- The gaps in the head of a construct, with slots of its own between the parentheses. -/
def headGaps (has : Role → Bool) (slots : List (Role × ProblemKind)) : List ProblemKind :=
  if has .openBrace then
    slots.flatMap (fun slot => gap has slot.1 slot.2) ++ gap has .closeBrace .closeBraceExpected
  else [.openBraceExpected]

/-- The gaps of a node, by the roles that are filled and the kind of its opening bracket. -/
def Form.gaps (has : Role → Bool) (opener : Option TokenKind) : Form → List ProblemKind
  | .operator applied => if applied.isAccessor then [] else gap has .right .operandExpected
  | .group => gap has .expression .operandExpected ++ gap has .closeBrace .closeBraceExpected
  | .call => gap has .closeBrace .closeBraceExpected
  | .index =>
    (if opener = some .openSquareBracket then gap has .closeBracket .closeSquareBracketExpected
      else [])
    ++ if opener = some .openDoubleSquareBracket then
        gap has .closeBracket .closeDoubleSquareBracketExpected
      else []
  | .scope => gap has .closeCurly .closeBraceExpected
  | .ifElse => headGaps has [(.condition, .operandExpected)] ++ gap has .body .statementExpected
    ++ if has .elseKeyword then gap has .elseBody .statementExpected else []
  | .whileLoop =>
    headGaps has [(.condition, .operandExpected)] ++ gap has .body .statementExpected
  | .forLoop =>
    headGaps has [(.inKeyword, .inKeywordExpected), (.sequence, .operandExpected)]
      ++ gap has .body .statementExpected
  | .functionDefinition => headGaps has [] ++ gap has .body .statementExpected
  | .repeatLoop => gap has .body .statementExpected
  | _ => []

/-! ### The problems of one node -/

/-- The kind of a problem. -/
def Part.problem? : Part → Option ProblemKind
  | .child _ _ => none
  | .problem found _ => some found.kind

namespace Tree

/-- The problems among the parts of a node. -/
def ownKinds (parts : List Part) : List ProblemKind := parts.filterMap Part.problem?

/-- The problems of a node, without those below it. -/
def own : Tree → List ProblemKind
  | leaf _ => []
  | cut _ _ => [.nestingTooDeep]
  | node _ _ parts => ownKinds parts

def token? : Tree → Option Token
  | leaf lexeme | cut lexeme _ => some lexeme.token
  | node _ _ _ => none

/-- The kind of the token in a role. -/
def kindIn? (role : Role) (parts : List Part) : Option TokenKind :=
  (childIn? role parts).bind fun tree => tree.token?.map (·.kind)

/-- Whether a role is filled. -/
def fills (parts : List Part) (role : Role) : Bool := (childIn? role parts).isSome

/-- The gaps of a node. -/
def gaps : Tree → List ProblemKind
  | leaf _ | cut _ _ => []
  | node form _ parts => form.gaps (fills parts) (kindIn? .openBracket parts)

theorem childIn?_append (role : Role) (left right : List Part) :
    childIn? role (left ++ right) = (childIn? role left).or (childIn? role right) := by
  induction left with
  | nil => rfl
  | cons part rest previous =>
    cases part with
    | child own tree =>
      rw [List.cons_append, childIn?, childIn?]
      split
      · rfl
      · exact previous
    | problem found skipped => exact previous

/-- Entries fill one role and leave no slot empty. -/
theorem childIn?_of_isEntry {own role : Role} {kind : ProblemKind} {items : List Part}
    (entries : ∀ part ∈ items, part.IsEntry own kind) (other : role ≠ own) :
    childIn? role items = none := by
  induction items with
  | nil => rfl
  | cons part rest previous =>
    rw [List.forall_mem_cons] at entries
    obtain ⟨here, behind⟩ := entries
    cases here with
    | child tree => rw [childIn?, if_neg (by simpa using other), previous behind]
    | problem token skipped => exact previous behind

theorem ownKinds_of_isEntry {items : List Part} {kind : ProblemKind} (plain : kind.isGap = false)
    (entries : ∀ part ∈ items, ∃ role, part.IsEntry role kind) :
    (ownKinds items).filter (·.isGap) = [] := by
  rw [List.filter_eq_nil_iff]
  intro found member
  obtain ⟨part, inside, same⟩ := List.mem_filterMap.mp member
  obtain ⟨role, entry⟩ := entries part inside
  cases entry with
  | child tree => cases same
  | problem token skipped =>
    cases same
    simp [plain]

end Tree

open RSource.Tree in
/-- **The problems of a node are those of its empty slots.** -/
theorem Form.Takes.own_eq_gaps {form : Form} {parts : List Part} (takes : form.Takes parts) :
    (ownKinds parts).filter (·.isGap) = form.gaps (fills parts) (kindIn? .openBracket parts) := by
  cases takes with
  | globalScope entries => exact ownKinds_of_isEntry rfl fun part member => ⟨_, entries part member⟩
  | argumentList entries =>
    exact ownKinds_of_isEntry rfl fun part member => ⟨_, entries part member⟩
  | argument entries =>
    refine @ownKinds_of_isEntry _ ProblemKind.identifierExpected rfl fun part member => ?_
    obtain ⟨role, _, entry⟩ := entries part member
    exact ⟨role, entry⟩
  | @scope opening items close entries slot =>
    have none : Tree.childIn? .closeCurly items = none := childIn?_of_isEntry entries (by decide)
    have unexpected : (ownKinds items).filter (·.isGap) = [] :=
      ownKinds_of_isEntry rfl fun part member => ⟨_, entries part member⟩
    have closed : fills (.child .openCurly opening :: (items ++ close)) .closeCurly
        = fills close .closeCurly := by
      rw [fills, childIn?, if_neg (by decide), childIn?_append, none]
      rfl
    rw [Form.gaps, gap, closed, ownKinds, List.filterMap_cons_none rfl, List.filterMap_append,
      List.filter_append]
    rw [ownKinds] at unexpected
    rw [unexpected]
    cases slot <;> rfl
  | simpleScope | statement | ended => rfl
  | sign _ plain slot | between _ _ plain slot =>
    rw [Form.gaps, if_neg (by simp [plain])]
    cases slot <;> rfl
  | access _ _ accessor slot =>
    rw [Form.gaps, if_pos accessor]
    cases slot <;> rfl
  | group _ inner close => cases inner <;> cases close <;> rfl
  | call _ _ _ close => cases close <;> rfl
  | @index target list opening delimiter close single opened slot =>
    have kind : kindIn? .openBracket (.child .target target :: .child .openBracket (.leaf opening)
        :: .child .arguments list :: close) = some delimiter.opener := congrArg some opened
    rw [kind]
    obtain rfl | rfl := single <;> cases slot <;> rfl
  | headed form _ isForm top main =>
    cases top with
    | unopened token =>
      obtain rfl | rfl | rfl := isForm <;> cases main <;> rfl
    | opened opening contents close =>
      cases contents with
      | condition isTest tested =>
        obtain rfl : form = .whileLoop := by
          rcases isForm with rfl | rfl | rfl <;> simp_all
        cases tested <;> cases close <;> cases main <;> rfl
      | iteration counter link range =>
        cases counter <;> cases link <;> cases range <;> cases close <;> cases main <;> rfl
      | formals list => cases close <;> cases main <;> rfl
  | ifElse _ top main other =>
    cases top with
    | unopened token => cases main <;> cases other with
      | none => rfl
      | some keyword slot => cases slot <;> rfl
    | opened opening contents close =>
      cases contents with
      | condition _ tested =>
        cases tested <;> cases close <;> cases main <;> cases other with
        | none => rfl
        | some keyword slot => cases slot <;> rfl
  | repeatLoop _ main => cases main <;> rfl
  | word form _ isForm => obtain rfl | rfl := isForm <;> rfl

/-! ### The problems of a whole tree -/

namespace Tree

mutual

/-- The problems of a tree are those that its nodes have of their own. -/
theorem count_problems (tree : Tree) (kind : ProblemKind) :
    (tree.problems.map (·.kind)).count kind
      = (tree.nodes.map fun node => node.own.count kind).sum := by
  cases tree with
  | leaf lexeme | cut lexeme skipped => simp [nodes, own]
  | node form span parts =>
    have below := count_partsProblems parts kind
    simpa [nodes, own] using below

theorem count_partProblems (part : Part) (kind : ProblemKind) :
    ((partProblems part).map (·.kind)).count kind
      = ((partNodes part).map fun node => node.own.count kind).sum
        + part.problem?.toList.count kind := by
  cases part with
  | child role tree => simpa [partProblems, partNodes, Part.problem?] using count_problems tree kind
  | problem found skipped => simp [partProblems, partNodes, Part.problem?]

theorem count_partsProblems (parts : List Part) (kind : ProblemKind) :
    ((partsProblems parts).map (·.kind)).count kind
      = ((partsNodes parts).map fun node => node.own.count kind).sum
        + (ownKinds parts).count kind := by
  cases parts with
  | nil => rfl
  | cons part rest =>
    have here := count_partProblems part kind
    have behind := count_partsProblems rest kind
    have split : ownKinds (part :: rest) = part.problem?.toList ++ ownKinds rest := by
      rw [ownKinds, List.filterMap_cons]
      cases part <;> rfl
    rw [partsProblems, partsNodes, split]
    simp only [List.map_append, List.count_append, List.sum_append, here, behind]
    omega

end

theorem IsShaped.count_own {tree : Tree} (shaped : tree.IsShaped) {kind : ProblemKind}
    (isGap : kind.isGap = true) : tree.own.count kind = tree.gaps.count kind := by
  cases tree with
  | leaf lexeme => rfl
  | cut lexeme skipped =>
    rw [own, gaps, List.count_nil, List.count_eq_zero, List.mem_singleton]
    rintro rfl
    cases isGap
  | node form span parts =>
    have same := Form.Takes.own_eq_gaps shaped
    rw [own, gaps, ← same, List.count_filter isGap]

end Tree

/-! ### The nodes of a document -/

namespace Content

/-- Whether a role is filled. -/
def has (content : Content) (role : Role) : Bool := (content.child? role).isSome

/-- Whether a node has one of these forms. -/
def isOneOf (forms : List Form) (content : Content) : Bool :=
  content.form?.any forms.contains

end Content

namespace Document

/-- The number of nodes that pass a test. -/
def number (document : Document) (test : Content → Bool) : Nat :=
  (List.range document.nodes.size).countP fun id => test (document.content id)

/-- The kind of the opening bracket of a node. -/
def bracketOf (document : Document) (content : Content) : Option TokenKind :=
  (content.child? .openBracket).bind fun id => (document.content id).token?.map (·.kind)

/-- The gaps of a node. -/
def gapsOf (document : Document) (content : Content) : List ProblemKind :=
  match content.form? with
  | some form => form.gaps content.has (document.bracketOf content)
  | none => []

theorem Shows.token? {document : Document} {id : NodeId} {tree : Tree}
    (shown : document.Shows id tree) : (document.content id).token? = tree.token? := by
  cases tree with
  | leaf lexeme | cut lexeme skipped =>
    rw [shown.1]
    rfl
  | node form span parts =>
    obtain ⟨slots, content, _⟩ := shown
    rw [content]
    rfl

/-- A node has the gaps of the tree it shows. -/
theorem Shows.gapsOf {document : Document} {id : NodeId} {tree : Tree}
    (shown : document.Shows id tree) : document.gapsOf (document.content id) = tree.gaps := by
  cases tree with
  | leaf lexeme | cut lexeme skipped =>
    rw [shown.1]
    rfl
  | node form span parts =>
    obtain ⟨slots, content, _, inner⟩ := shown
    have has : (Content.branch form slots).has = Tree.fills parts := by
      funext role
      have rel := inner.lookup role
      rw [Content.has, Content.child?, Content.slots, Tree.fills]
      generalize slots.lookup role = found, Tree.childIn? role parts = child at rel
      cases rel <;> rfl
    have bracket : document.bracketOf (.branch form slots) = Tree.kindIn? .openBracket parts := by
      have rel := inner.lookup .openBracket
      rw [bracketOf, Content.child?, Content.slots, Tree.kindIn?]
      generalize slots.lookup .openBracket = found, Tree.childIn? .openBracket parts = child
        at rel
      cases rel with
      | none => rfl
      | some same => simp [same.token?]
    rw [content]
    show form.gaps _ _ = _
    rw [has, bracket]
    rfl

end Document

namespace Reading

/-- **The problems of a kind are the gaps of that kind.** -/
theorem count_problems (text : Text) {kind : ProblemKind} (isGap : kind.isGap = true) :
    (read text).problems.countP (·.kind == kind)
      = ((List.range (read text).document.nodes.size).map fun id =>
        ((read text).document.gapsOf ((read text).document.content id)).count kind).sum := by
  have shaped (node : Tree) (member : node ∈ (read text).tree.nodes) :
      node.own.count kind = node.gaps.count kind :=
    (Reading.shaped text node (Tree.isWithin_of_mem_nodes _ member)).count_own isGap
  have gaps {ids : List NodeId} {trees : List Tree}
      (shown : List.Forall₂ (read text).document.Shows ids trees) :
      ids.map (fun id => ((read text).document.gapsOf ((read text).document.content id)).count kind)
        = trees.map fun node => node.gaps.count kind := by
    induction shown with
    | nil => rfl
    | cons here _ previous => rw [List.map_cons, List.map_cons, here.gapsOf, previous]
  have root : (read text).document.gapsOf ((read text).document.content 0) = [] := by
    rw [content_document, if_pos (show 0 = Document.root from rfl)]
    rfl
  have rooted := (read text).size_stored
  obtain ⟨size, shape⟩ := Nat.exists_eq_succ_of_ne_zero (n := (read text).stored.size) (by omega)
  have behind : List.range' 1 size = Arena.ids 1 (read text).stored.size := by
    rw [shape, Arena.ids, Nat.succ_sub_one]
  rw [size_document, shape, List.range_eq_range', List.range'_succ, List.map_cons, behind,
    gaps (read text).shows_document.2, root, List.sum_cons, List.count_nil, Nat.zero_add,
    ← List.map_congr_left shaped, ← Tree.count_problems, problems, List.count, List.countP_map]
  rfl

end Reading

/-! ### Counting by kind -/

/-- The keyword constructs with a head in parentheses. -/
def Content.isHeaded (content : Content) : Bool :=
  content.isOneOf [.ifElse, .forLoop, .whileLoop, .functionDefinition]

namespace Document

/-- The nodes with a gap, by the kind of the problem it is. A node has at most one gap of each sort;
where it may have several of one kind, each sort has a test of its own. -/
def gapTests (document : Document) : ProblemKind → List (Content → Bool)
  | .openBraceExpected => [fun content => content.isHeaded && !content.has .openBrace]
  | .closeBraceExpected =>
    [ fun content => content.isOneOf [.group, .call] && !content.has .closeBrace,
      fun content => content.isOneOf [.scope] && !content.has .closeCurly,
      fun content => content.isHeaded && content.has .openBrace && !content.has .closeBrace ]
  | .closeSquareBracketExpected =>
    [ fun content => content.isOneOf [.index]
        && decide (document.bracketOf content = some .openSquareBracket)
        && !content.has .closeBracket ]
  | .closeDoubleSquareBracketExpected =>
    [ fun content => content.isOneOf [.index]
        && decide (document.bracketOf content = some .openDoubleSquareBracket)
        && !content.has .closeBracket ]
  | .operandExpected =>
    [ fun content => content.operator?.any (!·.isAccessor) && !content.has .right,
      fun content => content.isOneOf [.group] && !content.has .expression,
      fun content => content.isOneOf [.ifElse, .whileLoop] && content.has .openBrace
        && !content.has .condition,
      fun content => content.isOneOf [.forLoop] && content.has .openBrace
        && !content.has .sequence ]
  | .inKeywordExpected =>
    [ fun content => content.isOneOf [.forLoop] && content.has .openBrace
        && !content.has .inKeyword ]
  | .statementExpected =>
    [ fun content =>
        content.isOneOf [.ifElse, .forLoop, .whileLoop, .repeatLoop, .functionDefinition]
          && !content.has .body,
      fun content => content.isOneOf [.ifElse] && content.has .elseKeyword
        && !content.has .elseBody ]
  | .openCurlyBraceExpected | .identifierExpected | .unexpectedToken | .nestingTooDeep => []

theorem count_gap (has : Role → Bool) (role : Role) (own kind : ProblemKind) :
    (gap has role own).count kind = (decide (own = kind) && !has role).toNat := by
  unfold gap
  cases has role
  · by_cases same : own = kind
    · subst same
      simp
    · simp [same]
  · simp

/-- Every gap of a node passes one test. -/
theorem count_gapsOf (document : Document) (content : Content) {kind : ProblemKind}
    (isGap : kind.isGap = true) :
    (document.gapsOf content).count kind
      = ((document.gapTests kind).map fun test => (test content).toNat).sum := by
  cases content with
  | leaf token => cases kind <;> rfl
  | branch form slots =>
    rw [gapsOf]
    simp only [Content.form?]
    generalize opened : document.bracketOf (.branch form slots) = opener
    generalize filled : (Content.branch form slots).has = has
    -- What a test says of a node is fixed by its form and by the slots the form may leave empty.
    cases kind <;> cases form
    all_goals simp only [gapTests, Form.gaps, headGaps, List.flatMap_cons, List.flatMap_nil,
        List.map_cons, List.map_nil, List.sum_cons, List.sum_nil, Content.isHeaded,
        Content.isOneOf, Content.form?, Content.operator?, Option.any_some, filled, opened,
        List.count_append, count_gap, List.count_nil]
    all_goals first
      | rfl
      | (repeat' split) <;> simp_all [count_gap]

/-- A sum of ones is a number of nodes. -/
theorem sum_toNat (document : Document) (test : Content → Bool) :
    ((List.range document.nodes.size).map fun id => (test (document.content id)).toNat).sum
      = document.number test := by
  rw [number]
  induction List.range document.nodes.size with
  | nil => rfl
  | cons id rest previous =>
    rw [List.map_cons, List.sum_cons, previous, List.countP_cons, Nat.add_comm]
    cases test (document.content id) <;> rfl

/-- A sum over the tests is a sum over the nodes. -/
theorem sum_number (document : Document) (tests : List (Content → Bool)) :
    ((List.range document.nodes.size).map fun id =>
        (tests.map fun test => (test (document.content id)).toNat).sum).sum
      = (tests.map document.number).sum := by
  induction tests with
  | nil => simp
  | cons test tests previous =>
    simp only [List.map_cons, List.sum_cons, List.sum_map_add, previous, sum_toNat]

end Document

/-- **The problems of each kind are as many as the gaps they stand for.** -/
theorem Reading.accountsForGaps (text : Text) {kind : ProblemKind} (isGap : kind.isGap = true) :
    (read text).problems.countP (·.kind == kind)
      = (((read text).document.gapTests kind).map (read text).document.number).sum := by
  rw [count_problems text isGap, ← Document.sum_number]
  simp only [Document.count_gapsOf _ _ isGap]

/-- A call and a group are not closed, and a third parenthesis is missing in the head of a loop. -/
theorem accountsForGaps_closeBrace :
    ProblemKind.closeBraceExpected.isGap = true
      ∧ (read "f((while (x".toList).problems.countP (·.kind == .closeBraceExpected) = 3
      ∧ (((read "f((while (x".toList).document.gapTests .closeBraceExpected).map
          (read "f((while (x".toList).document.number).sum = 3 :=
  have accounts := @Reading.accountsForGaps "f((while (x".toList .closeBraceExpected rfl
  have three : (read "f((while (x".toList).problems.countP (·.kind == .closeBraceExpected) = 3 := by
    decide
  ⟨rfl, three, accounts.symm.trans three⟩

end RSource
