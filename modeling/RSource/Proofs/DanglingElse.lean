/-
**An `else` belongs to the nearest `if`.**

The open edge of a tree is what its text ends with as long as nothing closes it: the right operand
of an operator, the body of a loop or a function, the last branch of an `if`, the expression of a
statement without semicolon (`OnOpenEdge`). Where an `if` without `else` stands on the open edge of
what was read, no `else` is seen behind it: the mode does not change along the open edge, so what
the inner `if` saw is what everything around it sees (`Derives.unseen`). An `if` that takes an
`else` sees one behind its body. Main statement: `Reading.else_nearest`.
-/

import RSource.Proofs.Grammar.Built
import RSource.Proofs.Grammar.Shape

namespace RSource

/-- The constructs that end with their body. -/
def Form.endsWithBody : Form → Bool
  | .functionDefinition | .forLoop | .whileLoop | .repeatLoop => true
  | _ => false

namespace Tree

/-- The child that a node ends with, where nothing closes it. -/
inductive IsOpenEnd (child : Tree) : Form → List Part → Prop where
  | operand {operator : Operator} {parts : List Part} : operator.isAccessor = false →
      .child .right child ∈ parts → IsOpenEnd child (.operator operator) parts
  | body {form : Form} {parts : List Part} : form.endsWithBody = true →
      .child .body child ∈ parts → IsOpenEnd child form parts
  | elseBody {parts : List Part} : .child .elseBody child ∈ parts → IsOpenEnd child .ifElse parts
  | onlyBody {parts : List Part} : (∀ keyword, .child .elseKeyword keyword ∉ parts) →
      .child .body child ∈ parts → IsOpenEnd child .ifElse parts
  | statement {parts : List Part} :
      .child .statement child ∈ parts → IsOpenEnd child .simpleScope parts
  | expression {parts : List Part} : (∀ semicolon, .child .semicolon semicolon ∉ parts) →
      .child .expression child ∈ parts → IsOpenEnd child .statement parts

theorem IsOpenEnd.mem_of_endsWithBody {child : Tree} {form : Form} {parts : List Part}
    (opened : IsOpenEnd child form parts) (ends : form.endsWithBody = true) :
    .child .body child ∈ parts := by
  cases opened with
  | body _ member => exact member
  | _ => cases ends

/-- `node` is a tree, or what it ends with, or what that ends with, and so on. -/
inductive OnOpenEdge (node : Tree) : Tree → Prop where
  | here : OnOpenEdge node node
  | further {child : Tree} {form : Form} {span : Span} {parts : List Part} :
      IsOpenEnd child form parts → OnOpenEdge node child → OnOpenEdge node (.node form span parts)

/-- A tree ends with an `if` that has no `else`. -/
def EndsLone (tree : Tree) : Prop :=
  ∃ span parts, (∀ keyword, .child .elseKeyword keyword ∉ parts)
    ∧ (Tree.node .ifElse span parts).OnOpenEdge tree

theorem not_endsLone_leaf (lexeme : Lexeme) : ¬ (leaf lexeme).EndsLone := by
  rintro ⟨span, parts, _, edge⟩
  cases edge

theorem not_endsLone_cut (lexeme : Lexeme) (skipped : List Lexeme) :
    ¬ (cut lexeme skipped).EndsLone := by
  rintro ⟨span, parts, _, edge⟩
  cases edge

theorem EndsLone.cases {form : Form} {span : Span} {parts : List Part}
    (lone : (node form span parts).EndsLone) :
    (form = .ifElse ∧ ∀ keyword, .child .elseKeyword keyword ∉ parts)
      ∨ ∃ child, IsOpenEnd child form parts ∧ child.EndsLone := by
  obtain ⟨inner, below, bare, edge⟩ := lone
  cases edge with
  | here => exact .inl ⟨rfl, bare⟩
  | further opened edge => exact .inr ⟨_, opened, _, _, bare, edge⟩

end Tree

/-! ### The parts of a construct -/

theorem IsSlot.eq_role {role own : Role} {kind : ProblemKind} {parts : List Part} {tree : Tree}
    (slot : IsSlot role kind parts) (member : .child own tree ∈ parts) : own = role := by
  cases slot with
  | filled => simp_all
  | empty => simp at member

theorem IsElse.eq_role {parts : List Part} {own : Role} {tree : Tree} (other : IsElse parts)
    (member : .child own tree ∈ parts) : own = .elseKeyword ∨ own = .elseBody := by
  cases other with
  | none => cases member
  | some keyword slot =>
    rcases List.mem_cons.mp member with same | member
    · cases same
      exact .inl rfl
    · exact .inr (slot.eq_role member)

/-- The roles of what follows the head of a construct. -/
def branchRoles : List Role := [.body, .elseKeyword, .elseBody]

theorem IsHead.not_mem {form : Form} {top : List Part} (head : IsHead form top) {own : Role}
    (branch : own ∈ branchRoles) (tree : Tree) : .child own tree ∉ top := by
  intro member
  have other (role : Role) (apart : role ∉ branchRoles) : own ≠ role := by
    rintro rfl
    exact apart branch
  cases head with
  | unopened => simp at member
  | opened opening contents close =>
    rcases List.mem_cons.mp member with same | member
    · cases same
      exact other .openBrace (by decide) rfl
    rcases List.mem_append.mp member with early | late
    · cases contents with
      | condition _ tested => exact other .condition (by decide) (tested.eq_role early)
      | iteration counter link range =>
        rw [List.mem_append, List.mem_append] at early
        rcases early with (inCounter | inLink) | inRange
        · exact other .loopVariable (by decide) (counter.eq_role inCounter)
        · exact other .inKeyword (by decide) (link.eq_role inLink)
        · exact other .sequence (by decide) (range.eq_role inRange)
      | formals list =>
        cases List.mem_singleton.mp early
        exact other .formals (by decide) rfl
    · exact other .closeBrace (by decide) (close.eq_role late)

/-- The parts of an `if` behind its head. -/
theorem mem_branches {form : Form} {keyword : Tree} {top main other : List Part}
    (head : IsHead form top) {own : Role} (branch : own ∈ branchRoles) {tree : Tree}
    (member : .child own tree ∈ .child .keyword keyword :: (top ++ main ++ other)) :
    .child own tree ∈ main ∨ .child own tree ∈ other := by
  rcases List.mem_cons.mp member with same | member
  · cases same
    exact absurd branch (by decide)
  rw [List.mem_append, List.mem_append] at member
  rcases member with (inTop | inMain) | inOther
  · exact absurd inTop (head.not_mem branch tree)
  · exact .inl inMain
  · exact .inr inOther

namespace Grammar

open Reader Cursor RSource.Tree

theorem mem_elseKeyword {keyword word : Tree} {top main other : List Part} :
    Part.child .elseKeyword word
      ∈ Part.child .keyword keyword :: (top ++ main ++ (.child .elseKeyword word :: other)) := by
  simp

/-! ### What is seen behind an open edge -/

theorem beyond_settle (mode : Mode) (cursor : Cursor Lexeme) :
    beyond (settle mode cursor) = beyond cursor := by
  unfold settle beyond
  split
  · exact skipWhile_skipWhile _ _
  · rfl

@[simp] theorem seesElse_settle (mode : Mode) (cursor : Cursor Lexeme) :
    seesElse mode (settle mode cursor) = seesElse mode cursor := by
  rw [seesElse, seesElse, beyond_settle, look_settle]

/-- The role of the tree that a phrase ends with. -/
def Phrase.lastRole? : Phrase → Option Role
  | .expression _ _ role | .operand _ _ role | .chain _ _ role | .leading _ role
  | .postfixed _ role | .suffixed _ role | .primary _ role | .construct _ _ role | .body _ role
  | .statement _ role | .block _ role => some role
  | .elseBranch _ => some .elseBody
  | _ => none

/-- Behind a tree that ends with an `if` without `else` no `else` is seen. -/
def Unseen (phrase : Phrase) (mode : Mode) (parts : List Part) (last : Cursor Lexeme) : Prop :=
  ∀ role tree, phrase.lastRole? = some role → .child role tree ∈ parts → tree.EndsLone →
    seesElse mode last = false

/-- A node whose last child was read up to there. -/
theorem Unseen.ofParts {phrase : Phrase} {mode : Mode} {last : Cursor Lexeme} {role : Role}
    {form : Form} {parts : List Part} (other : form ≠ .ifElse)
    (unseen : ∀ child, IsOpenEnd child form parts → child.EndsLone → seesElse mode last = false) :
    Unseen phrase mode [.child role (.ofParts form parts)] last := by
  intro own tree _ member lone
  cases List.mem_singleton.mp member
  rcases lone.cases with ⟨own, _⟩ | ⟨child, opened, below⟩
  · exact absurd own other
  · exact unseen child opened below

/-- A node that is closed. -/
theorem Unseen.closed {phrase : Phrase} {mode : Mode} {last : Cursor Lexeme} {role : Role}
    {form : Form} {parts : List Part} (other : form ≠ .ifElse)
    (closed : ∀ child, ¬ IsOpenEnd child form parts) :
    Unseen phrase mode [.child role (.ofParts form parts)] last :=
  .ofParts other fun child opened _ => absurd opened (closed child)

/-- **Behind an open edge with an `if` without `else` no `else` is seen.** -/
theorem Derives.unseen {phrase : Phrase} {mode : Mode} {first last : Cursor Lexeme}
    {parts : List Part} (run : Derives phrase mode first parts last) :
    Unseen phrase mode parts last := by
  induction run with
  | cutNothing | noExpression | noPostfixed | noPrimary | noStatement | noElse => exact nofun
  | noOperand | noBody => exact fun _ _ _ member => by simp at member
  | cutBracket | cutToken =>
    intro role tree _ member lone
    cases List.mem_singleton.mp member
    exact absurd lone (not_endsLone_cut _ _)
  | expression _ _ previous | postfixed _ _ previous =>
    intro role tree opened member lone
    rw [seesElse_settle]
    exact previous role tree opened member lone
  | chainStart _ previous | operand _ previous | unsigned _ _ previous
  | suffixedStart _ previous | blockPrimary _ _ previous | constructPrimary _ _ _ previous
  | blockBody _ _ previous => exact previous
  | chainMore _ _ _ _ right | sign _ _ right =>
    refine .ofParts nofun fun child opened lone => ?_
    cases opened with
    | operand _ member => exact right _ child rfl (by simpa using member) lone
    | body ends _ => cases ends
  | call | index | group => exact .closed nofun nofun
  | access _ found _ _ _ =>
    have accessor := (accessorOf?_eq_some_iff.mp found).2
    refine .closed nofun fun child opened => ?_
    cases opened with
    | operand plain _ => rw [accessor] at plain; cases plain
    | body ends _ => cases ends
  | atom =>
    intro role tree _ member lone
    cases List.mem_singleton.mp member
    exact absurd lone (not_endsLone_leaf _)
  | ifElse _ inTop inMain inOther _ _ other =>
    intro role tree _ member lone
    cases List.mem_singleton.mp member
    -- Where there is no `else`, none was seen, and the cursor has not moved since.
    cases inOther with
    | noElse unseen => exact unseen
    | elseBranch _ _ =>
      rcases lone.cases with ⟨_, bare⟩ | ⟨child, opened, below⟩
      · exact absurd mem_elseKeyword (bare _)
      cases opened with
      | elseBody member =>
        rcases mem_branches inTop.isHead (by decide) member with misplaced | inside
        · exact nomatch inMain.isSlot_body.eq_role misplaced
        · exact other _ child rfl inside below
      | onlyBody bare _ => exact absurd mem_elseKeyword (bare _)
      | body ends _ => cases ends
  | @headed _ _ _ _ _ _ _ _ construct headed _ inTop inMain _ main =>
    have ends : construct.form.endsWithBody = true := by
      rcases Construct.form_of_isHeaded headed with form | form | form <;> rw [form] <;> rfl
    refine .ofParts (by rintro same; rw [same] at ends; cases ends) fun child opened lone => ?_
    have member := opened.mem_of_endsWithBody ends
    rw [← List.append_nil (_ ++ _)] at member
    rcases mem_branches inTop.isHead (by decide) member with inside | none
    · exact main _ child rfl inside lone
    · cases none
  | repeatLoop _ _ main =>
    refine .ofParts nofun fun child opened lone => ?_
    exact main _ child rfl (by simpa using opened.mem_of_endsWithBody rfl) lone
  | @word _ _ _ _ construct word =>
    rcases Construct.form_of_isWord word with form | form <;> rw [form] <;>
      exact .closed nofun nofun
  | simpleBody _ _ previous =>
    refine .ofParts nofun fun child opened lone => ?_
    cases opened with
    | statement member => exact previous _ child rfl (by simpa using member) lone
    | body ends _ => cases ends
  | elseBranch seen _ other =>
    intro role tree opened member lone
    cases opened
    exact other _ tree rfl (by simpa using member) lone
  | statement inExpression inSemicolon expression _ =>
    refine .ofParts nofun fun child opened lone => ?_
    cases opened with
    | body ends _ => cases ends
    | expression bare member =>
      cases inSemicolon with
      | present _ _ => exact absurd (List.mem_cons_of_mem _ List.mem_cons_self) (bare _)
      | absent _ =>
        rw [seesElse_settle]
        exact expression _ child rfl (by simpa using member) lone
  | block => exact .closed nofun nofun
  | _ => exact nofun

/-- An `if` that takes an `else` leaves no `if` without one at the open edge of its body. -/
theorem Built.not_endsLone_body {items : List Lexeme} {span : Span} {parts : List Part}
    (built : Built items (.node .ifElse span parts)) {keyword body : Tree}
    (taken : .child .elseKeyword keyword ∈ parts) (main : .child .body body ∈ parts) :
    ¬ body.EndsLone := by
  generalize shape : Tree.node .ifElse span parts = tree at built
  cases built with
  | @construct own _ _ _ _ _ _ _ _ run =>
    obtain ⟨_, _, rfl⟩ := run.form_of_construct
    cases own with
    | ifElse =>
      cases shape
      cases run with
      | ifElse _ inTop inMain inOther =>
        intro lone
        have inBody := (mem_branches inTop.isHead (by decide) main).resolve_right
          fun misplaced => by cases inOther.isElse.eq_role misplaced <;> contradiction
        have unseen := inMain.unseen _ body rfl inBody lone
        have inElse := (mem_branches inTop.isHead (by decide) taken).resolve_left
          fun misplaced => nomatch inMain.isSlot_body.eq_role misplaced
        cases inOther with
        | elseBranch seen _ =>
          rw [unseen] at seen
          cases seen
        | noElse _ => cases inElse
      | headed headed => cases headed
      | word word => cases word
    | _ => cases shape
  | statement _ run | list _ run | block _ run => cases run <;> cases shape
  | _ => cases shape

end Grammar

open Grammar

/-- **The `else` of an `if` is never behind an open `if` that could have taken it.** -/
theorem Reading.else_nearest {text : Text} {span lower : Span} {parts below : List Part}
    {keyword body : Tree} (within : (Tree.node .ifElse span parts).IsWithin (read text).tree)
    (taken : .child .elseKeyword keyword ∈ parts) (main : .child .body body ∈ parts)
    (edge : (Tree.node .ifElse lower below).OnOpenEdge body) :
    ∃ own, .child .elseKeyword own ∈ below := by
  by_contra bare
  exact (Reading.built within nofun _ .here).not_endsLone_body taken main
    ⟨lower, below, fun own inBelow => bare ⟨own, inBelow⟩, edge⟩

set_option maxRecDepth 2000 in
/-- In `if (a) if (b) c else d else e` the inner `if` took the first `else`. -/
theorem Reading.else_nearest_of_two : ∃ span parts keyword body lower below,
    (Tree.node .ifElse span parts).IsWithin (read "if (a) if (b) c else d else e".toList).tree
      ∧ .child .elseKeyword keyword ∈ parts ∧ .child .body body ∈ parts
      ∧ (Tree.node .ifElse lower below).OnOpenEdge body
      ∧ ∃ own, Part.child .elseKeyword own ∈ below :=
  have fifth {first second third fourth part : Part} {rest : List Part} :
      part ∈ first :: second :: third :: fourth :: part :: rest := by simp
  have sixth {first second third fourth fifth part : Part} {rest : List Part} :
      part ∈ first :: second :: third :: fourth :: fifth :: part :: rest := by simp
  have within := Tree.IsWithin.inside List.mem_cons_self (.inside List.mem_cons_self .here)
  have edge := .further (.statement List.mem_cons_self)
    (.further (.expression nofun List.mem_cons_self) .here)
  ⟨_, _, _, _, _, _, within, sixth, fifth, edge, Reading.else_nearest within sixth fifth edge⟩

end RSource
