/-
**Expressions end where the levels end.**

A slot of a node that is filled by an expression takes one level (`Form.nests`); every other child
is on the level of its node. `tree.Fits room` says that below a tree at most `room` levels are used
up, and that a token stands for an expression exactly where none is left. Main statement:
`Derives.fits`, what is read with some levels left fits into them, whatever was missing on the way.
-/

import RSource.Proofs.Grammar.Shape

namespace RSource

/-- Whether the child in a role is an expression inside that of its node. -/
def Form.nests : Form → Role → Bool
  | .statement, .expression => true
  | .group, .expression => true
  | .argument, .value => true
  | .ifElse, .condition => true
  | .whileLoop, .condition => true
  | .forLoop, .sequence => true
  | .operator applied, .right => !applied.isAccessor
  | _, _ => false

/-- The levels left to the children of a node that has one more. -/
def Form.room (form : Form) (levels : Nat) (role : Role) : Nat :=
  if form.nests role then levels else levels + 1

theorem Form.room_of_nests {form : Form} {role : Role} (nests : form.nests role = true)
    (levels : Nat) : form.room levels role = levels := if_pos nests

theorem Form.room_of_not_nests {form : Form} {role : Role} (flat : form.nests role = false)
    (levels : Nat) : form.room levels role = levels + 1 := by
  rw [Form.room, flat]
  rfl

/-- A tree that uses up its levels in tokens cut short and nowhere else. -/
inductive Tree.Fits : (room : Nat) → Tree → Prop where
  | leaf (levels : Nat) (lexeme : Lexeme) : Fits (levels + 1) (.leaf lexeme)
  | cut (lexeme : Lexeme) (skipped : List Lexeme) : Fits 0 (.cut lexeme skipped)
  | node {levels : Nat} {form : Form} {span : Span} {parts : List Part} :
      (∀ role tree, .child role tree ∈ parts → Fits (form.room levels role) tree) →
      (∀ found skipped, .problem found skipped ∈ parts → found.kind ≠ .nestingTooDeep) →
      Fits (levels + 1) (.node form span parts)

/-- A part that fits into the levels of its slot. -/
def Part.Fits (room : Role → Nat) : Part → Prop
  | .child role tree => tree.Fits (room role)
  | .problem found _ => found.kind ≠ .nestingTooDeep

@[simp] theorem Part.fits_child (room : Role → Nat) (role : Role) (tree : Tree) :
    (Part.child role tree).Fits room ↔ tree.Fits (room role) := Iff.rfl

@[simp] theorem Part.fits_problem (room : Role → Nat) (found : Problem) (skipped : List Lexeme) :
    (Part.problem found skipped).Fits room ↔ found.kind ≠ .nestingTooDeep := Iff.rfl

/-- A problem fits wherever it stands. -/
theorem Part.Fits.of_span? {part : Part} {room other : Role → Nat} (fits : part.Fits room)
    (none : part.span? = .none) : part.Fits other := by
  cases part with
  | child role tree => cases none
  | problem found skipped => exact fits

/-- A node fits if its parts do. -/
theorem Tree.fits_node {form : Form} {levels : Nat} {parts : List Part}
    (below : ∀ part ∈ parts, part.Fits (form.room levels)) (span : Span) :
    (node form span parts).Fits (levels + 1) :=
  .node (fun _ _ member => below _ member) fun _ _ member => below _ member

namespace Grammar

/-- The levels that are left to the slots a phrase fills. -/
def Phrase.Leaves (room : Role → Nat) : Phrase → Prop
  | .expected _ role problem => problem ≠ .nestingTooDeep ∧ 0 < room role
  | .optional _ role => 0 < room role
  | .expression levels _ role | .operand levels _ role => room role = levels
  | .chain levels _ role | .leading levels role | .postfixed levels role | .suffixed levels role
  | .primary levels role | .construct _ levels role | .body levels role
  | .arguments _ _ levels _ role | .statement levels role | .block levels role =>
    room role = levels + 1
  | .head built levels | .contents built levels _ => room = built.form.room levels
  | .elseBranch levels => room = Form.ifElse.room levels
  | .items _ _ levels => room = Form.argumentList.room levels
  | .item _ levels => room = Form.argument.room levels
  | .statements _ levels | .listing _ levels => room .statements = levels + 1

theorem fits_leafAt {levels : Nat} (left : 0 < levels) (mode : Mode) (cursor : Cursor Lexeme) :
    (leafAt mode cursor).Fits levels := by
  obtain ⟨levels, rfl⟩ := Nat.exists_eq_succ_of_ne_zero left.ne'
  exact .leaf levels _

/-- A node in a slot that leaves it a level for its children. -/
theorem fits_ofParts {room : Role → Nat} {role : Role} {levels : Nat} {form : Form}
    {parts : List Part} (left : room role = levels + 1)
    (below : ∀ part ∈ parts, part.Fits (form.room levels)) :
    ∀ part ∈ [Part.child role (.ofParts form parts)], part.Fits room := by
  rw [List.forall_mem_singleton, Part.fits_child, left]
  exact Tree.fits_node below _

/-- An argument list over its items. -/
theorem fits_listOf {room : Role → Nat} {role : Role} {levels anchor : Nat} {items : List Part}
    (left : room role = levels + 1)
    (below : ∀ part ∈ items, part.Fits (Form.argumentList.room levels)) :
    ∀ part ∈ [Part.child role (listOf anchor items)], part.Fits room := by
  rw [List.forall_mem_singleton, Part.fits_child, left]
  exact Tree.fits_node below _

/-- A single tree that fits into a slot fits into every slot of as many levels. -/
theorem fits_of_single {role : Role} {tree : Tree} {levels : Nat}
    (fits : ∀ room : Role → Nat, room role = levels →
      ∀ part ∈ [Part.child role tree], part.Fits room) : tree.Fits levels :=
  fits (fun _ => levels) rfl _ List.mem_cons_self

/-- A tree on the level of its node. -/
theorem fits_beside {form : Form} {role : Role} {levels : Nat} {tree : Tree}
    (flat : form.nests role = false) (fits : tree.Fits (levels + 1)) :
    (Part.child role tree).Fits (form.room levels) := by
  rwa [Part.fits_child, Form.room_of_not_nests flat]

/-- A token on the level of its node. -/
theorem fits_token {form : Form} {role : Role} (flat : form.nests role = false) (levels : Nat)
    (mode : Mode) (cursor : Cursor Lexeme) :
    (Part.child role (leafAt mode cursor)).Fits (form.room levels) :=
  fits_beside flat (.leaf levels _)

/-- An argument is an item on its list. -/
theorem fits_argument {levels : Nat} {item : List Part}
    (fits : ∀ part ∈ item, part.Fits (Form.argument.room levels)) :
    ∀ part ∈ [Part.child .argument (.ofParts .argument item)],
      part.Fits (Form.argumentList.room levels) :=
  fits_ofParts (Form.room_of_not_nests rfl levels) fits

/-- The operand of an operator is one level deeper. -/
theorem room_right {operator : Operator} (flat : operator.isAccessor = false) (levels : Nat) :
    (Form.operator operator).room levels .right = levels :=
  Form.room_of_nests (by rw [Form.nests, flat]; rfl) levels

/-- The member of an access is not. -/
theorem room_member {operator : Operator} (accesses : operator.isAccessor = true) (levels : Nat) :
    (Form.operator operator).room levels .right = levels + 1 :=
  Form.room_of_not_nests (by rw [Form.nests, accesses]; rfl) levels

/-- **What is read with some levels left fits into them.** -/
theorem Derives.fits {phrase : Phrase} {mode : Mode} {first last : Cursor Lexeme}
    {parts : List Part} (run : Derives phrase mode first parts last) :
    ∀ room, phrase.Leaves room → ∀ part ∈ parts, part.Fits room := by
  induction run with
  | found _ _ =>
    rintro room ⟨_, left⟩
    simpa using fits_leafAt left _ _
  | present _ _ =>
    intro room left
    simpa using fits_leafAt left _ _
  | missing _ =>
    rintro room ⟨other, _⟩
    simpa using other
  | absent | cutNothing | noPrimary | noElse | itemsStart | listingStart => exact fun _ _ => nofun
  | noOperand | noBody | unopened => simp
  | cutBracket | cutToken =>
    intro room left
    rw [List.forall_mem_singleton, Part.fits_child, show room _ = 0 from left]
    exact .cut _ _
  | noExpression _ previous | expression _ _ previous | chainStart _ previous
  | operand _ previous | unsigned _ _ previous | noPostfixed _ previous
  | postfixed _ _ previous | suffixedStart _ previous | blockPrimary _ _ previous
  | constructPrimary _ _ _ previous | blockBody _ _ previous | statements _ _ previous =>
    exact previous
  | atom _ =>
    intro room left
    simpa using fits_leafAt (Nat.lt_of_lt_of_eq (Nat.succ_pos _) left.symm) _ _
  | chainMore _ found _ left right =>
    have flat := (infixAt?_eq_some_iff.mp found).2.1
    intro room above
    refine fits_ofParts above ?_
    rw [List.forall_mem_cons, List.forall_mem_cons]
    exact ⟨fits_beside rfl (fits_of_single left), fits_token rfl _ _ _, right _ (room_right flat _)⟩
  | sign found _ right =>
    have flat := isAccessor_of_leadingOf? found
    intro room above
    refine fits_ofParts above ?_
    rw [List.forall_mem_cons]
    exact ⟨fits_token rfl _ _ _, right _ (room_right flat _)⟩
  | call _ _ _ _ function list close =>
    intro room above
    refine fits_ofParts above ?_
    rw [List.forall_mem_cons, List.forall_mem_cons, List.forall_mem_append]
    exact ⟨fits_beside rfl (fits_of_single function), fits_token rfl _ _ _, list _ rfl,
      close _ ⟨nofun, Nat.succ_pos _⟩⟩
  | @index _ _ _ _ _ _ _ _ _ _ delimiter _ _ _ _ _ target list close =>
    have other : ProblemKind.closerMissing delimiter ≠ .nestingTooDeep := by
      cases delimiter <;> nofun
    intro room above
    refine fits_ofParts above ?_
    rw [List.forall_mem_cons, List.forall_mem_cons, List.forall_mem_append]
    exact ⟨fits_beside rfl (fits_of_single target), fits_token rfl _ _ _, list _ rfl,
      close _ ⟨other, Nat.succ_pos _⟩⟩
  | access _ found _ target right =>
    have accesses := (accessorOf?_eq_some_iff.mp found).2
    intro room above
    refine fits_ofParts above ?_
    rw [List.forall_mem_cons, List.forall_mem_cons]
    exact ⟨fits_beside rfl (fits_of_single target), fits_token rfl _ _ _,
      right _ ⟨nofun, Nat.lt_of_lt_of_eq (Nat.succ_pos _) (room_member accesses _).symm⟩⟩
  | group _ _ _ inner close =>
    intro room above
    refine fits_ofParts above ?_
    rw [List.forall_mem_cons, List.forall_mem_append]
    exact ⟨fits_token rfl _ _ _, inner _ rfl, close _ ⟨nofun, Nat.succ_pos _⟩⟩
  | ifElse _ _ _ _ top main other =>
    intro room above
    refine fits_ofParts above ?_
    rw [List.forall_mem_cons, List.forall_mem_append, List.forall_mem_append]
    exact ⟨fits_token rfl _ _ _, ⟨top _ rfl, main _ rfl⟩, other _ rfl⟩
  | @headed _ _ _ _ _ _ _ _ construct headed _ _ _ top main =>
    -- In each of these forms the keyword and the body are on the level of the node.
    have keyword : construct.form.nests .keyword = false := by cases construct <;> rfl
    have body : construct.form.nests .body = false := by cases construct <;> rfl
    intro room above
    refine fits_ofParts above ?_
    rw [List.forall_mem_cons, List.forall_mem_append]
    exact ⟨fits_token keyword _ _ _, top _ rfl, main _ (Form.room_of_not_nests body _)⟩
  | repeatLoop _ _ main =>
    intro room above
    refine fits_ofParts above ?_
    rw [List.forall_mem_cons]
    exact ⟨fits_token rfl _ _ _, main _ rfl⟩
  | @word _ _ _ _ construct _ _ =>
    have keyword : construct.form.nests .keyword = false := by cases construct <;> rfl
    intro room above
    refine fits_ofParts above ?_
    rw [List.forall_mem_singleton]
    exact fits_token keyword _ _ _
  | @opened construct _ _ _ _ _ _ _ inner =>
    have brace : construct.form.nests .openBrace = false := by cases construct <;> rfl
    rintro _ rfl
    rw [List.forall_mem_cons]
    exact ⟨fits_token brace _ _ _, inner _ rfl⟩
  | @condition construct _ _ _ _ _ _ _ _ conditional _ _ tested close =>
    have inside : construct.form.nests .condition = true := by
      cases construct <;> first | rfl | cases conditional
    have brace : construct.form.nests .closeBrace = false := by cases construct <;> rfl
    rintro _ rfl
    rw [List.forall_mem_append]
    refine ⟨tested _ (Form.room_of_nests inside _), close _ ⟨nofun, ?_⟩⟩
    rw [Form.room_of_not_nests brace]
    exact Nat.succ_pos _
  | iteration _ _ _ _ counter link range close =>
    rintro _ rfl
    simp only [List.forall_mem_append]
    exact ⟨⟨⟨counter _ ⟨nofun, Nat.succ_pos _⟩, link _ ⟨nofun, Nat.succ_pos _⟩⟩, range _ rfl⟩,
      close _ ⟨nofun, Nat.succ_pos _⟩⟩
  | formals _ _ list close =>
    rintro _ rfl
    rw [List.forall_mem_append]
    exact ⟨list _ rfl, close _ ⟨nofun, Nat.succ_pos _⟩⟩
  | simpleBody _ _ previous =>
    intro room above
    refine fits_ofParts above ?_
    rw [List.forall_mem_singleton]
    exact fits_beside rfl (fits_of_single previous)
  | elseBranch _ _ other =>
    rintro _ rfl
    rw [List.forall_mem_cons]
    exact ⟨fits_token rfl _ _ _, other _ rfl⟩
  | itemsMore _ _ _ _ items item =>
    rintro _ rfl
    rw [List.forall_mem_append]
    refine ⟨items _ rfl, fits_argument ?_⟩
    rw [List.forall_mem_append, List.forall_mem_singleton]
    exact ⟨item _ rfl, fits_token rfl _ _ _⟩
  | closedList _ _ items =>
    intro room above
    exact fits_listOf above (items _ rfl)
  | lastItem _ _ _ _ _ items item =>
    intro room above
    exact fits_listOf above (List.forall_mem_append.mpr ⟨items _ rfl, fits_argument (item _ rfl)⟩)
  | noItem _ _ _ _ bare items item =>
    intro room above
    refine fits_listOf above (List.forall_mem_append.mpr ⟨items _ rfl, fun part member => ?_⟩)
    exact (item _ rfl part member).of_span? (span?_of_anyChild bare member)
  | named _ _ value | formalDefault _ _ _ value =>
    rintro _ rfl
    rw [List.forall_mem_cons, List.forall_mem_cons]
    exact ⟨fits_token rfl _ _ _, fits_token rfl _ _ _, value _ rfl⟩
  | unnamed _ _ value | emptyFormal _ _ value =>
    rintro _ rfl
    exact value _ rfl
  | formal _ _ =>
    rintro _ rfl
    rw [List.forall_mem_singleton]
    exact fits_token rfl _ _ _
  | misplacedFormal _ _ _ value =>
    rintro _ rfl
    rw [List.forall_mem_cons]
    exact ⟨nofun, value _ rfl⟩
  | noStatement _ _ => exact fun _ _ => nofun
  | statement _ _ expression semicolon =>
    intro room above
    refine fits_ofParts above ?_
    rw [List.forall_mem_cons]
    exact ⟨expression (Form.statement.room _) rfl _ List.mem_cons_self,
      semicolon _ (Nat.succ_pos _)⟩
  | block _ _ _ items close =>
    intro room above
    refine fits_ofParts above ?_
    rw [List.forall_mem_cons, List.forall_mem_append]
    exact ⟨fits_token rfl _ _ _, items _ rfl, close _ ⟨nofun, Nat.succ_pos _⟩⟩
  | stray _ _ _ listing | unreadable _ _ _ _ listing _ =>
    intro room above
    rw [List.forall_mem_append, List.forall_mem_singleton]
    exact ⟨listing _ above, nofun⟩
  | listed _ _ _ _ _ listing statement =>
    intro room above
    rw [List.forall_mem_append]
    exact ⟨listing _ above, statement _ above⟩
  | crowded _ _ _ _ _ listing statement =>
    intro room above
    rw [List.forall_mem_append, List.forall_mem_cons, List.forall_mem_singleton]
    exact ⟨listing _ above, statement _ above _ List.mem_cons_self, nofun⟩

end Grammar

open Grammar

/-- **The tree of a text uses up its levels in the tokens that are nested too deeply alone.** -/
theorem Reading.fits (text : Text) : (read text).tree.Fits (maxNesting + 1) := by
  obtain ⟨items, last, derivation⟩ := Reading.derivation text
  rw [derivation.tree]
  exact Tree.fits_node (derivation.derives.fits _ (Form.room_of_not_nests rfl maxNesting)) _

end RSource
