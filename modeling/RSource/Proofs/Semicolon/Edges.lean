/-
**Behind a semicolon a phrase ends or goes on.**

Where line breaks count, a phrase that takes a semicolon outside brackets and braces either ends
right behind it, or something in it looked at the next token and went on. Main statement:
`Derives.edges`, by induction on the productions; `Quiet` says what each phrase knows of the token
behind it when it ends.
-/

import RSource.Proofs.Grammar.Listed
import RSource.Proofs.Tree.Exposure

namespace RSource

open Grammar Reader

/-- Whether a token goes on with a statement behind an expression of it. -/
def extendsStatement (next : Lexeme) : Bool :=
  next.kind == .semicolon || opensList next.kind || (infixOf? next).isSome

namespace Grammar

open Reader Cursor

/-! ### Behind a semicolon -/

/-- What is known of the token behind a phrase. -/
def Quiet : Phrase → Mode → Cursor Lexeme → Prop
  | .expression _ minimum _, mode, last | .operand _ minimum _, mode, last =>
    extendsExpression (look mode last) = false ∧ infixAt? minimum (look mode last) = none
  | .chain _ _ _, mode, last | .leading _ _, mode, last | .postfixed _ _, mode, last =>
    extendsExpression (look mode last) = false
  | _, _, _ => True

/-- A phrase ended right behind a leaf. -/
structure EndsWith (phrase : Phrase) (mode : Mode) (last : Cursor Lexeme) (place : Exposure) :
    Prop where
  behind : place.behind = []
  previous : last.previous? = some place.lexeme
  quiet : Quiet phrase mode last
  noElse : place.endsBranch = true → seesElse mode last = false

/-- More was read behind a leaf. -/
structure GoesOn (items : List Lexeme) (mode : Mode) (place : Exposure) : Prop where
  behind : place.behind ≠ []
  next : ∃ cursor, IsOver items cursor ∧ cursor.previous? = some place.lexeme
    ∧ (extendsStatement (look mode cursor) = true
      ∨ place.endsBranch = true ∧ seesElse mode cursor = true)

/-- Behind a semicolon a phrase ended or went on. -/
def Ends (items : List Lexeme) (phrase : Phrase) (mode : Mode) (last : Cursor Lexeme)
    (place : Exposure) : Prop :=
  place.lexeme.kind = .semicolon → EndsWith phrase mode last place ∨ GoesOn items mode place

section Ends

variable {items more : List Lexeme} {phrase other : Phrase} {mode : Mode}
  {last further : Cursor Lexeme} {place : Exposure}

theorem Ends.mono (ends : Ends items phrase mode last place)
    (quiet : Quiet phrase mode last → Quiet other mode last) :
    Ends items other mode last place := by
  intro semicolon
  rcases ends semicolon with ended | goesOn
  · exact .inl ⟨ended.behind, ended.previous, quiet ended.quiet, ended.noElse⟩
  · exact .inr goesOn

theorem GoesOn.within (goesOn : GoesOn items mode place) (isBranch : Bool) (more : List Lexeme) :
    GoesOn items mode (place.within isBranch more) where
  behind := List.append_ne_nil_of_left_ne_nil goesOn.behind more
  next := by
    obtain ⟨cursor, covered, previous, next⟩ := goesOn.next
    refine ⟨cursor, covered, previous, next.imp_right fun branch => ⟨?_, branch.2⟩⟩
    rw [Exposure.within, branch.1, Bool.true_or]

/-- Where a phrase goes on behind a part of it, it goes on behind the leaf that ended the part. -/
theorem Ends.followed (ends : Ends items phrase mode last place) (covered : IsOver items last)
    (nonempty : more ≠ []) (next : extendsStatement (look mode last) = true) :
    Ends items other mode further (place.within false more) := by
  intro semicolon
  rcases ends semicolon with ended | goesOn
  · refine .inr ⟨List.append_ne_nil_of_right_ne_nil _ nonempty, last, covered, ended.previous, ?_⟩
    exact .inl next
  · exact .inr (goesOn.within false more)

/-- Only other leaves than semicolons. -/
theorem ends_of_kind (other : place.lexeme.kind ≠ .semicolon) :
    Ends items phrase mode last place := fun semicolon => absurd semicolon other

end Ends

/-! ### Parts without semicolons -/

/-- Parts of a node in which no semicolon is exposed. -/
def IsPlain (form : Form) (parts : List Part) : Prop :=
  ∀ place ∈ Tree.partsExposed form parts, place.lexeme.kind ≠ .semicolon

section IsPlain

variable {form : Form} {mode : Mode} {first last : Cursor Lexeme} {parts : List Part} {role : Role}

theorem isPlain_nil : IsPlain form [] := nofun

theorem isPlain_problem (found : Problem) (skipped : List Lexeme) :
    IsPlain form [.problem found skipped] := nofun

theorem isPlain_append {left right : List Part} (early : IsPlain form left)
    (late : IsPlain form right) : IsPlain form (left ++ right) := by
  intro place member
  rcases Tree.mem_partsExposed_append.mp member with ⟨inner, inLeft, rfl⟩ | inRight
  · exact early inner inLeft
  · exact late place inRight

theorem lexeme_of_mem_leaf {more : List Lexeme} {lexeme : Lexeme} {place : Exposure}
    (member : place ∈ Tree.partExposed form more (.child role (.leaf lexeme))) :
    place.lexeme = lexeme := by
  obtain ⟨_, inner, inside, rfl⟩ := Tree.mem_partExposed_child.mp member
  rw [List.mem_singleton.mp inside]
  rfl

theorem isPlain_cons {lexeme : Lexeme} (other : lexeme.kind ≠ .semicolon)
    (late : IsPlain form parts) : IsPlain form (.child role (.leaf lexeme) :: parts) := by
  intro place member
  rcases List.mem_append.mp member with here | behind
  · rwa [lexeme_of_mem_leaf here]
  · exact late place behind

/-- Nothing is exposed between brackets. -/
theorem isPlain_enclosed {tree : Tree} (enclosed : form.encloses role = true) :
    IsPlain form [.child role tree] := by
  intro place member
  rw [Tree.partsExposed_cons, Tree.partsExposed_nil, List.append_nil] at member
  rw [(Tree.mem_partExposed_child.mp member).1] at enclosed
  cases enclosed

theorem Derives.isPlain_expected {accepts : Lexeme → Bool} {problem : ProblemKind}
    (run : Derives (.expected accepts role problem) mode first parts last)
    (other : ∀ lexeme, accepts lexeme = true → lexeme.kind ≠ .semicolon) : IsPlain form parts := by
  cases run with
  | found accepted _ => exact isPlain_cons (other _ accepted) isPlain_nil
  | missing _ => exact isPlain_problem _ _

theorem Derives.isPlain_closing {kind : TokenKind} {problem : ProblemKind}
    (run : Derives (.expected (isOfKind kind) role problem) mode first parts last)
    (other : kind ≠ .semicolon) : IsPlain form parts := by
  refine run.isPlain_expected fun lexeme accepted => ?_
  rw [eq_of_beq (show (lexeme.kind == kind) = true from accepted)]
  exact other

theorem Derives.isPlain_operand {levels minimum : Nat}
    (run : Derives (.operand levels minimum role) mode first parts last)
    (enclosed : form.encloses role = true) : IsPlain form parts := by
  cases run with
  | operand _ => exact isPlain_enclosed enclosed
  | noOperand _ => exact isPlain_problem _ _

theorem Derives.isPlain_arguments {style : ArgumentStyle} {delimiter : Delimiter}
    {levels anchor : Nat}
    (run : Derives (.arguments style delimiter levels anchor role) mode first parts last)
    (enclosed : form.encloses role = true) : IsPlain form parts := by
  cases run <;> exact isPlain_enclosed enclosed

theorem encloses_of_role (form : Form) :
    form.encloses .condition = true ∧ form.encloses .sequence = true
      ∧ form.encloses .arguments = true ∧ form.encloses .formals = true := by
  cases form <;> exact ⟨rfl, rfl, rfl, rfl⟩

theorem kind_ne_semicolon_of_isKeyword {lexeme : Lexeme} {word : Text}
    (found : lexeme.isKeyword word = true) : lexeme.kind ≠ .semicolon := by
  rw [Lexeme.isKeyword, Bool.and_eq_true, beq_iff_eq] at found
  rw [found.1]
  decide

/-- The head of a construct is between parentheses. -/
theorem Derives.isPlain_head {construct : Construct} {levels : Nat}
    (run : Derives (.head construct levels) mode first parts last) : IsPlain form parts := by
  obtain ⟨condition, sequence, _, formals⟩ := encloses_of_role form
  cases run with
  | unopened _ => exact isPlain_problem _ _
  | opened opened inner =>
    refine isPlain_cons (by rw [opened]; nofun) ?_
    cases inner with
    | condition _ tested close =>
      exact isPlain_append (tested.isPlain_operand condition) (close.isPlain_closing nofun)
    | iteration counter link range close =>
      refine isPlain_append (isPlain_append (isPlain_append ?_ ?_) ?_) ?_
      · exact counter.isPlain_closing nofun
      · exact link.isPlain_expected fun _ => kind_ne_semicolon_of_isKeyword
      · exact range.isPlain_operand sequence
      · exact close.isPlain_closing nofun
    | formals list close =>
      exact isPlain_append (list.isPlain_arguments formals) (close.isPlain_closing nofun)

end IsPlain

/-! ### The invariant -/

/-- Behind each semicolon that the tree of a phrase exposes, the phrase ended or went on. -/
def TreeEdges (items : List Lexeme) (phrase : Phrase) (mode : Mode) (parts : List Part)
    (last : Cursor Lexeme) : Prop :=
  ∀ role tree, parts = [.child role tree] →
    ∀ place ∈ tree.exposed, Ends items phrase mode last place

/-- What holds behind the semicolons of each phrase. -/
def Edges (items : List Lexeme) (phrase : Phrase) (mode : Mode) (first : Cursor Lexeme)
    (parts : List Part) (last : Cursor Lexeme) : Prop :=
  match phrase with
  | .expected _ _ _ | .optional _ _ | .head _ _ | .contents _ _ _ | .arguments _ _ _ _ _
  | .items _ _ _ | .item _ _ | .statements _ _ | .listing _ _ => True
  | .construct _ _ _ =>
    (look mode first).kind = .keyword → TreeEdges items phrase mode parts last
  | .elseBranch _ => ∀ place ∈ Tree.partsExposed .ifElse parts, Ends items phrase mode last place
  | _ => TreeEdges items phrase mode parts last

section TreeEdges

variable {items more : List Lexeme} {phrase other : Phrase} {mode : Mode}
  {last further : Cursor Lexeme} {parts : List Part} {role own : Role} {tree : Tree} {form : Form}

theorem TreeEdges.mono (edges : TreeEdges items phrase mode parts last)
    (quiet : Quiet phrase mode last → Quiet other mode last) :
    TreeEdges items other mode parts last :=
  fun role tree same place member => (edges role tree same place member).mono quiet

/-- So it is where the tree is the last part of a node. -/
theorem TreeEdges.atEnd (edges : TreeEdges items phrase mode parts last)
    (single : IsSingle role parts) (plain : form.branches role = false) :
    ∀ place ∈ Tree.partsExposed form parts, Ends items phrase mode last place := by
  rcases single with ⟨tree, rfl⟩ | ⟨found, rfl⟩
  · intro place member
    rw [Tree.partsExposed_cons, Tree.partsExposed_nil, List.append_nil] at member
    obtain ⟨_, inner, inside, rfl⟩ := Tree.mem_partExposed_child.mp member
    rw [plain, Tree.partsLeaves_nil, Exposure.within_nil]
    exact edges role tree rfl inner inside
  · nofun

/-- Where more of the node follows, it goes on. -/
theorem TreeEdges.followed (edges : TreeEdges items phrase mode [.child role tree] last)
    (covered : IsOver items last) (plain : form.branches own = false) (nonempty : more ≠ [])
    (next : extendsStatement (look mode last) = true) :
    ∀ place ∈ Tree.partExposed form more (.child own tree),
      Ends items other mode further place := by
  intro place member
  obtain ⟨_, inner, inside, rfl⟩ := Tree.mem_partExposed_child.mp member
  rw [plain]
  exact (edges role tree rfl inner inside).followed covered nonempty next

theorem IsPlain.ends (plain : IsPlain form parts) :
    ∀ place ∈ Tree.partsExposed form parts, Ends items phrase mode last place :=
  fun place member => ends_of_kind (plain place member)

theorem ends_of_leaf {lexeme : Lexeme} (kind : lexeme.kind ≠ .semicolon) :
    ∀ place ∈ Tree.partExposed form more (.child role (.leaf lexeme)),
      Ends items phrase mode last place := by
  intro place member
  refine ends_of_kind ?_
  rwa [lexeme_of_mem_leaf member]

end TreeEdges

theorem kind_ne_semicolon_of_endsNesting {lexeme : Lexeme}
    (goesOn : endsNesting lexeme.kind = false) : lexeme.kind ≠ .semicolon := by
  intro found
  rw [found] at goesOn
  cases goesOn

theorem kind_ne_semicolon_of_isAtom {lexeme : Lexeme} (atom : isAtom lexeme = true) :
    lexeme.kind ≠ .semicolon := by
  intro found
  rw [isAtom, found] at atom
  cases atom

theorem kind_ne_semicolon_of_isMember {lexeme : Lexeme} (member : isMember lexeme = true) :
    lexeme.kind ≠ .semicolon := by
  intro found
  rw [isMember, found] at member
  cases member

theorem kind_ne_semicolon_of_operator {lexeme : Lexeme} (operator : lexeme.kind = .operator) :
    lexeme.kind ≠ .semicolon := by
  rw [operator]
  nofun

theorem extendsStatement_of_kind {lexeme : Lexeme} {kind : TokenKind} (found : lexeme.kind = kind)
    (goesOn : (kind == .semicolon || opensList kind) = true) : extendsStatement lexeme = true := by
  rw [extendsStatement, found, goesOn, Bool.true_or]

theorem extendsStatement_of_infixOf? {lexeme : Lexeme} {operator : Operator}
    (found : infixOf? lexeme = some operator) : extendsStatement lexeme = true := by
  rw [extendsStatement, found, Option.isSome_some, Bool.or_true]

/-- A semicolon of a statement itself has nothing behind it. -/
theorem eq_of_mem_semicolon {lexeme : Lexeme} {place : Exposure}
    (member : place ∈ Tree.partsExposed .statement [.child .semicolon (.leaf lexeme)]) :
    place = ⟨lexeme, [], false⟩ := by
  rw [Tree.partsExposed_cons, Tree.partsExposed_nil, List.append_nil] at member
  obtain ⟨_, inner, inside, rfl⟩ := Tree.mem_partExposed_child.mp member
  rw [List.mem_singleton.mp inside]
  rfl

/-- Past a token it is the previous one. -/
theorem IsOver.previous?_past {items : List Lexeme} {mode : Mode} {cursor : Cursor Lexeme}
    (covered : IsOver items cursor) (readable : (look mode cursor).isReadable = true) :
    (Grammar.past mode cursor).previous? = some (look mode cursor) := by
  have marked := (covered.settle mode).marked
  rw [look] at readable
  rw [look, Grammar.past]
  generalize Reader.settle mode cursor = here at *
  obtain ⟨passed, rest, mark⟩ := here
  cases rest with
  | nil =>
    rw [Cursor.current, List.headD_nil, Lexeme.isReadable, marked] at readable
    simp at readable
  | cons => rfl

/-- The branch of an `if` ends where no `else` follows; else it goes on. -/
theorem Ends.branch {items : List Lexeme} {levels : Nat} {phrase : Phrase} {construct : Construct}
    {role : Role} {mode : Mode} {third last : Cursor Lexeme} {other : List Part}
    {place : Exposure} (ends : Ends items phrase mode third place) (covered : IsOver items third)
    (run : Derives (.elseBranch levels) mode third other last) :
    Ends items (.construct construct levels role) mode last
      (place.within true (Tree.partsLeaves other)) := by
  intro semicolon
  rcases ends semicolon with ended | goesOn
  · cases run with
    | noElse unseen =>
      refine .inl ⟨?_, ended.previous, trivial, fun _ => unseen⟩
      rw [Exposure.within, ended.behind]
      rfl
    | elseBranch seen _ =>
      refine .inr ⟨?_, third, covered, ended.previous, .inr ⟨?_, seen⟩⟩
      · rw [Exposure.within, ended.behind]
        exact List.cons_ne_nil _ _
      · rw [Exposure.within, ended.behind]
        exact Bool.or_true _
  · exact .inr (goesOn.within true _)

/-- **Behind each exposed semicolon a phrase ended or went on.** -/
theorem Derives.edges {items : List Lexeme} {phrase : Phrase} {mode : Mode}
    {first last : Cursor Lexeme} {parts : List Part} (run : Derives phrase mode first parts last)
    (lined : mode.lineBreaksIgnored = false) (covered : IsOver items first) :
    Edges items phrase mode first parts last := by
  induction run with
  | cutNothing | noExpression | noPostfixed | noPrimary | noStatement | noOperand | noBody =>
    intro role tree same
    cases same
  | cutBracket goesOn _ | cutToken goesOn _ =>
    intro role tree same place member
    cases same
    refine ends_of_kind ?_
    rw [List.mem_singleton.mp member]
    exact kind_ne_semicolon_of_endsNesting goesOn
  | expression _ ended previous =>
    rw [settle_of_lined lined]
    exact (previous lined covered).mono fun quiet => ⟨quiet, ended⟩
  | chainStart _ previous | operand _ previous => exact (previous lined covered).mono id
  | suffixedStart _ previous => exact (previous lined covered).mono fun _ => trivial
  | chainMore before found behind ofLeft ofRight =>
    have second := before.isOver covered
    have infixOf := (infixAt?_eq_some_iff.mp found).1
    intro role tree same place member
    cases same
    rcases List.mem_append.mp member with inLeft | further
    · exact (ofLeft lined covered).followed second rfl (List.cons_ne_nil _ _)
        (extendsStatement_of_infixOf? infixOf) place inLeft
    rcases List.mem_append.mp further with inSign | inRight
    · exact ends_of_leaf (kind_ne_semicolon_of_operator (kind_of_infixOf? infixOf)) place inSign
    · refine TreeEdges.atEnd ?_ behind.isSingle_operand rfl place inRight
      exact (ofRight lined (second.past _).beyond).mono And.left
  | sign found behind ofRight =>
    intro role tree same place member
    cases same
    rcases List.mem_append.mp member with inSign | inRight
    · exact ends_of_leaf (kind_ne_semicolon_of_operator (kind_of_leadingOf? found)) place inSign
    · refine TreeEdges.atEnd ?_ behind.isSingle_operand rfl place inRight
      exact (ofRight lined (covered.past _).beyond).mono And.left
  | unsigned _ _ previous => exact (previous lined (covered.settle _)).mono id
  | postfixed _ stops previous =>
    rw [settle_of_lined lined]
    exact (previous lined covered).mono fun _ => stops
  | call before opened list close ofFunction _ _ =>
    have second := before.isOver covered
    intro role tree same place member
    cases same
    rcases List.mem_append.mp member with inFunction | further
    · exact (ofFunction lined covered).followed second rfl (List.cons_ne_nil _ _)
        (extendsStatement_of_kind opened rfl) place inFunction
    · refine IsPlain.ends (isPlain_cons (by rw [opened]; nofun) ?_) place further
      exact isPlain_append (list.isPlain_arguments rfl) (close.isPlain_closing nofun)
  | @index _ _ _ _ _ _ _ _ _ _ delimiter before square opened list close ofTarget _ _ =>
    have second := before.isOver covered
    have kinds : (delimiter.opener == .semicolon || opensList delimiter.opener) = true
        ∧ delimiter.opener ≠ .semicolon ∧ delimiter.closer ≠ .semicolon := by
      rcases square with rfl | rfl <;> decide
    intro role tree same place member
    cases same
    rcases List.mem_append.mp member with inTarget | further
    · exact (ofTarget lined covered).followed second rfl (List.cons_ne_nil _ _)
        (extendsStatement_of_kind opened kinds.1) place inTarget
    · refine IsPlain.ends (isPlain_cons (by rw [opened]; exact kinds.2.1) ?_) place further
      exact isPlain_append (list.isPlain_arguments rfl) (close.isPlain_closing kinds.2.2)
  | access before found inRight ofTarget _ =>
    have second := before.isOver covered
    have infixOf := (accessorOf?_eq_some_iff.mp found).1
    intro role tree same place member
    cases same
    rcases List.mem_append.mp member with inTarget | further
    · exact (ofTarget lined covered).followed second rfl (List.cons_ne_nil _ _)
        (extendsStatement_of_infixOf? infixOf) place inTarget
    · refine IsPlain.ends
        (isPlain_cons (kind_ne_semicolon_of_operator (kind_of_infixOf? infixOf)) ?_) place further
      exact inRight.isPlain_expected fun _ => kind_ne_semicolon_of_isMember
  | atom found =>
    intro role tree same place member
    cases same
    refine ends_of_kind ?_
    rw [List.mem_singleton.mp member]
    exact kind_ne_semicolon_of_isAtom found
  | group opened inner close =>
    intro role tree same place member
    cases same
    refine IsPlain.ends (isPlain_cons (by rw [opened]; nofun) ?_) place member
    exact isPlain_append (inner.isPlain_operand rfl) (close.isPlain_closing nofun)
  | blockPrimary _ _ previous => exact (previous lined (covered.settle _)).mono id
  | constructPrimary keyword _ _ previous =>
    exact (previous lined (covered.settle _) (by rw [look_settle]; exact keyword)).mono id
  | @ifElse _ _ mode _ _ _ _ _ _ _ _ inHead inMain tail _ ofMain ofOther =>
    have behindHead := inHead.isOver (covered.past mode)
    have behindMain := inMain.isOver behindHead
    intro keyword role tree same place member
    cases same
    rcases List.mem_append.mp member with inKeyword | further
    · exact ends_of_leaf (by rw [keyword]; nofun) place inKeyword
    rcases Tree.mem_partsExposed_append.mp further with ⟨inner, early, rfl⟩ | inOther
    · rcases Tree.mem_partsExposed_append.mp early with ⟨deeper, inTop, rfl⟩ | inBody
      · exact ends_of_kind (inHead.isPlain_head deeper inTop)
      · -- This body is the branch that an `else` may follow.
        rcases inMain.isSingle_body with ⟨tree, rfl⟩ | ⟨_, rfl⟩
        · rw [Tree.partsExposed_cons, Tree.partsExposed_nil, List.append_nil] at inBody
          obtain ⟨_, deeper, inside, rfl⟩ := Tree.mem_partExposed_child.mp inBody
          rw [Exposure.within_within]
          exact (ofMain lined behindHead _ _ rfl deeper inside).branch behindMain tail
        · exact absurd inBody List.not_mem_nil
    · exact (ofOther lined behindMain place inOther).mono fun _ => trivial
  | @headed _ _ mode _ _ _ _ _ construct headed _ inHead inMain _ ofMain =>
    have plain : construct.form.branches .body = false := by
      cases construct <;> first | rfl | cases headed
    intro keyword role tree same place member
    cases same
    rcases List.mem_append.mp member with inKeyword | further
    · exact ends_of_leaf (by rw [keyword]; nofun) place inKeyword
    rcases Tree.mem_partsExposed_append.mp further with ⟨inner, inTop, rfl⟩ | inBody
    · exact ends_of_kind (inHead.isPlain_head inner inTop)
    · refine TreeEdges.atEnd ?_ inMain.isSingle_body plain place inBody
      exact (ofMain lined (inHead.isOver (covered.past mode))).mono fun _ => trivial
  | repeatLoop _ inMain ofMain =>
    intro keyword role tree same place member
    cases same
    rcases List.mem_append.mp member with inKeyword | inBody
    · exact ends_of_leaf (by rw [keyword]; nofun) place inKeyword
    · refine TreeEdges.atEnd ?_ inMain.isSingle_body rfl place inBody
      exact (ofMain lined (covered.past _)).mono fun _ => trivial
  | word =>
    intro keyword role tree same place member
    cases same
    exact (isPlain_cons (by rw [keyword]; nofun) isPlain_nil).ends place member
  | blockBody _ _ previous => exact (previous lined (covered.beyond.settle _)).mono id
  | simpleBody _ _ previous =>
    intro role tree same place member
    cases same
    refine TreeEdges.atEnd ?_ (.inl ⟨_, rfl⟩) rfl place member
    exact (previous lined (covered.beyond.settle _)).mono fun _ => trivial
  | elseBranch seen inOther ofOther =>
    intro place member
    rcases List.mem_append.mp member with inKeyword | inBody
    · refine ends_of_leaf ?_ place inKeyword
      exact kind_ne_semicolon_of_isKeyword (look_beyond_of_seesElse seen)
    · refine TreeEdges.atEnd ?_ inOther.isSingle_body rfl place inBody
      exact (ofOther lined (covered.beyond.past _)).mono fun _ => trivial
  | noElse => nofun
  | statement before ends ofExpression _ =>
    have second := before.isOver covered
    intro role tree same place member
    cases same
    rcases List.mem_append.mp member with inExpression | inSemicolon
    · cases ends with
      | absent _ =>
        rw [settle_of_lined lined]
        refine TreeEdges.atEnd ?_ (.inl ⟨_, rfl⟩) rfl place (List.mem_append_left [] inExpression)
        exact (ofExpression lined covered).mono fun _ => trivial
      | present found _ =>
        exact (ofExpression lined covered).followed second rfl (List.cons_ne_nil _ _)
          (extendsStatement_of_kind (eq_of_beq found) rfl) place inExpression
    · cases ends with
      | absent _ => exact absurd inSemicolon List.not_mem_nil
      | present _ readable =>
        rw [eq_of_mem_semicolon inSemicolon]
        exact fun _ => .inl ⟨rfl, second.previous?_past readable, trivial, nofun⟩
  | block _ _ _ =>
    intro role tree same place member
    cases same
    rw [Tree.exposed_scope] at member
    exact absurd member List.not_mem_nil
  | _ => trivial

end Grammar

end RSource
