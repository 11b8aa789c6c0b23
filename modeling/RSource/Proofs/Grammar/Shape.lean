/-
**What the nodes of each form are made of.**

A slot of a node is filled by one tree, or the problem that it is missing stands in its place
(`IsSlot`). `Form.Takes` lists, form by form, the parts a node may have. Main statement:
`Reading.shaped`, every node that is read has the parts of its form.
-/

import RSource.Proofs.Grammar.Built
import RSource.Proofs.Operator

namespace RSource

/-- One tree in a role, or the problem that it is missing. -/
inductive IsSlot (role : Role) (kind : ProblemKind) : List Part → Prop where
  | filled (tree : Tree) : IsSlot role kind [.child role tree]
  | empty (token : Token) : IsSlot role kind [.problem ⟨kind, token⟩ []]

/-- A tree in a role, or a problem that leaves no slot empty. -/
inductive Part.IsEntry (role : Role) (kind : ProblemKind) : Part → Prop where
  | child (tree : Tree) : IsEntry role kind (.child role tree)
  | problem (token : Token) (skipped : List Lexeme) :
      IsEntry role kind (.problem ⟨kind, token⟩ skipped)

/-- A part of an argument. -/
def Part.IsArgumentEntry (part : Part) : Prop :=
  ∃ role ∈ [Role.name, .equals, .value, .comma], part.IsEntry role .identifierExpected

/-- What is left of an argument that holds no tree are problems. -/
theorem Part.IsArgumentEntry.isEntry {part : Part} (here : part.IsArgumentEntry)
    (none : part.span? = .none) : part.IsEntry .argument .identifierExpected := by
  obtain ⟨role, _, entry⟩ := here
  cases entry with
  | child tree => cases none
  | problem token skipped => exact .problem token skipped

/-- What stands between the parentheses in the head of a construct. -/
inductive IsContents : Form → List Part → Prop where
  | condition {form : Form} {tested : List Part} : form = .ifElse ∨ form = .whileLoop →
      IsSlot .condition .operandExpected tested → IsContents form tested
  | iteration {counter link range : List Part} :
      IsSlot .loopVariable .identifierExpected counter →
      IsSlot .inKeyword .inKeywordExpected link → IsSlot .sequence .operandExpected range →
      IsContents .forLoop (counter ++ link ++ range)
  | formals (list : Tree) : IsContents .functionDefinition [.child .formals list]

/-- The head of a construct. -/
inductive IsHead (form : Form) : List Part → Prop where
  | opened (opening : Tree) {inner close : List Part} : IsContents form inner →
      IsSlot .closeBrace .closeBraceExpected close →
      IsHead form (.child .openBrace opening :: (inner ++ close))
  | unopened (token : Token) : IsHead form [.problem ⟨.openBraceExpected, token⟩ []]

/-- The `else` of an `if`, if there is one. -/
inductive IsElse : List Part → Prop where
  | none : IsElse []
  | some (keyword : Tree) {other : List Part} : IsSlot .elseBody .statementExpected other →
      IsElse (.child .elseKeyword keyword :: other)

/-- The parts that a node of a form has. -/
inductive Form.Takes : Form → List Part → Prop where
  | globalScope {items : List Part} : (∀ part ∈ items, part.IsEntry .statements .unexpectedToken) →
      Takes .globalScope items
  | scope (opening : Tree) {items close : List Part} :
      (∀ part ∈ items, part.IsEntry .statements .unexpectedToken) →
      IsSlot .closeCurly .closeBraceExpected close →
      Takes .scope (.child .openCurly opening :: (items ++ close))
  | simpleScope (statement : Tree) : Takes .simpleScope [.child .statement statement]
  | statement (expression : Tree) : Takes .statement [.child .expression expression]
  | ended (expression semicolon : Tree) :
      Takes .statement [.child .expression expression, .child .semicolon semicolon]
  | sign (sign : Tree) {operator : Operator} {right : List Part} : operator.isAccessor = false →
      IsSlot .right .operandExpected right →
      Takes (.operator operator) (.child .operator sign :: right)
  | between (left sign : Tree) {operator : Operator} {right : List Part} :
      operator.isAccessor = false → IsSlot .right .operandExpected right →
      Takes (.operator operator) (.child .left left :: .child .operator sign :: right)
  | access (left sign : Tree) {operator : Operator} {right : List Part} :
      operator.isAccessor = true → IsSlot .right .identifierExpected right →
      Takes (.operator operator) (.child .left left :: .child .operator sign :: right)
  | group (opening : Tree) {inner close : List Part} :
      IsSlot .expression .operandExpected inner → IsSlot .closeBrace .closeBraceExpected close →
      Takes .group (.child .openBrace opening :: (inner ++ close))
  | call (function opening list : Tree) {close : List Part} :
      IsSlot .closeBrace .closeBraceExpected close →
      Takes .call (.child .function function :: .child .openBrace opening ::
        .child .arguments list :: close)
  | index (target list : Tree) {opening : Lexeme} {delimiter : Delimiter} {close : List Part} :
      delimiter = .squareBracket ∨ delimiter = .doubleSquareBracket →
      opening.kind = delimiter.opener →
      IsSlot .closeBracket (.closerMissing delimiter) close →
      Takes .index (.child .target target :: .child .openBracket (.leaf opening) ::
        .child .arguments list :: close)
  | argumentList {items : List Part} :
      (∀ part ∈ items, part.IsEntry .argument .identifierExpected) → Takes .argumentList items
  | argument {items : List Part} :
      (∀ part ∈ items, part.IsArgumentEntry) → Takes .argument items
  | headed (form : Form) (keyword : Tree) {top main : List Part} :
      form = .forLoop ∨ form = .whileLoop ∨ form = .functionDefinition → IsHead form top →
      IsSlot .body .statementExpected main →
      Takes form (.child .keyword keyword :: (top ++ main))
  | ifElse (keyword : Tree) {top main other : List Part} : IsHead .ifElse top →
      IsSlot .body .statementExpected main → IsElse other →
      Takes .ifElse (.child .keyword keyword :: (top ++ main ++ other))
  | repeatLoop (keyword : Tree) {main : List Part} : IsSlot .body .statementExpected main →
      Takes .repeatLoop (.child .keyword keyword :: main)
  | word (form : Form) (keyword : Tree) : form = .breakLoop ∨ form = .nextRound →
      Takes form [.child .keyword keyword]

/-- A tree is a token, or a node with the parts of its form. -/
def Tree.IsShaped : Tree → Prop
  | .node form _ parts => form.Takes parts
  | _ => True

namespace Grammar

open Reader Cursor

/-! ### Single phrases -/

theorem Construct.form_of_isHeaded {construct : Construct} (headed : construct.isHeaded = true) :
    construct.form = .forLoop ∨ construct.form = .whileLoop
      ∨ construct.form = .functionDefinition := by
  cases construct <;> simp_all [Construct.isHeaded, Construct.form]

theorem Construct.form_of_isWord {construct : Construct} (word : construct.isWord = true) :
    construct.form = .breakLoop ∨ construct.form = .nextRound := by
  cases construct <;> simp_all [Construct.isWord, Construct.form]

section Phrases

variable {mode : Mode} {first last : Cursor Lexeme} {parts : List Part} {role : Role}
  {levels : Nat}

theorem Derives.isSlot_expected {accepts : Lexeme → Bool} {problem : ProblemKind}
    (run : Derives (.expected accepts role problem) mode first parts last) :
    IsSlot role problem parts := by
  cases run with
  | found _ _ => exact .filled _
  | missing _ => exact .empty _

theorem Derives.isSlot_operand {minimum : Nat}
    (run : Derives (.operand levels minimum role) mode first parts last) :
    IsSlot role .operandExpected parts := by
  cases run with
  | operand _ => exact .filled _
  | noOperand _ => exact .empty _

theorem Derives.isSlot_body (run : Derives (.body levels role) mode first parts last) :
    IsSlot role .statementExpected parts := by
  cases run with
  | blockBody _ block =>
    cases block
    exact .filled _
  | simpleBody _ _ => exact .filled _
  | noBody _ _ => exact .empty _

theorem Derives.isElse (run : Derives (.elseBranch levels) mode first parts last) :
    IsElse parts := by
  cases run with
  | elseBranch _ other => exact .some _ other.isSlot_body
  | noElse _ => exact .none

theorem Derives.exists_list {style : ArgumentStyle} {delimiter : Delimiter} {anchor : Nat}
    (run : Derives (.arguments style delimiter levels anchor role) mode first parts last) :
    ∃ tree, parts = [.child role tree] := by
  cases run <;> exact ⟨_, rfl⟩

theorem Derives.isHead {construct : Construct}
    (run : Derives (.head construct levels) mode first parts last) :
    IsHead construct.form parts := by
  cases run with
  | unopened _ => exact .unopened _
  | opened _ contents =>
    cases contents with
    | condition tests tested close =>
      refine .opened _ (.condition ?_ tested.isSlot_operand) close.isSlot_expected
      cases construct <;> simp_all [Construct.hasCondition, Construct.form]
    | iteration counter link range close =>
      exact .opened _ (.iteration counter.isSlot_expected link.isSlot_expected range.isSlot_operand)
        close.isSlot_expected
    | formals list close =>
      obtain ⟨tree, rfl⟩ := list.exists_list
      exact .opened _ (.formals tree) close.isSlot_expected

/-- An expression is a tree in its role or nothing. -/
theorem Derives.eq_nil_or_single {minimum : Nat}
    (run : Derives (.expression levels minimum role) mode first parts last) :
    parts = [] ∨ ∃ tree, parts = [.child role tree] := by
  cases run with
  | cutNothing _ | noExpression _ => exact .inl rfl
  | cutBracket _ _ | cutToken _ _ | expression _ _ => exact .inr ⟨_, rfl⟩

theorem Derives.isArgumentEntry_value {minimum : Nat}
    (run : Derives (.expression levels minimum .value) mode first parts last) :
    ∀ part ∈ parts, part.IsArgumentEntry := by
  rcases run.eq_nil_or_single with rfl | ⟨tree, rfl⟩
  · exact nofun
  · rw [List.forall_mem_singleton]
    exact ⟨.value, by simp, .child tree⟩

theorem Derives.isArgumentEntry_item {style : ArgumentStyle}
    (run : Derives (.item style levels) mode first parts last) :
    ∀ part ∈ parts, part.IsArgumentEntry := by
  have name (tree : Tree) : (Part.child .name tree).IsArgumentEntry := ⟨.name, by simp, .child tree⟩
  have equals (tree : Tree) : (Part.child .equals tree).IsArgumentEntry :=
    ⟨.equals, by simp, .child tree⟩
  cases run with
  | named _ value | formalDefault _ _ value =>
    simpa [name, equals] using value.isArgumentEntry_value
  | unnamed _ value | emptyFormal _ value => exact value.isArgumentEntry_value
  | formal _ _ => simpa using name _
  | misplacedFormal _ _ value =>
    rw [List.forall_mem_cons]
    exact ⟨⟨.name, by simp, .problem _ _⟩, value.isArgumentEntry_value⟩

theorem span?_of_anyChild {parts : List Part} {part : Part} (bare : Part.anyChild parts = false)
    (member : part ∈ parts) : part.span? = none := by
  rw [Part.anyChild, List.any_eq_false] at bare
  simpa using bare part member

theorem Derives.isEntry_items {style : ArgumentStyle} {delimiter : Delimiter}
    (run : Derives (.items style delimiter levels) mode first parts last) :
    ∀ part ∈ parts, part.IsEntry .argument .identifierExpected := by
  generalize shape : Phrase.items style delimiter levels = phrase at run
  induction run with
  | itemsStart => exact nofun
  | itemsMore _ _ _ _ previous _ =>
    cases shape
    rw [List.forall_mem_append, List.forall_mem_singleton]
    exact ⟨previous rfl, .child _⟩
  | _ => cases shape

/-- The statements of a scope. -/
theorem Derives.isEntry_listing {terminator : Option TokenKind}
    (run : Derives (.listing terminator levels) mode first parts last) :
    ∀ part ∈ parts, part.IsEntry .statements .unexpectedToken := by
  generalize shape : Phrase.listing terminator levels = phrase at run
  induction run with
  | listingStart => exact nofun
  | stray _ _ _ previous | unreadable _ _ _ _ previous _ =>
    cases shape
    rw [List.forall_mem_append, List.forall_mem_singleton]
    exact ⟨previous rfl, .problem _ _⟩
  | listed _ _ _ _ _ previous _ =>
    cases shape
    rw [List.forall_mem_append, List.forall_mem_singleton]
    exact ⟨previous rfl, .child _⟩
  | crowded _ _ _ _ _ previous _ =>
    cases shape
    rw [List.forall_mem_append, List.forall_mem_cons, List.forall_mem_singleton]
    exact ⟨previous rfl, .child _, .problem _ _⟩
  | _ => cases shape

/-- A construct is a keyword, its head if it has one, and what follows. -/
theorem Derives.isShaped_construct {construct : Construct} {tree : Tree}
    (run : Derives (.construct construct levels role) mode first [.child role tree] last) :
    tree.IsShaped := by
  cases run with
  | ifElse _ top main other => exact .ifElse _ top.isHead main.isSlot_body other.isElse
  | headed headed _ top main =>
    exact .headed _ _ (Construct.form_of_isHeaded headed) top.isHead main.isSlot_body
  | repeatLoop _ main => exact .repeatLoop _ main.isSlot_body
  | word word _ => exact .word _ _ (Construct.form_of_isWord word)

theorem Derives.isShaped_arguments {style : ArgumentStyle} {delimiter : Delimiter} {anchor : Nat}
    {tree : Tree} (run : Derives (.arguments style delimiter levels anchor role) mode first
      [.child role tree] last) : tree.IsShaped := by
  cases run with
  | closedList items _ => exact .argumentList items.isEntry_items
  | lastItem items _ item _ _ =>
    refine .argumentList ?_
    rw [List.forall_mem_append, List.forall_mem_singleton]
    exact ⟨items.isEntry_items, .child _⟩
  | noItem items _ item _ bare =>
    refine .argumentList (List.forall_mem_append.mpr
      ⟨items.isEntry_items, fun part member => ?_⟩)
    have entry : part.IsArgumentEntry := item.isArgumentEntry_item part member
    exact entry.isEntry (span?_of_anyChild bare member)

theorem Derives.isEntry_statements {terminator : Option TokenKind}
    (run : Derives (.statements terminator levels) mode first parts last) :
    ∀ part ∈ parts, part.IsEntry .statements .unexpectedToken := by
  cases run with
  | statements listing _ => exact listing.isEntry_listing

end Phrases

/-! ### All nodes -/

/-- **Every node that a rule builds has the parts of its form.** -/
theorem Built.isShaped {items : List Lexeme} {tree : Tree} (built : Built items tree) :
    tree.IsShaped := by
  cases built with
  | leaf | cut => trivial
  | operation _ _ found right =>
    have plain := (infixAt?_eq_some_iff.mp found).2.1
    exact .between _ _ plain right.isSlot_operand
  | sign _ found right => exact .sign _ (isAccessor_of_leadingOf? found) right.isSlot_operand
  | call _ _ _ list close =>
    obtain ⟨tree, rfl⟩ := list.exists_list
    exact .call _ _ _ close.isSlot_expected
  | index _ _ delimiter opened list close =>
    obtain ⟨tree, rfl⟩ := list.exists_list
    exact .index _ _ delimiter opened close.isSlot_expected
  | access _ _ found right =>
    have accessor := (accessorOf?_eq_some_iff.mp found).2
    exact .access _ _ accessor right.isSlot_expected
  | group _ _ inner close => exact .group _ inner.isSlot_operand close.isSlot_expected
  | construct _ _ run => exact run.isShaped_construct
  | simpleScope => exact .simpleScope _
  | followed _ item _ =>
    refine .argument ?_
    rw [List.forall_mem_append, List.forall_mem_singleton]
    exact ⟨item.isArgumentEntry_item, .comma, by simp, .child _⟩
  | argument _ item => exact .argument item.isArgumentEntry_item
  | list _ run => exact run.isShaped_arguments
  | statement _ run =>
    cases run with
    | statement _ semicolon =>
      cases semicolon with
      | present => exact .ended _ _
      | absent => exact .statement _
  | block _ run =>
    cases run with
    | block _ items close => exact .scope _ items.isEntry_statements close.isSlot_expected

end Grammar

open Grammar

/-- **Every node of a text has the parts of its form.** -/
theorem Reading.shaped (text : Text) : (read text).tree.All Tree.IsShaped := by
  obtain ⟨items, last, derivation⟩ := Reading.derivation text
  have built := derivation.derives.built ⟨rfl, rfl⟩ trivial
  rw [derivation.tree, Tree.all_node_iff]
  refine ⟨Form.Takes.globalScope derivation.derives.isEntry_statements, fun part member => ?_⟩
  exact (built part member).imp fun _ => Built.isShaped

end RSource
