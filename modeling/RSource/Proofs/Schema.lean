/-
**Every node has the layout of its form.**

The fillings of a tree's slots are those of the nodes that show it (`ShowsParts.fillings`), so the
schema is shown of trees. Each phrase fills the fields it stands for (`Derives.fits_operand`,
`Derives.fits_expected` and so on): what a token is was looked at right before it was taken, and its
text comes from the lexer. Each rule by which a node is built then puts the fields of its phrases
behind one another (`Built.admitted`). Main statement: `followsSchema_read`.
-/

import RSource.Proofs.Arena.Shown
import RSource.Proofs.Grammar.Shape
import RSource.Proofs.Leaves
import RSource.Proofs.Schema.Layouts

namespace RSource

/-! ### The fillings of trees -/

/-- The role of a child. -/
def Part.role? : Part → Option Role
  | .child role _ => some role
  | .problem _ _ => none

/-- What a tree is to the node above it. -/
def Tree.filling : Tree → Filling
  | .leaf lexeme | .cut lexeme _ => .token lexeme.kind lexeme.text
  | .node form _ parts => .node form (parts.filterMap Part.role?)

/-- The slot that a part fills. -/
def Part.slot? : Part → Option (Role × Filling)
  | .child role tree => some (role, tree.filling)
  | .problem _ _ => none

/-- The slots of a node. -/
def fillingsOf (parts : List Part) : List (Role × Filling) := parts.filterMap Part.slot?

@[simp] theorem fillingsOf_nil : fillingsOf [] = [] := rfl

@[simp] theorem fillingsOf_child (role : Role) (tree : Tree) (rest : List Part) :
    fillingsOf (.child role tree :: rest) = (role, tree.filling) :: fillingsOf rest := rfl

@[simp] theorem fillingsOf_problem (found : Problem) (skipped : List Lexeme) (rest : List Part) :
    fillingsOf (.problem found skipped :: rest) = fillingsOf rest := rfl

@[simp] theorem fillingsOf_append (left right : List Part) :
    fillingsOf (left ++ right) = fillingsOf left ++ fillingsOf right := List.filterMap_append

theorem mem_fillingsOf {role : Role} {parts : List Part} {tree : Tree}
    (member : .child role tree ∈ parts) : (role, tree.filling) ∈ fillingsOf parts :=
  List.mem_filterMap.mpr ⟨_, member, rfl⟩

theorem filling_ofParts (form : Form) (parts : List Part) :
    (Tree.ofParts form parts).filling = .node form (parts.filterMap Part.role?) := rfl

namespace Grammar

open Reader Cursor

/-! ### Tokens -/

section Tokens

variable {text : Text} {mode : Mode} {first last : Cursor Lexeme} {parts : List Part} {role : Role}
  (covered : IsOver (significant text) first)

include covered in
/-- The token that is looked at has the text of its kind. -/
theorem isSign_leafAt {kind : TokenKind} {sign : Text} (own : kind.sign? = some sign)
    (found : (look mode first).kind = kind) : (leafAt mode first).filling.isSign kind = true := by
  have readable : (look mode first).isReadable = true := by
    refine isReadable_of_kind found ?_
    cases kind <;> first | rfl | cases own
  have spelled := text_eq_of_sign? (mem_significant_iff.mp (covered.look_mem readable)).1
    (found ▸ own)
  simp [leafAt, Tree.filling, Filling.isSign, found, own, spelled]

theorem isKeyword_leafAt {word : String}
    (found : (look mode first).isKeyword word.toList = true) :
    (leafAt mode first).filling.isKeyword word = true := by
  simpa [leafAt, Tree.filling, Filling.isKeyword, Lexeme.isKeyword] using found

theorem names_leafAt_of_infixOf? {operator : Operator}
    (found : infixOf? (look mode first) = some operator) :
    (leafAt mode first).filling.names operator = true := by
  have kind := kind_of_infixOf? found
  rw [infixOf?, kind, if_pos (beq_self_eq_true _)] at found
  simp [leafAt, Tree.filling, Filling.names, kind, Operator.isUnary_of_ofInfixText? found, found]

theorem names_leafAt_of_leadingOf? {operator : Operator}
    (found : leadingOf? (look mode first) = some operator) :
    (leafAt mode first).filling.names operator = true := by
  have kind := kind_of_leadingOf? found
  rw [leadingOf?, kind, if_pos (beq_self_eq_true _)] at found
  simp [leafAt, Tree.filling, Filling.names, kind, Operator.isUnary_of_ofLeadingText? found, found]

theorem Derives.fits_expected {accepts : Lexeme → Bool} {problem : ProblemKind}
    {admits : Filling → Bool}
    (run : Derives (.expected accepts role problem) mode first parts last)
    (admitted : accepts (look mode first) = true → admits (leafAt mode first).filling = true) :
    Fits [⟨role, .optional, admits⟩] (fillingsOf parts) := by
  cases run with
  | found accepted _ => exact .filled (admitted accepted) .nil
  | missing _ => exact .empty .nil

include covered in
theorem Derives.fits_closer {kind : TokenKind} {sign : Text} {problem : ProblemKind}
    (run : Derives (.expected (isOfKind kind) role problem) mode first parts last)
    (own : kind.sign? = some sign) : Fits [⟨role, .optional, Filling.isSign kind⟩] (fillingsOf parts) :=
  run.fits_expected fun accepted => isSign_leafAt covered own (eq_of_beq accepted)

end Tokens

/-! ### Expressions, bodies and lists -/

/-- The phrases that give an expression. -/
def Phrase.givesExpression : Phrase → Bool
  | .expression _ _ _ | .operand _ _ _ | .chain _ _ _ | .leading _ _ | .postfixed _ _
  | .suffixed _ _ | .primary _ _ | .construct _ _ _ | .block _ _ => true
  | _ => false

/-- **What is read as an expression is one.** -/
theorem Derives.isExpression_filling {phrase : Phrase} {mode : Mode} {first last : Cursor Lexeme}
    {parts : List Part} (run : Derives phrase mode first parts last)
    (gives : phrase.givesExpression = true) {role : Role} {tree : Tree}
    (member : .child role tree ∈ parts) : tree.filling.isExpression = true := by
  induction run with
  | noExpression _ previous | expression _ _ previous | chainStart _ previous
  | operand _ previous | unsigned _ _ previous | noPostfixed _ previous
  | postfixed _ _ previous | suffixedStart _ previous | blockPrimary _ _ previous
  | constructPrimary _ _ _ previous => exact previous rfl member
  | cutNothing | noPrimary => cases member
  | noOperand => simp at member
  | cutBracket | cutToken | chainMore | sign | call | index | access | atom | group | repeatLoop
  | ifElse | block =>
    cases List.mem_singleton.mp member
    rfl
  | headed headed =>
    cases List.mem_singleton.mp member
    rcases Construct.form_of_isHeaded headed with form | form | form <;>
      simp [filling_ofParts, Filling.isExpression, form, Form.isExpression]
  | word word =>
    cases List.mem_singleton.mp member
    rcases Construct.form_of_isWord word with form | form <;>
      simp [filling_ofParts, Filling.isExpression, form, Form.isExpression]
  | _ => cases gives

section Phrases

variable {text : Text} {mode : Mode} {first last : Cursor Lexeme} {parts : List Part} {role : Role}
  {levels : Nat}

theorem Derives.fits_operand {minimum : Nat}
    (run : Derives (.operand levels minimum role) mode first parts last) :
    Fits [⟨role, .optional, Filling.isExpression⟩] (fillingsOf parts) := by
  have expression (tree : Tree) (member : .child role tree ∈ parts) :=
    run.isExpression_filling rfl member
  cases run with
  | operand _ => exact .filled (expression _ List.mem_cons_self) .nil
  | noOperand _ => exact .empty .nil

/-- The value of an argument may be missing. -/
theorem Derives.fits_value {minimum : Nat}
    (run : Derives (.expression levels minimum role) mode first parts last) :
    Fits [⟨role, .optional, Filling.isExpression⟩] (fillingsOf parts) := by
  have expression (tree : Tree) (member : .child role tree ∈ parts) :=
    run.isExpression_filling rfl member
  rcases run.eq_nil_or_single with rfl | ⟨tree, rfl⟩
  · exact .empty .nil
  · exact .filled (expression _ List.mem_cons_self) .nil

theorem Derives.filling_statement {tree : Tree}
    (run : Derives (.statement levels role) mode first [.child role tree] last) :
    tree.filling.isOfForm [.statement] = true := by
  cases run with
  | statement _ _ => rfl

theorem Derives.filling_arguments {style : ArgumentStyle} {delimiter : Delimiter} {anchor : Nat}
    {tree : Tree} (run : Derives (.arguments style delimiter levels anchor role) mode first
      [.child role tree] last) : tree.filling.isOfForm [.argumentList] = true := by
  cases run <;> rfl

theorem Derives.fits_body (run : Derives (.body levels role) mode first parts last) :
    Fits [⟨role, .optional, Filling.isBody⟩] (fillingsOf parts) := by
  cases run with
  | blockBody _ block =>
    cases block
    exact .filled rfl .nil
  | simpleBody _ _ => exact .filled rfl .nil
  | noBody _ _ => exact .empty .nil

theorem Derives.fits_else (run : Derives (.elseBranch levels) mode first parts last) :
    Fits [⟨.elseKeyword, .optional, Filling.isKeyword "else"⟩,
      ⟨.elseBody, .optional, Filling.isBody⟩] (fillingsOf parts) := by
  cases run with
  | elseBranch seen other =>
    exact .filled (isKeyword_leafAt (look_beyond_of_seesElse seen)) other.fits_body
  | noElse _ => exact .empty (.empty .nil)

/-- Statements fill the field of a scope, in front of whatever follows. -/
theorem Derives.fits_listing {terminator : Option TokenKind}
    (run : Derives (.listing terminator levels) mode first parts last) {fields : List Field}
    {slots : List (Role × Filling)} (behind : Fits (statementsField :: fields) slots) :
    Fits (statementsField :: fields) (fillingsOf parts ++ slots) := by
  generalize shape : Phrase.listing terminator levels = phrase at run
  induction run generalizing slots with
  | listingStart => exact behind
  | stray _ _ _ previous | unreadable _ _ _ _ previous _ =>
    cases shape
    simpa using previous behind rfl
  | listed _ _ _ read _ previous _ | crowded _ _ _ read _ previous _ =>
    cases shape
    simpa using previous (.more read.filling_statement behind) rfl
  | _ => cases shape

theorem Derives.fits_statements {terminator : Option TokenKind}
    (run : Derives (.statements terminator levels) mode first parts last) {fields : List Field}
    {slots : List (Role × Filling)} (behind : Fits fields slots) :
    Fits (statementsField :: fields) (fillingsOf parts ++ slots) := by
  cases run with
  | statements listing _ => exact listing.fits_listing (.done behind)

/-! ### Arguments -/

/-- The fields of an argument in front of its comma. -/
def itemFields : List Field :=
  [⟨.name, .optional, Filling.isOfKind [.identifier, .string, .null]⟩,
    ⟨.equals, .optional, Filling.names .equalsAssign⟩,
    ⟨.value, .optional, Filling.isExpression⟩]

theorem names_leafAt_equals (found : (look mode first).isOperator ['='] = true) :
    (leafAt mode first).filling.names .equalsAssign = true := by
  rw [Lexeme.isOperator, Bool.and_eq_true, beq_iff_eq, beq_iff_eq] at found
  refine names_leafAt_of_infixOf? ?_
  rw [infixOf?, found.1, found.2]
  rfl

theorem Derives.fits_item {style : ArgumentStyle}
    (run : Derives (.item style levels) mode first parts last) :
    Fits itemFields (fillingsOf parts) := by
  cases run with
  | named name value =>
    rw [namesHere, Bool.and_eq_true] at name
    refine .filled ?_ (.filled (names_leafAt_equals name.2) value.fits_value)
    simpa [namesArgument, leafAt, Tree.filling, Filling.isOfKind, or_assoc] using name.1
  | unnamed _ value | emptyFormal _ value => exact .empty (.empty value.fits_value)
  | formalDefault name equals value =>
    refine .filled ?_ (.filled (names_leafAt_equals equals) value.fits_value)
    simp [leafAt, Tree.filling, Filling.isOfKind, name]
  | formal name _ =>
    refine .filled ?_ (.empty (.empty .nil))
    simp [leafAt, Tree.filling, Filling.isOfKind, name]
  | misplacedFormal _ _ value => exact .empty (.empty value.fits_value)

theorem fillingsOf_eq_nil {parts : List Part} (bare : Part.anyChild parts = false) :
    fillingsOf parts = [] := by
  rw [fillingsOf, List.filterMap_eq_nil_iff]
  intro part member
  have none := span?_of_anyChild bare member
  cases part with
  | child => cases none
  | problem => rfl

theorem isFollowed_argument (item : List Part) (comma : Tree) :
    (Tree.ofParts .argument (item ++ [.child .comma comma])).filling.isFollowed = true := by
  simp [filling_ofParts, Filling.isFollowed, Part.role?]

/-- Arguments with their commas, in front of whatever follows. -/
theorem Derives.fits_items {style : ArgumentStyle} {delimiter : Delimiter}
    (run : Derives (.items style delimiter levels) mode first parts last) {fields : List Field}
    {slots : List (Role × Filling)}
    (behind : Fits (⟨.argument, .many, Filling.isFollowed⟩ :: fields) slots) :
    Fits (⟨.argument, .many, Filling.isFollowed⟩ :: fields) (fillingsOf parts ++ slots) := by
  generalize shape : Phrase.items style delimiter levels = phrase at run
  induction run generalizing slots with
  | itemsStart => exact behind
  | itemsMore _ _ _ _ previous _ =>
    cases shape
    simpa using previous (.more (isFollowed_argument _ _) behind) rfl
  | _ => cases shape

/-! ### Heads of constructs -/

variable (covered : IsOver (significant text) first)
include covered

/-- A head is its contents between parentheses, or nothing. -/
theorem Derives.fits_head {construct : Construct} {fields : List Field}
    (run : Derives (.head construct levels) mode first parts last)
    (none : Fits (headFields fields) [])
    (contents : ∀ {anchor inner}, Derives (.contents construct levels anchor) mode.bracketed
      (past mode first) inner last →
        Fits (fields ++ [⟨.closeBrace, .optional, Filling.isSign .closeBrace⟩]) (fillingsOf inner)) :
    Fits (headFields fields) (fillingsOf parts) := by
  cases run with
  | opened opening inner => exact .filled (isSign_leafAt covered rfl opening) (contents inner)
  | unopened _ => exact none

theorem Derives.fits_condition {construct : Construct} (tests : construct.hasCondition = true)
    (run : Derives (.head construct levels) mode first parts last) :
    Fits (headFields [conditionField]) (fillingsOf parts) := by
  refine run.fits_head covered (.empty (.empty (.empty .nil))) fun inner => ?_
  cases inner with
  | condition _ tested close =>
    rw [fillingsOf_append]
    exact tested.fits_operand.append
      (close.fits_closer (tested.isOver (covered.past mode)) rfl)
  | iteration | formals => cases tests

theorem Derives.fits_iteration
    (run : Derives (.head .forLoop levels) mode first parts last) :
    Fits (headFields [⟨.loopVariable, .optional, Filling.isOfKind [.identifier]⟩,
      ⟨.inKeyword, .optional, Filling.isKeyword "in"⟩,
      ⟨.sequence, .optional, Filling.isExpression⟩]) (fillingsOf parts) := by
  refine run.fits_head covered (.empty (.empty (.empty (.empty (.empty .nil))))) fun inner => ?_
  cases inner with
  | condition tests => cases tests
  | iteration counter link range close =>
    have overLink := counter.isOver (covered.past mode)
    have overClose := range.isOver (link.isOver overLink)
    have name : Fits [⟨.loopVariable, .optional, Filling.isOfKind [.identifier]⟩] (fillingsOf _) :=
      counter.fits_expected fun found => by
        simpa [leafAt, Tree.filling, Filling.isOfKind, isOfKind] using found
    have word : Fits [⟨.inKeyword, .optional, Filling.isKeyword "in"⟩] (fillingsOf _) :=
      link.fits_expected isKeyword_leafAt
    rw [fillingsOf_append, fillingsOf_append, fillingsOf_append]
    exact ((name.append word).append range.fits_operand).append (close.fits_closer overClose rfl)

theorem Derives.fits_formals
    (run : Derives (.head .functionDefinition levels) mode first parts last) :
    Fits (headFields [⟨.formals, .optional, Filling.isOfForm [.argumentList]⟩]) (fillingsOf parts) := by
  refine run.fits_head covered (.empty (.empty (.empty .nil))) fun inner => ?_
  cases inner with
  | condition tests => cases tests
  | formals list close =>
    have overClose := list.isOver (covered.past mode)
    obtain ⟨tree, rfl⟩ := list.exists_list
    exact .filled list.filling_arguments (close.fits_closer overClose rfl)

end Phrases

/-! ### Nodes -/

/-- The word of a construct. -/
def Construct.word : Construct → String
  | ifElse => "if"
  | forLoop => "for"
  | whileLoop => "while"
  | repeatLoop => "repeat"
  | functionDefinition => "function"
  | breakLoop => "break"
  | nextRound => "next"

theorem Construct.eq_word_of_ofWord? {text : Text} {construct : Construct}
    (found : Construct.ofWord? text = some construct) : text = construct.word.toList := by
  obtain ⟨before, after, shape, _⟩ := List.lookup_eq_some_iff.mp found
  have member := List.mem_append_right before (List.mem_cons_self (a := (text, construct)) (l := after))
  rw [← shape] at member
  simp only [List.mem_cons, Prod.mk.injEq, List.not_mem_nil, or_false] at member
  rcases member with ⟨rfl, rfl⟩ | ⟨rfl, rfl⟩ | ⟨rfl, rfl⟩ | ⟨rfl, rfl⟩ | ⟨rfl, rfl⟩ | ⟨rfl, rfl⟩
    | ⟨rfl, rfl⟩ <;> rfl

section Nodes

variable {text : Text} {mode : Mode} {first last : Cursor Lexeme} {role : Role} {levels : Nat}
  (covered : IsOver (significant text) first)
include covered

theorem Derives.admitted_construct {construct : Construct} {form : Form} {span : Span}
    {parts : List Part}
    (announced : (Phrase.construct construct levels role).IsAnnounced mode first)
    (run : Derives (.construct construct levels role) mode first [.child role (.node form span parts)]
      last) : form.Admits (fillingsOf parts) := by
  have keyword : (leafAt mode first).filling.isKeyword construct.word = true := by
    refine isKeyword_leafAt ?_
    rw [Lexeme.isKeyword, announced.1, Construct.eq_word_of_ofWord? announced.2]
    exact Bool.and_eq_true_iff.mpr ⟨beq_self_eq_true _, beq_self_eq_true _⟩
  have behind := covered.past mode
  cases run with
  | ifElse _ top main other =>
    refine ⟨_, List.mem_singleton_self _, .one keyword ?_⟩
    rw [← fillingsOf, List.append_assoc, fillingsOf_append, fillingsOf_append]
    exact (top.fits_condition behind rfl).append (main.fits_body.append other.fits_else)
  | headed headed _ top main =>
    rw [fillingsOf_child, fillingsOf_append]
    cases construct with
    | forLoop =>
      exact ⟨_, List.mem_singleton_self _, .one keyword
        ((top.fits_iteration behind).append main.fits_body)⟩
    | whileLoop =>
      exact ⟨_, List.mem_singleton_self _, .one keyword
        ((top.fits_condition behind rfl).append main.fits_body)⟩
    | functionDefinition =>
      exact ⟨_, List.mem_singleton_self _, .one keyword
        ((top.fits_formals behind).append main.fits_body)⟩
    | _ => cases headed
  | repeatLoop _ main => exact ⟨_, List.mem_singleton_self _, .one keyword main.fits_body⟩
  | word word _ =>
    cases construct with
    | breakLoop | nextRound => exact ⟨_, List.mem_singleton_self _, .one keyword .nil⟩
    | _ => cases word

omit covered in
theorem Derives.admitted_arguments {style : ArgumentStyle} {delimiter : Delimiter} {anchor : Nat}
    {form : Form} {span : Span} {parts : List Part}
    (run : Derives (.arguments style delimiter levels anchor role) mode first
      [.child role (.node form span parts)] last) : form.Admits (fillingsOf parts) := by
  cases run with
  | closedList items _ =>
    refine ⟨_, List.mem_singleton_self _, ?_⟩
    simpa using items.fits_items (.done (.empty .nil))
  | lastItem items _ item _ _ =>
    refine ⟨_, List.mem_singleton_self _, ?_⟩
    rw [fillingsOf_append]
    exact items.fits_items (.done (.filled rfl .nil))
  | noItem items _ _ _ bare =>
    refine ⟨_, List.mem_singleton_self _, ?_⟩
    rw [fillingsOf_append, fillingsOf_eq_nil bare]
    exact items.fits_items (.done (.empty .nil))

end Nodes

/-- **A node that a rule builds has a layout of its form.** -/
theorem Built.admitted {text : Text} {form : Form} {span : Span} {parts : List Part}
    (built : Built (significant text) (.node form span parts)) : form.Admits (fillingsOf parts) := by
  generalize shape : Tree.node form span parts = tree at built
  cases built with
  | leaf | cut => cases shape
  | operation covered left found right =>
    cases shape
    obtain ⟨between, plain, _⟩ := infixAt?_eq_some_iff.mp found
    refine ⟨_, List.mem_singleton_self _, ?_⟩
    rw [isUnary_of_infixOf? between, plain]
    exact .one (left.isExpression_filling rfl List.mem_cons_self)
      (.one (names_leafAt_of_infixOf? between) right.fits_operand)
  | sign covered found right =>
    cases shape
    refine ⟨_, List.mem_singleton_self _, ?_⟩
    rw [isUnary_of_leadingOf? found, isAccessor_of_leadingOf? found]
    exact .one (names_leafAt_of_leadingOf? found) right.fits_operand
  | access covered target found right =>
    cases shape
    obtain ⟨between, accessor⟩ := accessorOf?_eq_some_iff.mp found
    refine ⟨_, List.mem_singleton_self _, ?_⟩
    rw [isUnary_of_infixOf? between, accessor]
    refine .one (target.isExpression_filling rfl List.mem_cons_self)
      (.one (names_leafAt_of_infixOf? between) (right.fits_expected fun found => ?_))
    simpa [leafAt, Tree.filling, Filling.isOfKind, isMember] using found
  | @call _ _ mode _ _ _ _ _ _ _ covered function opened list close =>
    cases shape
    have second := function.isOver covered
    obtain ⟨tree, rfl⟩ := list.exists_list
    exact ⟨_, List.mem_singleton_self _, .one (function.isExpression_filling rfl List.mem_cons_self)
      (.one (isSign_leafAt second rfl opened) (.one list.filling_arguments
        (close.fits_closer (list.isOver (second.past mode)) rfl)))⟩
  | @index _ _ mode _ _ _ _ _ _ _ delimiter covered target bracket opened list close =>
    cases shape
    have second := target.isOver covered
    obtain ⟨tree, rfl⟩ := list.exists_list
    refine ⟨_, List.mem_map_of_mem (a := delimiter) (by simpa using bracket),
      .one (target.isExpression_filling rfl List.mem_cons_self) ?_⟩
    have third := list.isOver (second.past mode)
    rcases bracket with rfl | rfl <;>
      exact .one (isSign_leafAt second rfl opened) (.one list.filling_arguments
        (close.fits_closer third rfl))
  | @group _ mode _ _ _ _ _ covered opened inner close =>
    cases shape
    refine ⟨_, List.mem_singleton_self _, .one (isSign_leafAt covered rfl opened) ?_⟩
    rw [← fillingsOf, fillingsOf_append]
    exact inner.fits_operand.append (close.fits_closer (inner.isOver (covered.past mode)) rfl)
  | construct covered announced run =>
    cases shape
    exact run.admitted_construct covered announced
  | simpleScope _ run =>
    cases shape
    exact ⟨_, List.mem_singleton_self _, .one run.filling_statement .nil⟩
  | followed covered item comma =>
    cases shape
    refine ⟨_, List.mem_singleton_self _, ?_⟩
    rw [fillingsOf_append]
    exact item.fits_item.append (.filled (isSign_leafAt (item.isOver covered) rfl comma) .nil)
  | argument _ item =>
    cases shape
    refine ⟨_, List.mem_singleton_self _, ?_⟩
    rw [← List.append_nil (fillingsOf parts)]
    exact item.fits_item.append (.empty .nil)
  | list _ run =>
    cases shape
    exact run.admitted_arguments
  | statement covered run =>
    cases shape
    cases run with
    | statement inExpression semicolon =>
      refine ⟨_, List.mem_singleton_self _,
        .one (inExpression.isExpression_filling rfl List.mem_cons_self) ?_⟩
      cases semicolon with
      | present found _ =>
        exact .filled (isSign_leafAt (inExpression.isOver covered) rfl (eq_of_beq found)) .nil
      | absent _ => exact .empty .nil
  | @block _ _ mode _ _ _ covered run =>
    cases shape
    cases run with
    | block opened items close =>
      refine ⟨_, List.mem_singleton_self _, .one (isSign_leafAt covered rfl opened) ?_⟩
      rw [← fillingsOf, fillingsOf_append]
      exact items.fits_statements
        (close.fits_closer (items.isOver (covered.past mode)) rfl)

end Grammar

open Grammar

/-! ### Documents -/

namespace Document

variable {document : Document}

theorem ShowsParts.roles {slots : List (Role × NodeId)} {parts : List Part}
    (shown : document.ShowsParts slots parts) : slots.map (·.1) = parts.filterMap Part.role? := by
  induction parts generalizing slots with
  | nil =>
    obtain rfl : slots = [] := shown
    rfl
  | cons part rest previous =>
    obtain ⟨others, here, behind⟩ := shown
    cases part with
    | child role tree =>
      obtain ⟨id, rfl, _⟩ := here
      simp [Part.role?, previous behind]
    | problem found skipped =>
      obtain rfl : slots = others := here
      exact previous behind

/-- A node is to its parent what the tree is that it shows. -/
theorem Shows.filling {id : NodeId} {tree : Tree} (shown : document.Shows id tree)
    (spelled : ∀ lexeme ∈ tree.leaves,
      document.text.slice? lexeme.start lexeme.stop = some lexeme.text) :
    document.filling id = tree.filling := by
  cases tree with
  | leaf lexeme | cut lexeme skipped =>
    have found := spelled lexeme (List.mem_singleton_self _)
    rw [Document.filling, shown.1, textOf, slice?, shown.2]
    simp only [Lexeme.span, found]
    rfl
  | node form span parts =>
    obtain ⟨slots, content, _, filled⟩ := shown
    rw [Document.filling, content, Tree.filling]
    simp only [filled.roles]

/-- The slots of a node are filled as those of the tree that it shows. -/
theorem ShowsParts.fillings {slots : List (Role × NodeId)} {parts : List Part}
    (shown : document.ShowsParts slots parts) (spelled : ∀ lexeme ∈ Tree.partsLeaves parts,
      document.text.slice? lexeme.start lexeme.stop = some lexeme.text) :
    slots.map (fun slot => (slot.1, document.filling slot.2)) = fillingsOf parts := by
  induction parts generalizing slots with
  | nil =>
    obtain rfl : slots = [] := shown
    rfl
  | cons part rest previous =>
    obtain ⟨others, here, behind⟩ := shown
    rw [Tree.partsLeaves, List.forall_mem_append] at spelled
    cases part with
    | child role tree =>
      obtain ⟨id, rfl, same⟩ := here
      rw [List.map_cons, fillingsOf_child, same.filling spelled.1, previous behind spelled.2]
    | problem found skipped =>
      obtain rfl : slots = others := here
      exact previous behind spelled.2

end Document

namespace Reading

variable {text : Text}

/-- The leaves of a text have the texts found at their places. -/
theorem slice?_of_mem_leaves {node : Tree} (within : node.IsWithin (read text).tree)
    {lexeme : Lexeme} (leaf : lexeme ∈ node.leaves) :
    (read text).document.text.slice? lexeme.start lexeme.stop = some lexeme.text :=
  slice?_of_mem_lexemes (mem_lexemes_of_mem_leaves (within.leaves_sublist.subset leaf)).1

/-- Every node of a text has a layout of its form. -/
theorem admitted {form : Form} {span : Span} {parts : List Part}
    (within : (Tree.node form span parts).IsWithin (read text).tree) :
    form.Admits (fillingsOf parts) := by
  obtain ⟨items, last, derivation⟩ := Reading.derivation text
  rw [derivation.tree] at within
  cases within with
  | here =>
    refine ⟨_, List.mem_singleton_self _, ?_⟩
    rw [← List.append_nil (fillingsOf parts)]
    exact derivation.derives.fits_statements .nil
  | inside member inner =>
    exact (derivation.derives.built ⟨rfl, rfl⟩ trivial _ member _ inner).admitted

end Reading

/-- **Every node of every text has a layout of its form.** -/
theorem followsSchema_read (text : Text) : (read text).document.FollowsSchema := by
  intro id inside form slots content
  rw [Reading.size_document] at inside
  obtain root | behind := Nat.eq_zero_or_pos id
  · subst root
    rw [Reading.content_document, if_pos (show (0 : NodeId) = Document.root from rfl)] at content
    cases content
    obtain ⟨items, last, derivation⟩ := Reading.derivation text
    have shown := (read text).shows_document.1.filling
      fun _ leaf => Reading.slice?_of_mem_leaves .here leaf
    refine ⟨_, List.mem_singleton_self _, ?_⟩
    rw [List.map_singleton, shown, derivation.tree]
    exact .one rfl .nil
  · obtain ⟨node, within, shown⟩ := (read text).exists_shown behind inside
    cases node with
    | leaf lexeme | cut lexeme skipped =>
      rw [shown.1] at content
      cases content
    | node own span parts =>
      obtain ⟨filled, same, _, shows⟩ := shown
      rw [same] at content
      cases content
      rw [shows.fillings fun _ leaf => Reading.slice?_of_mem_leaves within leaf]
      exact Reading.admitted within

end RSource
