/-
**The layouts of nodes.**

A node has fields, in the order of the text. A field is a role, how often it may be filled, and what
may fill it (`Field`); what stands in a slot is a token with its text, or a node with the roles of
its own slots (`Filling`). `Form.layouts` lists the fields of each form: an index has one layout for
each of its brackets, so that a closing bracket always fits the opening one, and the operator of an
operator node is the one that its token names, before its operand or between two. A document follows
the schema if the slots of each of its nodes fit a layout of its form (`Document.FollowsSchema`).
-/

import RSource.Document
import RSource.Grammar.Construct
import RSource.Proofs.Token.Signs

namespace RSource

open Grammar (namesArgument)

/-! ### What fills a slot -/

/-- What stands in a slot: a token with its text, or a node with the roles of its slots. -/
inductive Filling where
  | token (kind : TokenKind) (text : Text)
  | node (form : Form) (roles : List Role)
  deriving Repr, DecidableEq

/-- Whether nodes of a form are read as expressions. -/
def Form.isExpression : Form → Bool
  | .root | .globalScope | .simpleScope | .statement | .argumentList | .argument => false
  | _ => true

namespace Filling

/-- A token of one of some kinds. -/
def isOfKind (kinds : List TokenKind) : Filling → Bool
  | token kind _ => kinds.contains kind
  | node _ _ => false

/-- A token that is written in one way only. -/
def isSign (kind : TokenKind) : Filling → Bool
  | token own text => own == kind && kind.sign? == some text
  | node _ _ => false

def isKeyword (word : String) : Filling → Bool
  | token kind text => kind == .keyword && text == word.toList
  | node _ _ => false

/-- A token that names an operator, in front of its operand or between two. -/
def names (operator : Operator) : Filling → Bool
  | token kind text => kind == .operator
    && (if operator.isUnary then Operator.ofLeadingText? text else Operator.ofInfixText? text)
      == some operator
  | node _ _ => false

/-- A node of one of some forms. -/
def isOfForm (forms : List Form) : Filling → Bool
  | token _ _ => false
  | node form _ => forms.contains form

/-- A body, in braces or not. -/
def isBody : Filling → Bool := isOfForm [.scope, .simpleScope]

/-- A token or a node that stands for a value. -/
def isExpression : Filling → Bool
  | token _ _ => true
  | node form _ => form.isExpression

/-- An argument with the comma behind it. -/
def isFollowed : Filling → Bool
  | token _ _ => false
  | node form roles => form == .argument && roles.contains .comma

end Filling

/-! ### Fields -/

/-- How often a role is filled. -/
inductive Arity where
  | one
  | optional
  | many
  deriving Repr, DecidableEq

/-- A role of a node, how often it is filled, and with what. -/
structure Field where
  role : Role
  arity : Arity
  admits : Filling → Bool

/-- The slots of a node fit some fields, in their order. -/
inductive Fits : List Field → List (Role × Filling) → Prop where
  | nil : Fits [] []
  | one {role : Role} {admits : Filling → Bool} {filling : Filling} {fields : List Field}
      {slots : List (Role × Filling)} : admits filling = true → Fits fields slots →
      Fits (⟨role, .one, admits⟩ :: fields) ((role, filling) :: slots)
  | empty {role : Role} {admits : Filling → Bool} {fields : List Field}
      {slots : List (Role × Filling)} : Fits fields slots →
      Fits (⟨role, .optional, admits⟩ :: fields) slots
  | filled {role : Role} {admits : Filling → Bool} {filling : Filling} {fields : List Field}
      {slots : List (Role × Filling)} : admits filling = true → Fits fields slots →
      Fits (⟨role, .optional, admits⟩ :: fields) ((role, filling) :: slots)
  | done {role : Role} {admits : Filling → Bool} {fields : List Field}
      {slots : List (Role × Filling)} : Fits fields slots →
      Fits (⟨role, .many, admits⟩ :: fields) slots
  | more {role : Role} {admits : Filling → Bool} {filling : Filling} {fields : List Field}
      {slots : List (Role × Filling)} : admits filling = true →
      Fits (⟨role, .many, admits⟩ :: fields) slots →
      Fits (⟨role, .many, admits⟩ :: fields) ((role, filling) :: slots)

theorem Fits.append {first second : List Field} {left right : List (Role × Filling)}
    (before : Fits first left) (behind : Fits second right) :
    Fits (first ++ second) (left ++ right) := by
  induction before with
  | nil => exact behind
  | one admitted _ previous => exact .one admitted previous
  | empty _ previous => exact .empty previous
  | filled admitted _ previous => exact .filled admitted previous
  | done _ previous => exact .done previous
  | more admitted _ previous => exact .more admitted previous

/-- What stands in a slot is admitted by a field of its role. -/
theorem Fits.exists_field {fields : List Field} {slots : List (Role × Filling)}
    (fits : Fits fields slots) {role : Role} {filling : Filling}
    (member : (role, filling) ∈ slots) :
    ∃ field ∈ fields, field.role = role ∧ field.admits filling = true := by
  have further {field : Field} {fields : List Field}
      (found : ∃ field ∈ fields, field.role = role ∧ field.admits filling = true) :
      ∃ other ∈ field :: fields, other.role = role ∧ other.admits filling = true :=
    found.imp fun _ admitted => admitted.imp_left (List.mem_cons_of_mem _)
  induction fits with
  | nil => exact absurd member List.not_mem_nil
  | one admitted _ previous | filled admitted _ previous =>
    rcases List.mem_cons.mp member with same | behind
    · cases same
      exact ⟨_, List.mem_cons_self, rfl, admitted⟩
    · exact further (previous behind)
  | empty _ previous | done _ previous => exact further (previous member)
  | more admitted _ previous =>
    rcases List.mem_cons.mp member with same | behind
    · cases same
      exact ⟨_, List.mem_cons_self, rfl, admitted⟩
    · exact previous behind

/-! ### The schema -/

/-- Parentheses around the fields of a head. All of them are missing where the head does not
begin. -/
def headFields (contents : List Field) : List Field :=
  ⟨.openBrace, .optional, Filling.isSign .openBrace⟩ :: (contents
    ++ [⟨.closeBrace, .optional, Filling.isSign .closeBrace⟩])

def statementsField : Field := ⟨.statements, .many, Filling.isOfForm [.statement]⟩

def bodyField : Field := ⟨.body, .optional, Filling.isBody⟩

def keywordField (word : String) : Field := ⟨.keyword, .one, Filling.isKeyword word⟩

def conditionField : Field := ⟨.condition, .optional, Filling.isExpression⟩

/-- The fields of the nodes of a form. A node has the fields of one of the layouts. -/
def Form.layouts : Form → List (List Field)
  | .root => [[⟨.globalScope, .one, Filling.isOfForm [.globalScope]⟩]]
  | .globalScope => [[statementsField]]
  | .scope => [[⟨.openCurly, .one, Filling.isSign .openCurlyBrace⟩, statementsField,
      ⟨.closeCurly, .optional, Filling.isSign .closeCurlyBrace⟩]]
  | .simpleScope => [[⟨.statement, .one, Filling.isOfForm [.statement]⟩]]
  | .statement => [[⟨.expression, .one, Filling.isExpression⟩,
      ⟨.semicolon, .optional, Filling.isSign .semicolon⟩]]
  | .operator own =>
    let left := if own.isUnary then [] else [⟨.left, .one, Filling.isExpression⟩]
    let right := if own.isAccessor then Filling.isOfKind [.identifier, .string]
      else Filling.isExpression
    [left ++ [⟨.operator, .one, Filling.names own⟩, ⟨.right, .optional, right⟩]]
  | .group => [[⟨.openBrace, .one, Filling.isSign .openBrace⟩,
      ⟨.expression, .optional, Filling.isExpression⟩,
      ⟨.closeBrace, .optional, Filling.isSign .closeBrace⟩]]
  | .call => [[⟨.function, .one, Filling.isExpression⟩,
      ⟨.openBrace, .one, Filling.isSign .openBrace⟩,
      ⟨.arguments, .one, Filling.isOfForm [.argumentList]⟩,
      ⟨.closeBrace, .optional, Filling.isSign .closeBrace⟩]]
  | .index => [Delimiter.squareBracket, .doubleSquareBracket].map fun bracket =>
      [⟨.target, .one, Filling.isExpression⟩,
        ⟨.openBracket, .one, Filling.isSign bracket.opener⟩,
        ⟨.arguments, .one, Filling.isOfForm [.argumentList]⟩,
        ⟨.closeBracket, .optional, Filling.isSign bracket.closer⟩]
  | .argumentList => [[⟨.argument, .many, Filling.isFollowed⟩,
      ⟨.argument, .optional, Filling.isOfForm [.argument]⟩]]
  | .argument => [[⟨.name, .optional, Filling.isOfKind [.identifier, .string, .null]⟩,
      ⟨.equals, .optional, Filling.names .equalsAssign⟩,
      ⟨.value, .optional, Filling.isExpression⟩,
      ⟨.comma, .optional, Filling.isSign .comma⟩]]
  | .functionDefinition => [keywordField "function"
      :: (headFields [⟨.formals, .optional, Filling.isOfForm [.argumentList]⟩] ++ [bodyField])]
  | .ifElse => [keywordField "if" :: (headFields [conditionField] ++ [bodyField,
      ⟨.elseKeyword, .optional, Filling.isKeyword "else"⟩,
      ⟨.elseBody, .optional, Filling.isBody⟩])]
  | .forLoop => [keywordField "for" :: (headFields
      [⟨.loopVariable, .optional, Filling.isOfKind [.identifier]⟩,
        ⟨.inKeyword, .optional, Filling.isKeyword "in"⟩,
        ⟨.sequence, .optional, Filling.isExpression⟩] ++ [bodyField])]
  | .whileLoop => [keywordField "while" :: (headFields [conditionField] ++ [bodyField])]
  | .repeatLoop => [[keywordField "repeat", bodyField]]
  | .breakLoop => [[keywordField "break"]]
  | .nextRound => [[keywordField "next"]]

/-- Slots fit a layout of a form. -/
def Form.Admits (form : Form) (slots : List (Role × Filling)) : Prop :=
  ∃ fields ∈ form.layouts, Fits fields slots

namespace Document

/-- What the node of a number is to the node that lists it. -/
def filling (document : Document) (id : NodeId) : Filling :=
  match document.content id with
  | .leaf token => .token token.kind (document.textOf id)
  | .branch form slots => .node form (slots.map (·.1))

/-- The slots of every node fit a layout of its form. -/
def FollowsSchema (document : Document) : Prop :=
  ∀ id < document.nodes.size, ∀ form slots, document.content id = .branch form slots →
    form.Admits (slots.map fun slot => (slot.1, document.filling slot.2))

end Document

end RSource
