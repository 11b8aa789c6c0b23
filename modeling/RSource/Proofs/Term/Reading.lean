/-
**Terms are read as what they are.**

`Term.treeAt start` is the tree of a term that begins at the offset `start`: calls and indexes with
the arguments of the term, each token at its place. Main statement: `Term.derives_suffixed`, in
front of the tokens of a term, and of others that belong to terms, the productions give this tree,
as long as the arguments are not nested more deeply than the levels allow.
-/

import RSource.Proofs.Term.Tokens
import RSource.Proofs.Grammar.Consumption

namespace RSource

open Grammar Reader Lexer

/-! ### The tree of a term -/

namespace Bracket

/-- The node that the brackets make of a target and its arguments. -/
def form : Bracket → Form
  | round => .call
  | square | doubleSquare => .index

def targetRole : Bracket → Role
  | round => .function
  | square | doubleSquare => .target

def openRole : Bracket → Role
  | round => .openBrace
  | square | doubleSquare => .openBracket

def closeRole : Bracket → Role
  | round => .closeBrace
  | square | doubleSquare => .closeBracket

def openerAt (bracket : Bracket) (start : Nat) : Lexeme :=
  ⟨bracket.delimiter.opener, start, bracket.opening⟩

def closerAt (bracket : Bracket) (start : Nat) : Lexeme :=
  ⟨bracket.delimiter.closer, start, bracket.closing⟩

end Bracket

/-- A comma at an offset. -/
def Lexeme.commaAt (start : Nat) : Lexeme := ⟨.comma, start, [',']⟩

namespace Term

mutual

/-- The tree of a term that begins at an offset. -/
def treeAt (start : Nat) : Term → Tree
  | name word => .leaf ⟨.identifier, start, word⟩
  | applied bracket target arguments =>
    let opener := bracket.openerAt (start + target.text.bytes)
    let closer := bracket.closerAt (opener.stop + (listText arguments).bytes)
    .ofParts bracket.form
      [ .child bracket.targetRole (target.treeAt start), .child bracket.openRole (.leaf opener),
        .child .arguments (listOf opener.stop (argumentsAt opener.stop arguments)),
        .child bracket.closeRole (.leaf closer) ]

/-- The arguments of a term, each one with its comma. -/
def argumentsAt (start : Nat) : List Term → List Part
  | [] => []
  | [last] => [.child .argument (.ofParts .argument [.child .value (last.treeAt start)])]
  | first :: second :: others =>
    let comma := Lexeme.commaAt (start + first.text.bytes)
    .child .argument (.ofParts .argument
        [.child .value (first.treeAt start), .child .comma (.leaf comma)])
      :: argumentsAt comma.stop (second :: others)

end

mutual

/-- The tree of a term has no problems. -/
theorem problems_treeAt (start : Nat) : (term : Term) → (term.treeAt start).problems = []
  | name _ => rfl
  | applied bracket target arguments => by
    simp [treeAt, listOf, Tree.ofParts, Tree.problems, Tree.partsProblems, Tree.partProblems,
      problems_treeAt _ target, problems_argumentsAt _ arguments]

theorem problems_argumentsAt (start : Nat) :
    (arguments : List Term) → Tree.partsProblems (argumentsAt start arguments) = []
  | [] => rfl
  | [last] => by
    simp [argumentsAt, Tree.ofParts, Tree.problems, Tree.partsProblems, Tree.partProblems,
      problems_treeAt _ last]
  | first :: second :: others => by
    simp [argumentsAt, Tree.ofParts, Tree.problems, Tree.partsProblems, Tree.partProblems,
      problems_treeAt _ first, problems_argumentsAt _ (second :: others)]

end

/-! ### The tokens of a term -/

mutual

theorem texts_pieces : (term : Term) → texts term.pieces = term.text
  | name word => List.append_nil word
  | applied bracket target arguments => by
    have opener (others : List Piece) :
        texts (bracket.opener :: others) = bracket.opening ++ texts others := rfl
    have closer : texts [bracket.closer] = bracket.closing := List.append_nil bracket.closing
    rw [pieces, text, texts_append, opener, texts_append, closer, texts_pieces target,
      texts_listPieces arguments]

theorem texts_listPieces :
    (arguments : List Term) → texts (listPieces arguments) = listText arguments
  | [] => rfl
  | [last] => texts_pieces last
  | first :: second :: others => by
    have comma (more : List Piece) : texts ((.comma, [',']) :: more) = ',' :: texts more := rfl
    rw [listPieces, listText, texts_append, comma, texts_pieces first,
      texts_listPieces (second :: others)]

end

/-- The tokens of a term are those of its target, the brackets and those of its arguments. -/
theorem place_applied (start : Nat) (bracket : Bracket) (target : Term) (arguments : List Term) :
    place start (applied bracket target arguments).pieces
      = place start target.pieces ++ bracket.openerAt (start + target.text.bytes)
        :: (place (bracket.openerAt (start + target.text.bytes)).stop (listPieces arguments)
          ++ [bracket.closerAt ((bracket.openerAt (start + target.text.bytes)).stop
            + (listText arguments).bytes)]) := by
  rw [pieces, place_append, texts_pieces, Bracket.opener, place, place_append, texts_listPieces]
  rfl

theorem place_arguments (start : Nat) (first second : Term) (others : List Term) :
    place start (listPieces (first :: second :: others))
      = place start first.pieces ++ Lexeme.commaAt (start + first.text.bytes)
        :: place (Lexeme.commaAt (start + first.text.bytes)).stop
          (listPieces (second :: others)) := by
  rw [listPieces, place_append, texts_pieces, place]
  rfl

/-- A term begins with a name. -/
theorem place_exists_cons (start : Nat) :
    (term : Term) → ∃ word rest, place start term.pieces = ⟨.identifier, start, word⟩ :: rest
  | name word => ⟨word, [], rfl⟩
  | applied bracket target arguments => by
    obtain ⟨word, rest, shape⟩ := place_exists_cons start target
    rw [place_applied, shape]
    exact ⟨word, _, rfl⟩

/-- The kinds of the words of terms. -/
def kinds : List TokenKind :=
  [ .identifier, .comma, .openBrace, .closeBrace, .openSquareBracket, .closeSquareBracket,
    .openDoubleSquareBracket, .closeDoubleSquareBracket ]

theorem opener_mem_kinds (bracket : Bracket) : bracket.delimiter.opener ∈ kinds := by
  cases bracket <;> decide

theorem closer_mem_kinds (bracket : Bracket) : bracket.delimiter.closer ∈ kinds := by
  cases bracket <;> decide

mutual

theorem kind_mem_of_mem_pieces {piece : Piece} :
    (term : Term) → piece ∈ term.pieces → piece.1 ∈ kinds
  | name word, member => by
    rw [List.mem_singleton.mp member]
    exact List.mem_cons_self
  | applied bracket target arguments, member => by
    rw [pieces, List.mem_append, List.mem_cons, List.mem_append, List.mem_singleton] at member
    rcases member with inTarget | rfl | inArguments | rfl
    · exact kind_mem_of_mem_pieces target inTarget
    · exact opener_mem_kinds bracket
    · exact kind_mem_of_mem_listPieces arguments inArguments
    · exact closer_mem_kinds bracket

theorem kind_mem_of_mem_listPieces {piece : Piece} :
    (arguments : List Term) → piece ∈ listPieces arguments → piece.1 ∈ kinds
  | [], member => absurd member List.not_mem_nil
  | [last], member => kind_mem_of_mem_pieces last member
  | first :: second :: others, member => by
    rw [listPieces, List.mem_append, List.mem_cons] at member
    rcases member with inFirst | rfl | inOthers
    · exact kind_mem_of_mem_pieces first inFirst
    · decide
    · exact kind_mem_of_mem_listPieces (second :: others) inOthers

end

/-! ### In front of such tokens -/

/-- A cursor in front of tokens that belong to terms, and of nothing else. -/
structure Faces (cursor : Cursor Lexeme) (tokens : List Lexeme) : Prop where
  rest : cursor.rest = tokens
  kinds : ∀ lexeme ∈ tokens, lexeme.kind ∈ Term.kinds
  marked : cursor.mark.kind = .endOfStream

section Faces

variable {cursor : Cursor Lexeme} {token : Lexeme} {tokens : List Lexeme} (mode : Mode)

theorem Faces.kind_current (faces : Faces cursor tokens) :
    cursor.current.kind ∈ TokenKind.endOfStream :: Term.kinds := by
  rw [Cursor.current, faces.rest]
  cases tokens with
  | nil =>
    rw [List.headD_nil, faces.marked]
    exact List.mem_cons_self
  | cons token tokens => exact List.mem_cons_of_mem _ (faces.kinds token List.mem_cons_self)

/-- No token there is of another kind. -/
theorem Faces.kind_ne {kind : TokenKind} (faces : Faces cursor tokens)
    (other : kind ∉ TokenKind.endOfStream :: Term.kinds) : cursor.current.kind ≠ kind := by
  rintro rfl
  exact other faces.kind_current

theorem Faces.settle (faces : Faces cursor tokens) : Reader.settle mode cursor = cursor :=
  settle_of_current mode (beq_eq_false_iff_ne.mpr (faces.kind_ne (by decide)))

theorem Faces.look (faces : Faces cursor tokens) : Grammar.look mode cursor = cursor.current := by
  rw [Grammar.look, faces.settle]

theorem Faces.look_cons (faces : Faces cursor (token :: tokens)) :
    Grammar.look mode cursor = token := by
  rw [faces.look, Cursor.current, faces.rest, List.headD_cons]

theorem Faces.kind_look_nil (faces : Faces cursor []) :
    (Grammar.look mode cursor).kind = .endOfStream := by
  rw [faces.look, Cursor.current, faces.rest]
  exact faces.marked

theorem Faces.past (faces : Faces cursor tokens) :
    Faces (Grammar.past mode cursor) (tokens.drop 1) where
  rest := by rw [past_rest, faces.settle, faces.rest]
  kinds lexeme member := faces.kinds lexeme (List.mem_of_mem_drop member)
  marked := by rw [past_mark, faces.marked]

/-- No operator stands there. -/
theorem Faces.infixOf? (faces : Faces cursor tokens) :
    Grammar.infixOf? (Grammar.look mode cursor) = none := by
  rw [faces.look]
  exact infixOf?_of_kind (faces.kind_ne (by decide))

theorem Faces.leadingOf? (faces : Faces cursor tokens) :
    Grammar.leadingOf? (Grammar.look mode cursor) = none := by
  rw [faces.look]
  exact leadingOf?_of_kind (faces.kind_ne (by decide))

/-- No argument there has a name. -/
theorem Faces.namesHere (faces : Faces cursor tokens) : Grammar.namesHere mode cursor = false := by
  rw [Grammar.namesHere, (faces.past mode).look, Lexeme.isOperator,
    beq_eq_false_iff_ne.mpr ((faces.past mode).kind_ne (by decide)), Bool.false_and, Bool.and_false]

/-- An expression without operators is what stands in front of its end. -/
theorem Faces.expression {levels : Nat} {role : Role} {mode : Mode} {first last : Cursor Lexeme}
    {front others : List Lexeme} {tree : Tree} (before : Faces first front)
    (behind : Faces last others) (ends : opensList (Grammar.look mode last).kind = false)
    (run : Derives (.suffixed levels role) mode first [.child role tree] last) :
    Derives (.expression (levels + 1) 0 role) mode first [.child role tree] last :=
  .expression_of_suffixed (before.settle mode) (behind.settle mode) (before.leadingOf? mode) ends
    (behind.infixOf? mode) run

/-- The same for an argument. -/
theorem Faces.item {levels : Nat} {mode : Mode} {first last : Cursor Lexeme}
    {front others : List Lexeme} {tree : Tree} (before : Faces first front)
    (behind : Faces last others) (ends : opensList (Grammar.look mode last).kind = false)
    (run : Derives (.suffixed levels .value) mode first [.child .value tree] last) :
    Derives (.item .call (levels + 1)) mode (Reader.settle mode first) [.child .value tree]
      last := by
  rw [before.settle]
  refine .unnamed (before.namesHere mode) ?_
  rw [before.settle]
  exact before.expression behind ends run

/-- Where a term stands the arguments go on. -/
theorem Faces.not_endsItems {start : Nat} {term : Term} {more : List Lexeme} (delimiter : Delimiter)
    (faces : Faces cursor (place start term.pieces ++ more)) :
    endsItems delimiter (Grammar.look mode cursor) = false := by
  obtain ⟨word, rest, shape⟩ := place_exists_cons start term
  rw [shape, List.cons_append] at faces
  rw [faces.look_cons]
  cases delimiter <;> rfl

end Faces

/-! ### What is read there -/

/-- Brackets behind a target make a call or an index of it. -/
theorem derives_applied {bracket : Bracket} {levels : Nat} {role : Role} {mode : Mode}
    {first second third : Cursor Lexeme} {target list : Tree} {opener closer : Lexeme}
    {arguments more : List Lexeme}
    (run : Derives (.suffixed levels role) mode first [.child role target] second)
    (opens : Faces second (opener :: arguments))
    (openerKind : opener.kind = bracket.delimiter.opener)
    (inside : Derives (.arguments .call bracket.delimiter levels opener.stop .arguments)
      mode.bracketed (past mode second) [.child .arguments list] third)
    (closes : Faces third (closer :: more)) (closerKind : closer.kind = bracket.delimiter.closer) :
    Derives (.suffixed levels role) mode first
      [.child role (.ofParts bracket.form
        [ .child bracket.targetRole target, .child bracket.openRole (.leaf opener),
          .child .arguments list, .child bracket.closeRole (.leaf closer) ])]
      (past mode.bracketed third) := by
  have lookOpener := opens.look_cons mode
  have lookCloser := closes.look_cons mode.bracketed
  have close (role : Role) (problem : ProblemKind) :
      Derives (.expected (isOfKind bracket.delimiter.closer) role problem) mode.bracketed third
        [.child role (.leaf closer)] (past mode.bracketed third) := by
    rw [← lookCloser]
    refine .found ?_ ?_
    · rw [lookCloser, isOfKind, closerKind, beq_self_eq_true]
    · refine isReadable_of_kind (lookCloser ▸ closerKind) ?_
      cases bracket <;> rfl
  rw [← lookOpener] at inside openerKind ⊢
  cases bracket with
  | round => exact .call run openerKind inside (close _ _)
  | square => exact .index run (.inl rfl) openerKind inside (close _ _)
  | doubleSquare => exact .index run (.inr rfl) openerKind inside (close _ _)

mutual

/-- **In front of a term its tree is read**, whatever is read behind it. -/
theorem derives_suffixed {levels start : Nat} {role : Role} {mode : Mode} {first : Cursor Lexeme}
    {more : List Lexeme} :
    (term : Term) → term.depth ≤ levels → Faces first (place start term.pieces ++ more) →
      ∃ last, Faces last more
        ∧ Derives (.suffixed levels role) mode first [.child role (term.treeAt start)] last
  | name word, _, faces => by
    have looked := faces.look_cons mode
    refine ⟨past mode first, faces.past mode, .suffixedStart ?_⟩
    rw [treeAt, ← looked]
    refine .atom ?_
    rw [looked]
    rfl
  | applied bracket target arguments, nested, faces => by
    have shallow := Nat.max_le.mp nested
    rw [place_applied, List.append_assoc, List.cons_append, List.append_assoc] at faces
    obtain ⟨second, opens, run⟩ := derives_suffixed target shallow.1 faces
    obtain ⟨third, closes, inside⟩ :=
      derives_arguments bracket.delimiter arguments shallow.2 rfl (opens.past mode) .itemsStart
    rw [List.nil_append] at inside
    exact ⟨past mode.bracketed third, closes.past _,
      derives_applied run opens rfl inside closes rfl⟩

/-- The arguments of a term are read up to the bracket behind them. -/
theorem derives_arguments {levels start anchor : Nat} {role : Role} {mode : Mode}
    {origin first : Cursor Lexeme} {parts : List Part} {closer : Lexeme} {more : List Lexeme}
    (delimiter : Delimiter) :
    (arguments : List Term) → listDepth arguments ≤ levels → closer.kind = delimiter.closer →
      Faces first (place start (listPieces arguments) ++ closer :: more) →
      Derives (.items .call delimiter levels) mode origin parts first →
      ∃ last, Faces last (closer :: more)
        ∧ Derives (.arguments .call delimiter levels anchor role) mode origin
          [.child role (listOf anchor (parts ++ argumentsAt start arguments))] last
  | [], _, closes, faces, items => by
    have looked := faces.look_cons mode
    refine ⟨first, faces, ?_⟩
    rw [argumentsAt, List.append_nil]
    have list := @Derives.closedList _ _ _ anchor role _ _ _ _ items
      (by rw [endsItems, looked, closes, beq_self_eq_true, Bool.true_or])
    rwa [faces.settle] at list
  | [last], nested, closes, faces, items => by
    obtain ⟨levels, rfl⟩ : ∃ inner, levels = inner + 1 :=
      Nat.exists_eq_add_of_le' (Nat.le_trans (Nat.succ_pos _) (Nat.max_le.mp nested).1)
    obtain ⟨behind, ends, run⟩ :=
      derives_suffixed last (Nat.le_of_succ_le_succ (Nat.max_le.mp nested).1) faces
    have looked : (look mode behind).kind = delimiter.closer := by rw [ends.look_cons, closes]
    have item := faces.item ends (by rw [looked]; cases delimiter <;> rfl) run
    refine ⟨behind, ends, ?_⟩
    rw [argumentsAt, ← ends.settle mode]
    refine .lastItem items (faces.not_endsItems mode delimiter) item ?_ rfl
    rw [looked]
    cases delimiter <;> decide
  | argument :: second :: others, nested, closes, faces, items => by
    obtain ⟨levels, rfl⟩ : ∃ inner, levels = inner + 1 :=
      Nat.exists_eq_add_of_le' (Nat.le_trans (Nat.succ_pos _) (Nat.max_le.mp nested).1)
    rw [place_arguments, List.append_assoc, List.cons_append] at faces
    obtain ⟨behind, separated, run⟩ :=
      derives_suffixed argument (Nat.le_of_succ_le_succ (Nat.max_le.mp nested).1) faces
    have looked := separated.look_cons mode
    have item := faces.item separated (by rw [looked]; rfl) run
    have longer := items.itemsMore (faces.not_endsItems mode delimiter) item (by rw [looked]; rfl)
    obtain ⟨last, ends, list⟩ := derives_arguments delimiter (second :: others)
      (Nat.max_le.mp nested).2 closes (separated.past mode) longer
    refine ⟨last, ends, ?_⟩
    rwa [leafAt, looked, List.append_assoc] at list

end

end Term

end RSource
