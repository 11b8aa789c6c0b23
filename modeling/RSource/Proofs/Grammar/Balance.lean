/-
**A text without problems leaves no square bracket open.**

Only an index takes square brackets, and it takes both or meets a problem. So the tokens of what was
read without problems open and close the same ones (`Derives.areBalanced`), whatever is open in
front of them. The tokens that a tree leaves out are no brackets, so the same holds of all lexemes
of the text: `openedBehind_lexemes`.
-/

import RSource.Proofs.Leaves
import RSource.Proofs.Token.Restart
import RSource.Proofs.Tree.Problems

namespace RSource

open Lexer Grammar

/-- Tokens behind which the same square brackets are open as in front of them. -/
def IsBalanced (tokens : List Lexeme) : Prop :=
  ∀ opened, openedBehind opened (tokens.map (·.kind)) = opened

theorem isBalanced_nil : IsBalanced [] := fun _ => rfl

theorem IsBalanced.append {first second : List Lexeme} (before : IsBalanced first)
    (behind : IsBalanced second) : IsBalanced (first ++ second) := by
  intro opened
  rw [List.map_append, openedBehind_append, before, behind]

theorem IsBalanced.cons {lexeme : Lexeme} {tokens : List Lexeme}
    (plain : lexeme.kind.isSquareBracket = false) (behind : IsBalanced tokens) :
    IsBalanced (lexeme :: tokens) := by
  intro opened
  rw [List.map_cons, openedBehind_cons, bracketsBehind_of_plain plain, behind]

/-! ### Parts -/

/-- Parts without problems hold tokens that are balanced. -/
def AreBalanced (parts : List Part) : Prop :=
  Tree.partsProblems parts = [] → IsBalanced (Tree.partsTokens parts)

namespace AreBalanced

variable {left right items rest : List Part} {role own : Role} {tree : Tree} {lexeme : Lexeme}

theorem nil : AreBalanced [] := fun _ => isBalanced_nil

theorem problem (found : Problem) (skipped : List Lexeme) :
    AreBalanced (.problem found skipped :: rest) := fun clean => absurd clean (List.cons_ne_nil _ _)

theorem cut (skipped : List Lexeme) : AreBalanced [.child role (.cut lexeme skipped)] :=
  fun clean => absurd clean (List.cons_ne_nil _ _)

theorem append (before : AreBalanced left) (behind : AreBalanced right) :
    AreBalanced (left ++ right) := by
  intro clean
  rw [Tree.partsProblems_append, List.append_eq_nil_iff] at clean
  rw [Tree.partsTokens_append]
  exact (before clean.1).append (behind clean.2)

theorem child (single : AreBalanced [.child own tree]) (behind : AreBalanced rest) :
    AreBalanced (.child role tree :: rest) := by
  intro clean
  rw [Tree.partsProblems_child, List.append_eq_nil_iff] at clean
  have first := single (by simpa using clean.1)
  rw [Tree.partsTokens_child, Tree.partsTokens_nil, List.append_nil] at first
  exact first.append (behind clean.2)

theorem leaf (plain : lexeme.kind.isSquareBracket = false) (behind : AreBalanced rest) :
    AreBalanced (.child role (.leaf lexeme) :: rest) := fun clean => .cons plain (behind clean)

theorem node {form : Form} {span : Span} (inside : AreBalanced items) :
    AreBalanced [.child role (.node form span items)] := by
  intro clean
  rw [Tree.partsTokens_child, Tree.partsTokens_nil, List.append_nil, Tree.tokens_node]
  exact inside (by simpa using clean)

/-- Balanced parts between a pair of square brackets. -/
theorem between {delimiter : Delimiter} {first last : Lexeme}
    (square : delimiter = .squareBracket ∨ delimiter = .doubleSquareBracket)
    (opens : first.kind = delimiter.opener) (closes : last.kind = delimiter.closer)
    (inside : AreBalanced items) :
    AreBalanced (.child role (.leaf first) :: (items ++ [.child own (.leaf last)])) := by
  intro clean opened
  have balanced := inside (by simpa using clean)
  simp only [Tree.partsTokens_child, Tree.partsTokens_append, Tree.partsTokens_nil,
    Tree.tokens_leaf, List.append_nil, List.singleton_append, List.map_cons, List.map_append,
    List.map_nil, openedBehind_cons, openedBehind_append, openedBehind_nil, balanced _, opens,
    closes]
  obtain rfl | rfl := square <;> rfl

end AreBalanced

/-! ### Phrases -/

namespace Grammar

/-- No token that a phrase may begin with by itself is a square bracket. -/
def Phrase.IsPlain : Phrase → Mode → Cursor Lexeme → Prop
  | .expected accepts _ _, _, _ | .optional accepts _, _, _ =>
    ∀ lexeme : Lexeme, accepts lexeme = true → lexeme.kind.isSquareBracket = false
  | .construct _ _ _, mode, first => (look mode first).kind.isSquareBracket = false
  | _, _, _ => True

theorem plain_of_kind {lexeme : Lexeme} {kind : TokenKind} (found : lexeme.kind = kind)
    (plain : kind.isSquareBracket = false) : lexeme.kind.isSquareBracket = false :=
  found ▸ plain

theorem plain_isOfKind {kind : TokenKind} (plain : kind.isSquareBracket = false) (lexeme : Lexeme)
    (found : isOfKind kind lexeme = true) : lexeme.kind.isSquareBracket = false :=
  plain_of_kind (eq_of_beq found) plain

theorem plain_of_isAtom {lexeme : Lexeme} (found : isAtom lexeme = true) :
    lexeme.kind.isSquareBracket = false := by
  obtain ⟨kind, start, text⟩ := lexeme
  cases kind <;> first | rfl | cases found

theorem plain_of_isMember {lexeme : Lexeme} (found : isMember lexeme = true) :
    lexeme.kind.isSquareBracket = false := by
  obtain ⟨kind, start, text⟩ := lexeme
  cases kind <;> first | rfl | cases found

theorem plain_of_namesArgument {lexeme : Lexeme} (found : namesArgument lexeme = true) :
    lexeme.kind.isSquareBracket = false := by
  obtain ⟨kind, start, text⟩ := lexeme
  cases kind <;> first | rfl | cases found

theorem plain_of_isOperator {lexeme : Lexeme} {text : Text}
    (found : lexeme.isOperator text = true) : lexeme.kind.isSquareBracket = false := by
  rw [Lexeme.isOperator, Bool.and_eq_true] at found
  exact plain_of_kind (eq_of_beq found.1) rfl

theorem plain_of_isKeyword {lexeme : Lexeme} {word : Text}
    (found : lexeme.isKeyword word = true) : lexeme.kind.isSquareBracket = false := by
  rw [Lexeme.isKeyword, Bool.and_eq_true] at found
  exact plain_of_kind (eq_of_beq found.1) rfl

open AreBalanced in
/-- **What is read without problems opens and closes the same square brackets.** -/
theorem Derives.areBalanced {phrase : Phrase} {mode : Mode} {first last : Cursor Lexeme}
    {parts : List Part} (run : Derives phrase mode first parts last)
    (plain : phrase.IsPlain mode first) : AreBalanced parts := by
  induction run with
  | found accepted _ | present accepted _ => exact leaf (plain _ accepted) nil
  | absent _ | cutNothing _ | noPrimary _ _ | noElse _ | itemsStart | listingStart => exact nil
  | missing _ | noOperand _ _ | unopened _ | noBody _ _ _ | misplacedFormal _ _ _ _ =>
    exact problem _ _
  | cutBracket _ _ | cutToken _ _ => exact cut _
  | noExpression _ previous | expression _ _ previous | chainStart _ previous
  | operand _ previous | unsigned _ _ previous | noPostfixed _ previous
  | postfixed _ _ previous | suffixedStart _ previous | blockPrimary _ _ previous
  | blockBody _ _ previous | unnamed _ _ previous | emptyFormal _ _ previous
  | noStatement _ previous | statements _ _ previous => exact previous trivial
  | chainMore _ found _ left right =>
    have sign := kind_of_infixOf? (infixAt?_eq_some_iff.mp found).1
    exact node (child (left trivial) (leaf (plain_of_kind sign rfl) (right trivial)))
  | sign found _ right =>
    exact node (leaf (plain_of_kind (kind_of_leadingOf? found) rfl) (right trivial))
  | call _ opened _ _ function list close =>
    have behind := (list trivial).append (close (plain_isOfKind rfl))
    exact node (child (function trivial) (leaf (plain_of_kind opened rfl) behind))
  | index _ square opened _ inClose target list _ =>
    -- The closing bracket is not balanced by itself.
    cases inClose with
    | found closed _ =>
      exact node (child (target trivial) (between square opened (eq_of_beq closed) (list trivial)))
    | missing _ =>
      refine node fun clean => ?_
      simp at clean
  | access _ found _ target right =>
    have sign := kind_of_infixOf? (accessorOf?_eq_some_iff.mp found).1
    have member := right fun _ => plain_of_isMember
    exact node (child (target trivial) (leaf (plain_of_kind sign rfl) member))
  | atom atom => exact leaf (plain_of_isAtom atom) nil
  | group opened _ _ inner close =>
    have behind := (inner trivial).append (close (plain_isOfKind rfl))
    exact node (leaf (plain_of_kind opened rfl) behind)
  | constructPrimary keyword _ _ previous =>
    refine previous ?_
    rw [Phrase.IsPlain, look_settle]
    exact plain_of_kind keyword rfl
  | ifElse _ _ _ _ top main other =>
    exact node (leaf plain (((top trivial).append (main trivial)).append (other trivial)))
  | headed _ _ _ _ top main => exact node (leaf plain ((top trivial).append (main trivial)))
  | repeatLoop _ _ main => exact node (leaf plain (main trivial))
  | word _ _ => exact node (leaf plain nil)
  | opened opened _ inner => exact leaf (plain_of_kind opened rfl) (inner trivial)
  | condition _ _ _ tested close => exact (tested trivial).append (close (plain_isOfKind rfl))
  | iteration _ _ _ _ counter link range close =>
    have head := (counter (plain_isOfKind rfl)).append (link fun _ => plain_of_isKeyword)
    exact (head.append (range trivial)).append (close (plain_isOfKind rfl))
  | formals _ _ list close => exact (list trivial).append (close (plain_isOfKind rfl))
  | simpleBody _ _ previous => exact node (previous trivial)
  | elseBranch seen _ other =>
    exact leaf (plain_of_isKeyword (look_beyond_of_seesElse seen)) (other trivial)
  | itemsMore _ _ _ comma items item =>
    have separator := plain_of_kind comma rfl
    exact (items trivial).append (node ((item trivial).append (leaf separator nil)))
  | closedList _ _ items => exact node (items trivial)
  | lastItem _ _ _ _ _ items item => exact node ((items trivial).append (node (item trivial)))
  | noItem _ _ _ _ _ items item => exact node ((items trivial).append (item trivial))
  | named found _ value =>
    rw [namesHere, Bool.and_eq_true] at found
    have sign := plain_of_isOperator found.2
    exact leaf (plain_of_namesArgument found.1) (leaf sign (value trivial))
  | formalDefault name equals _ value =>
    have sign := plain_of_isOperator equals
    exact leaf (plain_of_kind name rfl) (leaf sign (value trivial))
  | formal name _ => exact leaf (plain_of_kind name rfl) nil
  | statement _ _ expression semicolon =>
    exact node (child (expression trivial) (semicolon (plain_isOfKind rfl)))
  | block opened _ _ items close =>
    have behind := (items trivial).append (close (plain_isOfKind rfl))
    exact node (leaf (plain_of_kind opened rfl) behind)
  | stray _ _ _ listing | unreadable _ _ _ _ listing _ =>
    exact (listing trivial).append (problem _ _)
  | listed _ _ _ _ _ listing statement => exact (listing trivial).append (statement trivial)
  | crowded _ _ _ _ _ listing statement =>
    exact (listing trivial).append (child (statement trivial) (problem _ _))

end Grammar

/-- Other tokens may be left out. -/
theorem openedBehind_filter {keeps : Lexeme → Bool}
    (plain : ∀ lexeme, keeps lexeme = false → lexeme.kind.isSquareBracket = false)
    (tokens : List Lexeme) (opened : List TokenKind) :
    openedBehind opened ((tokens.filter keeps).map (·.kind))
      = openedBehind opened (tokens.map (·.kind)) := by
  induction tokens generalizing opened with
  | nil => rfl
  | cons lexeme tokens previous =>
    rw [List.map_cons, openedBehind_cons, ← previous, List.filter_cons]
    split
    · rfl
    · rename_i leftOut
      rw [bracketsBehind_of_plain (plain lexeme (Bool.eq_false_iff.mpr leftOut))]

theorem openedBehind_significant (text : Text) (opened : List TokenKind) :
    openedBehind opened ((significant text).map (·.kind))
      = openedBehind opened ((lexemes text).map (·.kind)) := by
  have blank (lexeme : Lexeme) (leftOut : (!lexeme.isWhitespace) = false) :
      lexeme.kind.isSquareBracket = false := by
    rw [Bool.not_eq_false', Lexeme.isWhitespace, beq_iff_eq] at leftOut
    rw [leftOut]
    rfl
  have comment (lexeme : Lexeme) (leftOut : (!lexeme.isComment) = false) :
      lexeme.kind.isSquareBracket = false := by
    rw [Bool.not_eq_false', Lexeme.isComment, beq_iff_eq] at leftOut
    rw [leftOut]
    rfl
  rw [significant, openedBehind_filter comment, openedBehind_filter blank]

/-- **Behind a text without problems no square bracket is open.** -/
theorem openedBehind_lexemes {text : Text} (clean : (read text).problems = []) :
    openedBehind [] ((lexemes text).map (·.kind)) = [] := by
  have omits (lexeme : Lexeme) (omissible : (!lexeme.kind.isOmissible) = false) :
      lexeme.kind.isSquareBracket = false := by
    obtain ⟨kind, start, text⟩ := lexeme
    cases kind <;> first | rfl | cases omissible
  have skips := openedBehind_filter omits
  obtain ⟨items, last, derivation⟩ := Reading.derivation text
  have balanced := derivation.derives.areBalanced trivial
  rw [Reading.problems, derivation.tree] at clean
  have tokens := filter_isOmissible text
  rw [derivation.tree, Tree.tokens_node] at tokens
  rw [← skips, ← tokens, skips]
  exact balanced clean []

end RSource
