/-
**No token is lost silently.**

The leaves of a document are tokens of its text in their order, and the grammar takes a token at
most once. A token that is no leaf was passed over: a problem begins at or before it, and no leaf
stands between the two. Main statement: `Reading.keepsTokens`.

Where tokens are passed over is a matter of the tree alone: each run of them hangs on a problem at
its first token (`Derives.faithful`), so the order of the tokens says which leaves stand between.
-/

import RSource.Proofs.Program
import RSource.Proofs.Arena.Storage
import RSource.Proofs.Tree.Leaves
import RSource.Proofs.Tree.Subtrees
import Mathlib.Data.List.Nodup

namespace RSource

/-! ### Problems at the tokens passed over -/

/-- Tokens are passed over as unexpected ones, and the problem is at the first of them. -/
def Part.IsExplained : Part → Prop
  | .child _ _ => True
  | .problem found skipped =>
    ∀ first rest, skipped = first :: rest → found = ⟨.unexpectedToken, first.token⟩

namespace Tree

/-- A tree takes only tokens that may be leaves, and explains those passed over. -/
def IsFaithful : Tree → Prop
  | leaf lexeme => lexeme.isReadable = true
  | cut lexeme _ => lexeme.isReadable = true
  | node _ _ parts => ∀ part ∈ parts, part.IsExplained

end Tree

/-- Everything in a part is faithful. -/
def Part.IsFaithful (part : Part) : Prop := part.IsExplained ∧ part.All Tree.IsFaithful

namespace Tree

@[simp] theorem isFaithful_child (role : Role) (tree : Tree) :
    (Part.child role tree).IsFaithful ↔ tree.All IsFaithful := by
  simp [Part.IsFaithful, Part.IsExplained]

@[simp] theorem isFaithful_missing (found : Problem) : (Part.problem found []).IsFaithful := by
  simp [Part.IsFaithful, Part.IsExplained]

@[simp] theorem isFaithful_passed (found : Problem) (first : Lexeme) (rest : List Lexeme) :
    (Part.problem found (first :: rest)).IsFaithful
      ↔ found = ⟨.unexpectedToken, first.token⟩ := by
  simp [Part.IsFaithful, Part.IsExplained]

theorem all_isFaithful_node_iff (form : Form) (span : Span) (parts : List Part) :
    (node form span parts).All IsFaithful ↔ ∀ part ∈ parts, part.IsFaithful := by
  rw [all_node_iff]
  exact forall₂_and.symm

@[simp] theorem all_isFaithful_ofParts_iff (form : Form) (parts : List Part) :
    (ofParts form parts).All IsFaithful ↔ ∀ part ∈ parts, part.IsFaithful :=
  all_isFaithful_node_iff form _ parts

theorem isFaithful_of_single {role : Role} {tree : Tree}
    (holds : ∀ part ∈ [Part.child role tree], part.IsFaithful) : tree.All IsFaithful := by
  simpa using holds

end Tree

namespace Grammar

open Reader Cursor

@[simp] theorem isFaithful_leafAt_iff (mode : Mode) (cursor : Cursor Lexeme) :
    (leafAt mode cursor).All Tree.IsFaithful ↔ (look mode cursor).isReadable = true :=
  Tree.all_leaf_iff _

/-- What is passed over on a line begins with the token there. -/
theorem isFaithful_lineRest (mode : Mode) (cursor : Cursor Lexeme) :
    (Part.problem ⟨.unexpectedToken, cursor.current.token⟩ (lineRest mode cursor)).IsFaithful := by
  rw [lineRest, Cursor.current]
  cases cursor.rest with
  | nil => exact Tree.isFaithful_missing _
  | cons lexeme rest =>
    rw [List.takeWhile_cons]
    split
    · simp
    · exact Tree.isFaithful_missing _

/-- **All trees read are faithful.** -/
theorem Derives.faithful {phrase : Phrase} {mode : Mode} {first last : Cursor Lexeme}
    {parts : List Part} (run : Derives phrase mode first parts last) :
    ∀ part ∈ parts, part.IsFaithful := by
  induction run with
  | found _ readable | present _ readable => simp [readable]
  | missing | absent | cutNothing | noPrimary | unopened | noElse | itemsStart | listingStart =>
    simp
  | cutBracket goesOn _ | cutToken goesOn _ =>
    simp [Tree.IsFaithful, isReadable_of_endsNesting goesOn]
  | noExpression _ previous | expression _ _ previous | chainStart _ previous
  | operand _ previous | unsigned _ _ previous | noPostfixed _ previous
  | postfixed _ _ previous | suffixedStart _ previous | blockPrimary _ _ previous
  | constructPrimary _ _ _ previous | blockBody _ _ previous | unnamed _ _ previous
  | emptyFormal _ _ previous | noStatement _ previous | statements _ _ previous => exact previous
  | noOperand _ _ | noBody _ _ _ => simp
  | chainMore _ found _ left right =>
    simpa [isReadable_of_infixAt? found] using ⟨Tree.isFaithful_of_single left, right⟩
  | sign found _ right => simpa [isReadable_of_leadingOf? found] using right
  | call _ opened _ _ function list close =>
    simpa [isReadable_of_kind opened rfl, or_imp, forall_and]
      using ⟨Tree.isFaithful_of_single function, list, close⟩
  | index _ delimiter opened _ _ target list close =>
    have readable : (look _ _).isReadable = true := isReadable_of_kind opened (by
      obtain rfl | rfl := delimiter <;> rfl)
    simpa [readable, or_imp, forall_and] using ⟨Tree.isFaithful_of_single target, list, close⟩
  | access _ found _ target right =>
    simpa [isReadable_of_accessorOf? found] using ⟨Tree.isFaithful_of_single target, right⟩
  | atom found => simp [isReadable_of_isAtom found]
  | group opened _ _ inner close =>
    simpa [isReadable_of_kind opened rfl, or_imp, forall_and] using ⟨inner, close⟩
  | ifElse readable _ _ _ top main other =>
    simpa [readable, or_imp, forall_and] using ⟨top, main, other⟩
  | headed _ readable _ _ top main => simpa [readable, or_imp, forall_and] using ⟨top, main⟩
  | repeatLoop readable _ main => simpa [readable] using main
  | word _ readable => simp [readable]
  | opened opened _ inner => simpa [isReadable_of_kind opened rfl] using inner
  | condition _ _ _ tested close => simpa [or_imp, forall_and] using ⟨tested, close⟩
  | iteration _ _ _ _ counter link range close =>
    simpa [or_imp, forall_and] using ⟨counter, link, range, close⟩
  | formals _ _ list close => simpa [or_imp, forall_and] using ⟨list, close⟩
  | simpleBody _ _ previous => simpa using previous
  | elseBranch seen _ other =>
    simpa [isReadable_of_isKeyword (look_beyond_of_seesElse seen)] using other
  | itemsMore _ _ _ comma items item =>
    simpa [isReadable_of_kind comma rfl, or_imp, forall_and] using ⟨items, item⟩
  | closedList _ _ items => simpa [listOf, Tree.all_isFaithful_node_iff] using items
  | lastItem _ _ _ _ _ items item =>
    simpa [listOf, Tree.all_isFaithful_node_iff, or_imp, forall_and] using ⟨items, item⟩
  | noItem _ _ _ _ _ items item =>
    simpa [listOf, Tree.all_isFaithful_node_iff, or_imp, forall_and] using ⟨items, item⟩
  | named found _ value =>
    rw [namesHere, Bool.and_eq_true] at found
    simpa [isReadable_of_namesArgument found.1, isReadable_of_isOperator found.2] using value
  | formalDefault name equals _ value =>
    simpa [isReadable_of_kind name rfl, isReadable_of_isOperator equals] using value
  | formal name _ => simp [isReadable_of_kind name rfl]
  | misplacedFormal _ _ _ value => simpa using value
  | statement _ _ expression semicolon =>
    simpa using ⟨Tree.isFaithful_of_single expression, semicolon⟩
  | block opened _ _ items close =>
    simpa [isReadable_of_kind opened rfl, or_imp, forall_and] using ⟨items, close⟩
  | stray _ _ _ listing => simpa [or_imp, forall_and] using listing
  | unreadable _ _ _ failed listing _ =>
    obtain rfl := failed.stays rfl rfl
    simpa [or_imp, forall_and] using listing
  | listed _ _ _ _ _ listing statement =>
    simpa [or_imp, forall_and] using ⟨listing, Tree.isFaithful_of_single statement⟩
  | @crowded _ _ mode _ _ last _ _ _ _ _ _ _ listing statement =>
    have behind := isFaithful_lineRest mode (settle mode last)
    rw [show (settle mode last).current = look mode last from rfl] at behind
    simpa [or_imp, forall_and] using ⟨listing, Tree.isFaithful_of_single statement, behind⟩

end Grammar

/-! ### What stands between a token and its problem -/

/-- A problem passed over a lexeme: it is at a token at or before the lexeme, and no leaf begins
between the two. -/
structure PassedBy (problems : List Problem) (leaves tokens : List Lexeme) (lexeme : Lexeme)
    (found : Problem) : Prop where
  met : found ∈ problems
  kind : found.kind = .unexpectedToken ∨ found.kind = .nestingTooDeep
  token : ∃ first ∈ tokens, found.token = first.token
  before : found.token.start ≤ lexeme.start
  between : ∀ leaf ∈ leaves, ¬ (found.token.start < leaf.start ∧ leaf.start < lexeme.start)

/-- A lexeme is a leaf, or a problem passed over it. -/
def IsKept (problems : List Problem) (leaves tokens : List Lexeme) (lexeme : Lexeme) : Prop :=
  lexeme ∈ leaves ∨ ∃ found, PassedBy problems leaves tokens lexeme found

section Append

variable {problems further : List Problem} {leaves others tokens rest : List Lexeme}
  {lexeme : Lexeme}

/-- Leaves behind a lexeme do not stand between it and its problem. -/
theorem IsKept.append_left (kept : IsKept problems leaves tokens lexeme)
    (behind : ∀ leaf ∈ others, lexeme.start < leaf.start) :
    IsKept (problems ++ further) (leaves ++ others) (tokens ++ rest) lexeme := by
  rcases kept with member | ⟨found, passed⟩
  · exact .inl (List.mem_append_left _ member)
  obtain ⟨first, inside, same⟩ := passed.token
  refine .inr ⟨found, List.mem_append_left _ passed.met, passed.kind,
    ⟨first, List.mem_append_left _ inside, same⟩, passed.before, fun leaf member => ?_⟩
  rcases List.mem_append.mp member with early | late
  · exact passed.between leaf early
  · have later := behind leaf late
    omega

/-- Leaves in front of the tokens do not stand behind the problem. -/
theorem IsKept.append_right (kept : IsKept further others rest lexeme)
    (before : ∀ leaf ∈ leaves, ∀ first ∈ rest, leaf.start < first.start) :
    IsKept (problems ++ further) (leaves ++ others) (tokens ++ rest) lexeme := by
  rcases kept with member | ⟨found, passed⟩
  · exact .inl (List.mem_append_right _ member)
  obtain ⟨first, inside, same⟩ := passed.token
  refine .inr ⟨found, List.mem_append_right _ passed.met, passed.kind,
    ⟨first, List.mem_append_right _ inside, same⟩, passed.before, fun leaf member => ?_⟩
  rcases List.mem_append.mp member with early | late
  · have earlier := before leaf early first inside
    have place : found.token.start = first.start := by rw [same]; rfl
    omega
  · exact passed.between leaf late

end Append

namespace Tree

mutual

/-- **Every token of a faithful tree is a leaf or was passed over.** -/
theorem isKept_of_mem_tokens (tree : Tree) (faithful : tree.All IsFaithful)
    (ordered : tree.tokens.Pairwise (·.start < ·.start)) :
    ∀ lexeme ∈ tree.tokens, IsKept tree.problems tree.leaves tree.tokens lexeme := by
  cases tree with
  | leaf lexeme => exact fun _ member => .inl member
  | cut first skipped =>
    intro lexeme member
    rcases List.mem_cons.mp member with rfl | passed
    · exact .inl (List.mem_singleton_self _)
    · have before := List.rel_of_pairwise_cons ordered passed
      refine .inr ⟨⟨.nestingTooDeep, first.token⟩, List.mem_singleton_self _, .inr rfl,
        ⟨first, List.mem_cons_self, rfl⟩, Nat.le_of_lt before, fun leaf only => ?_⟩
      rw [List.mem_singleton.mp only]
      exact fun between => absurd between.1 (Nat.lt_irrefl _)
  | node form span parts =>
    exact isKept_of_mem_partsTokens parts ((all_isFaithful_node_iff form span parts).mp faithful)
      ordered

theorem isKept_of_mem_partTokens (part : Part) (faithful : part.IsFaithful)
    (ordered : (partTokens part).Pairwise (·.start < ·.start)) :
    ∀ lexeme ∈ partTokens part,
      IsKept (partProblems part) (partLeaves part) (partTokens part) lexeme := by
  cases part with
  | child role tree => exact isKept_of_mem_tokens tree faithful.2 ordered
  | problem found skipped =>
    intro lexeme member
    cases skipped with
    | nil => exact absurd member List.not_mem_nil
    | cons first rest =>
      obtain rfl := faithful.1 first rest rfl
      have before : first.start ≤ lexeme.start := by
        rcases List.mem_cons.mp member with rfl | behind
        · exact Nat.le_refl _
        · exact Nat.le_of_lt (List.rel_of_pairwise_cons ordered behind)
      exact .inr ⟨_, List.mem_singleton_self _, .inl rfl, ⟨first, List.mem_cons_self, rfl⟩, before,
        fun leaf none => absurd none List.not_mem_nil⟩

theorem isKept_of_mem_partsTokens (parts : List Part) (faithful : ∀ part ∈ parts, part.IsFaithful)
    (ordered : (partsTokens parts).Pairwise (·.start < ·.start)) :
    ∀ lexeme ∈ partsTokens parts,
      IsKept (partsProblems parts) (partsLeaves parts) (partsTokens parts) lexeme := by
  cases parts with
  | nil => exact fun lexeme none => absurd none List.not_mem_nil
  | cons part rest =>
    obtain ⟨own, others⟩ := List.forall_mem_cons.mp faithful
    obtain ⟨first, behind, across⟩ := List.pairwise_append.mp ordered
    intro lexeme member
    rcases List.mem_append.mp member with here | further
    · refine (isKept_of_mem_partTokens part own first lexeme here).append_left fun leaf late => ?_
      exact across lexeme here leaf ((partsLeaves_sublist rest).subset late)
    · refine (isKept_of_mem_partsTokens rest others behind lexeme further).append_right ?_
      exact fun leaf early => across leaf ((partLeaves_sublist part).subset early)

end

mutual

/-- **A faithful tree without problems passes over nothing.** -/
theorem leaves_eq_tokens (tree : Tree) (faithful : tree.All IsFaithful)
    (clean : tree.problems = []) : tree.leaves = tree.tokens := by
  cases tree with
  | leaf lexeme => rfl
  | cut lexeme skipped => exact absurd clean (List.cons_ne_nil _ _)
  | node form span parts =>
    exact partsLeaves_eq_partsTokens parts ((all_isFaithful_node_iff form span parts).mp faithful)
      clean

theorem partLeaves_eq_partTokens (part : Part) (faithful : part.IsFaithful)
    (clean : partProblems part = []) : partLeaves part = partTokens part := by
  cases part with
  | child role tree => exact leaves_eq_tokens tree faithful.2 clean
  | problem found skipped => exact absurd clean (List.cons_ne_nil _ _)

theorem partsLeaves_eq_partsTokens (parts : List Part)
    (faithful : ∀ part ∈ parts, part.IsFaithful) (clean : partsProblems parts = []) :
    partsLeaves parts = partsTokens parts := by
  cases parts with
  | nil => rfl
  | cons part rest =>
    obtain ⟨own, others⟩ := List.forall_mem_cons.mp faithful
    obtain ⟨first, behind⟩ := List.append_eq_nil_iff.mp clean
    rw [partsLeaves, partsTokens, partLeaves_eq_partTokens part own first,
      partsLeaves_eq_partsTokens rest others behind]

end

mutual

theorem isReadable_of_mem_leaves (tree : Tree) (faithful : tree.All IsFaithful) :
    ∀ lexeme ∈ tree.leaves, lexeme.isReadable = true := by
  cases tree with
  | leaf lexeme => simpa [leaves, IsFaithful] using faithful _ .here
  | cut lexeme skipped => simpa [leaves, IsFaithful] using faithful _ .here
  | node form span parts =>
    exact isReadable_of_mem_partsLeaves parts
      ((all_isFaithful_node_iff form span parts).mp faithful)

theorem isReadable_of_mem_partLeaves (part : Part) (faithful : part.IsFaithful) :
    ∀ lexeme ∈ partLeaves part, lexeme.isReadable = true := by
  cases part with
  | child role tree => exact isReadable_of_mem_leaves tree faithful.2
  | problem found skipped => exact fun lexeme none => absurd none List.not_mem_nil

theorem isReadable_of_mem_partsLeaves (parts : List Part)
    (faithful : ∀ part ∈ parts, part.IsFaithful) :
    ∀ lexeme ∈ partsLeaves parts, lexeme.isReadable = true := by
  cases parts with
  | nil => exact fun lexeme none => absurd none List.not_mem_nil
  | cons part rest =>
    obtain ⟨own, others⟩ := List.forall_mem_cons.mp faithful
    intro lexeme member
    rcases List.mem_append.mp member with here | further
    · exact isReadable_of_mem_partLeaves part own lexeme here
    · exact isReadable_of_mem_partsLeaves rest others lexeme further

end

end Tree

/-! ### The tokens of a text -/

/-- The tokens of a text. -/
def tokensOf (text : Text) : List Token := (lexemes text).map (·.token)

namespace TokenKind

/-- Blanks, comments, line breaks and the mark at the end are never leaves. -/
def isNeverLeaf (kind : TokenKind) : Bool :=
  kind.isTrivia || kind == .lineBreak || kind == .endOfStream

/-- Tokens that the tree of a text without problems may leave out. -/
def isOmissible (kind : TokenKind) : Bool :=
  kind.isTrivia || kind == .lineBreak || kind == .semicolon

end TokenKind

namespace Reading

variable (reading : Reading)

/-- Recovery passed over a token: there is a problem at or before it, of a kind that passes over
tokens, and no leaf begins strictly between the two. -/
def PassedOver (token : Token) : Prop :=
  ∃ found ∈ reading.problems,
    (found.kind = .unexpectedToken ∨ found.kind = .nestingTooDeep)
      ∧ found.token.start ≤ token.start
      ∧ ∀ leaf ∈ reading.document.leafTokens,
          ¬ (found.token.start < leaf.start ∧ leaf.start < token.start)

/-- The leaves of a document account for the tokens of its text. -/
structure KeepsTokens : Prop where
  /-- By node number, the leaves begin at strictly increasing offsets. -/
  ordered : reading.document.leafTokens.Pairwise (·.start < ·.start)
  /-- They are the leaves met on the way down from the root. -/
  traversed : reading.document.leafIds
    = (reading.document.preorder Document.root).filter reading.document.isLeaf
  /-- Each is a token of the text. -/
  found : ∀ leaf ∈ reading.document.leafTokens,
    leaf ∈ tokensOf reading.text ∧ leaf.kind.isNeverLeaf = false
  /-- Each token that must not be left out is one leaf, or none and passed over. -/
  kept : ∀ token ∈ tokensOf reading.text, token.kind.isOmissible = false →
    reading.document.leafTokens.count token = 1
      ∨ token ∉ reading.document.leafTokens ∧ reading.PassedOver token
  /-- Without problems nothing is passed over. -/
  complete : reading.problems = [] →
    reading.document.leafTokens.Sublist (tokensOf reading.text)
      ∧ reading.document.leafTokens.filter (!·.kind.isOmissible)
        = (tokensOf reading.text).filter (!·.kind.isOmissible)

end Reading

section Text

variable {text : Text}

/-- The tokens of the tree are tokens of the text, all but some separators. -/
theorem keeps_significant (text : Text) :
    Grammar.Keeps (significant text) (read text).tree.tokens := by
  obtain ⟨items, last, derivation⟩ := Reading.derivation text
  obtain ⟨consumed, moved, kept⟩ := derivation.derives.accounts rfl
  have all : significant text = consumed ++ last.rest := moved.rest
  rw [derivation.rest, List.append_nil] at all
  rw [derivation.tree, all]
  exact kept

theorem faithful_tree (text : Text) : (read text).tree.All Tree.IsFaithful := by
  obtain ⟨items, last, derivation⟩ := Reading.derivation text
  rw [derivation.tree, Tree.all_isFaithful_node_iff]
  exact derivation.derives.faithful

theorem tokens_ordered (text : Text) : (read text).tree.tokens.Pairwise (·.start < ·.start) :=
  (significant_ordered text).sublist (keeps_significant text).sublist

theorem leafTokens_eq (text : Text) :
    (read text).document.leafTokens = (read text).tree.leaves.map (·.token) :=
  (read text).leafTokens_document

theorem leafTokens_ordered (text : Text) :
    (read text).document.leafTokens.Pairwise (·.start < ·.start) := by
  rw [leafTokens_eq, List.pairwise_map]
  exact (tokens_ordered text).sublist (Tree.leaves_sublist _)

theorem mem_tokens_of_not_isOmissible {lexeme : Lexeme} (inside : lexeme ∈ lexemes text)
    (needed : lexeme.kind.isOmissible = false) : lexeme ∈ (read text).tree.tokens := by
  obtain ⟨⟨noTrivia, noBreak⟩, noSemicolon⟩ : (lexeme.kind.isTrivia = false
      ∧ (lexeme.kind == .lineBreak) = false) ∧ (lexeme.kind == .semicolon) = false := by
    simpa [TokenKind.isOmissible] using needed
  have member : lexeme ∈ (significant text).filter (!Grammar.isSeparator ·) := by
    rw [List.mem_filter, mem_significant_iff]
    refine ⟨⟨inside, ?_, ?_⟩, by simp [Grammar.isSeparator, noBreak, noSemicolon]⟩
    · intro blank
      simp [blank, TokenKind.isTrivia] at noTrivia
    · intro comment
      simp [comment, TokenKind.isTrivia] at noTrivia
  rw [← (keeps_significant text).complete] at member
  exact (List.mem_filter.mp member).1

theorem mem_lexemes_of_mem_leaves {lexeme : Lexeme} (leaf : lexeme ∈ (read text).tree.leaves) :
    lexeme ∈ lexemes text ∧ lexeme.kind.isNeverLeaf = false := by
  have member := (keeps_significant text).sublist.subset ((Tree.leaves_sublist _).subset leaf)
  obtain ⟨inside, noBlank, noComment⟩ := mem_significant_iff.mp member
  have readable := Tree.isReadable_of_mem_leaves _ (faithful_tree text) lexeme leaf
  obtain ⟨kind, start, word⟩ := lexeme
  refine ⟨inside, ?_⟩
  cases kind <;>
    first | rfl | exact absurd rfl noBlank | exact absurd rfl noComment | cases readable

/-- What may be left out is a blank, a comment or a separator. -/
theorem filter_isOmissible (text : Text) :
    (read text).tree.tokens.filter (!·.kind.isOmissible)
      = (lexemes text).filter (!·.kind.isOmissible) := by
  have same := congrArg (List.filter (!·.kind.isTrivia)) (keeps_significant text).complete
  simp only [significant, List.filter_filter] at same
  have onTokens (lexeme : Lexeme) :
      (!lexeme.kind.isTrivia && !Grammar.isSeparator lexeme) = !lexeme.kind.isOmissible := by
    simp [TokenKind.isOmissible, Grammar.isSeparator, Bool.or_assoc]
  have onText (lexeme : Lexeme) : (!lexeme.kind.isTrivia && (!Grammar.isSeparator lexeme
      && (!lexeme.isComment && !lexeme.isWhitespace))) = !lexeme.kind.isOmissible := by
    obtain ⟨kind, start, word⟩ := lexeme
    cases kind <;> rfl
  simpa only [onTokens, onText] using same

theorem mem_leafTokens_iff {token : Token} :
    token ∈ (read text).document.leafTokens
      ↔ ∃ leaf ∈ (read text).tree.leaves, leaf.token = token := by
  rw [leafTokens_eq, List.mem_map]

/-- A token that is no leaf was passed over. -/
theorem passedOver_of_not_mem {lexeme : Lexeme} (inside : lexeme ∈ lexemes text)
    (needed : lexeme.kind.isOmissible = false)
    (absent : lexeme.token ∉ (read text).document.leafTokens) :
    (read text).PassedOver lexeme.token := by
  rcases Tree.isKept_of_mem_tokens _ (faithful_tree text) (tokens_ordered text) lexeme
    (mem_tokens_of_not_isOmissible inside needed) with leaf | ⟨found, passed⟩
  · exact absurd (mem_leafTokens_iff.mpr ⟨lexeme, leaf, rfl⟩) absent
  · refine ⟨found, passed.met, passed.kind, passed.before, fun leaf member => ?_⟩
    obtain ⟨other, inTree, rfl⟩ := mem_leafTokens_iff.mp member
    exact passed.between other inTree

/-- **No token is lost silently.** -/
theorem Reading.keepsTokens (text : Text) : (read text).KeepsTokens where
  ordered := leafTokens_ordered text
  traversed := (read text).leafIds_document
  found leaf member := by
    obtain ⟨lexeme, inTree, rfl⟩ := mem_leafTokens_iff.mp member
    obtain ⟨inside, kind⟩ := mem_lexemes_of_mem_leaves inTree
    exact ⟨List.mem_map_of_mem inside, kind⟩
  kept token member needed := by
    obtain ⟨lexeme, inside, rfl⟩ := List.mem_map.mp member
    by_cases leaf : lexeme.token ∈ (read text).document.leafTokens
    · have once : (read text).document.leafTokens.Nodup :=
        (leafTokens_ordered text).imp fun before same => absurd (same ▸ before) (Nat.lt_irrefl _)
      exact .inl (List.count_eq_one_of_mem once leaf)
    · exact .inr ⟨leaf, passedOver_of_not_mem inside needed leaf⟩
  complete clean := by
    rw [leafTokens_eq, Tree.leaves_eq_tokens _ (faithful_tree text) clean]
    refine ⟨((keeps_significant text).sublist.trans (significant_sublist text)).map _, ?_⟩
    rw [tokensOf, List.filter_map, List.filter_map]
    exact congrArg (List.map _) (filter_isOmissible text)

end Text

end RSource
