/-
**A whole text, with every check made.**

`Checked.parse` cuts a text into tokens, gives each token its text, reads the program and tells the
nodes their parents, all with checks. Main statement: `parse_eq`, for every text it ends without a
fault and gives the document and the problems of `read`. So the nodes that the productions have
added are a tree (`exists_isTree_parse`). The tokens come one by one from a stream that ends
(`drain_eq`), the statements are those that the productions give for them, and a child is among the
nodes when its parent is named to it (`gives_link`).
-/

import RSource.Proofs.Arena.Ownership
import RSource.Proofs.Checked.Following
import RSource.Proofs.Token.Coverage

namespace RSource

/-! ### Tokens -/

namespace Lexer

/-- The tokens of a stream, one by one. It is a fault if there are none where something is left. -/
def Stream.drain (stream : Stream) : Checked.Run (List Token) := do
  if stream.waiting.isEmpty && stream.left.isEmpty then return []
  else
    match stream.next longestRule with
    | some (token, behind) => return token :: (← behind |>.drain)
    | none => throw (.noSlice (stream.passed.bytes + 1) (stream.passed ++ stream.left).bytes)
partial_fixpoint

end Lexer

namespace Checked

open Grammar Reader

/-- The tokens of `length` bytes of a text. -/
def tokenize (text : Text) (start length : Nat) : Run (List Token) := do
  (Lexer.Stream.ofWindow start (← slice text start (start + length))).drain

/-- A token with its text. -/
def spell (text : Text) (token : Token) : Run Lexeme := do
  return ⟨token.kind, token.start, ← slice text token.start token.stop⟩

/-- Reads a text. -/
def parse (text : Text) : Run (Document × List Problem) := do
  let tokens ← tokenize text 0 text.bytes
  let lexemes ← tokens.mapM (spell text)
  let (_, session) ← readAll ⟨text⟩ (Session.start text lexemes)
  return (session.document, session.problems)

end Checked

namespace Lexer

/-- A stream that gives nothing has nothing left. -/
theorem Matcher.IsSteady.left_of_next {matcher : Matcher} (steady : matcher.IsSteady)
    {stream : Stream} (ended : stream.next matcher = none) :
    stream.waiting = [] ∧ stream.left = [] := by
  cases waits : stream.waiting with
  | cons token waiting =>
    unfold Stream.next at ended
    rw [waits] at ended
    cases ended
  | nil =>
    refine ⟨rfl, ?_⟩
    by_contra more
    cases found : (matcher stream.left).kind with
    | some kind =>
      obtain ⟨word, token, after, step⟩ := Stream.exists_stepsOver steady more waits found
      rw [step.given] at ended
      cases ended
    | none =>
      obtain ⟨c, rest, left⟩ := List.exists_cons_of_ne_nil more
      obtain ⟨first, word, front⟩ := List.exists_cons_of_ne_nil (steady.take_ne_nil more)
      have same : first = c := by
        have positive := steady.positive _ more
        rw [left] at front positive
        obtain ⟨count, shape⟩ := Nat.exists_eq_succ_of_ne_zero (Nat.ne_of_gt positive)
        rw [shape, List.take_succ_cons] at front
        exact (List.cons.inj front).1.symm
      subst same
      rw [Stream.next_unknown waits found left front] at ended
      cases ended

end Lexer

namespace Checked

/-- **The loop over the tokens ends, and none is missed.** -/
theorem drain_eq {stream : Lexer.Stream} {tokens : List Token}
    (yields : stream.Yields Lexer.longestRule tokens) : stream.drain = pure tokens := by
  induction yields with
  | done ended =>
    obtain ⟨waits, left⟩ := Lexer.longestRule_isSteady.left_of_next ended
    rw [Lexer.Stream.drain, waits, left]
    rfl
  | @more stream _ _ _ given _ previous =>
    have more : ¬(stream.waiting.isEmpty && stream.left.isEmpty) = true := by
      rw [Bool.and_eq_true, List.isEmpty_iff, List.isEmpty_iff]
      rintro ⟨waits, left⟩
      rw [Lexer.Stream.next_nil waits left] at given
      cases given
    rw [Lexer.Stream.drain, if_neg more, given]
    simp [previous]

theorem slice_of_slice? {text found : Text} {start stop : Nat}
    (there : text.slice? start stop = some found) : slice text start stop = pure found := by
  rw [slice, there]

theorem tokenize_eq (text : Text) :
    tokenize text 0 text.bytes = pure ((lexemes text).map Lexeme.token) := by
  have whole : text.slice? 0 (0 + text.bytes) = some text := by
    have found := Text.slice?_middle [] text []
    rwa [List.append_nil, List.nil_append, Text.bytes_nil] at found
  have yields : (Lexer.Stream.ofWindow 0 text).Yields Lexer.longestRule
      ((lexemes text).map Lexeme.token) := Lexer.yields_pieces rfl (Nat.le_refl _)
  rw [tokenize, slice_of_slice? whole, pure_bind, drain_eq yields]

theorem mapM_eq {α β : Type} {steps : α → Run β} {value : α → β} {list : List α}
    (each : ∀ item ∈ list, steps item = pure (value item)) :
    list.mapM steps = pure (list.map value) := by
  induction list with
  | nil => rfl
  | cons item rest previous =>
    rw [List.forall_mem_cons] at each
    rw [List.mapM_cons, each.1, pure_bind, previous each.2, pure_bind, List.map_cons]

/-- Every token has a text. -/
theorem spell_eq (text : Text) :
    ((lexemes text).map Lexeme.token).mapM (spell text) = pure (lexemes text) := by
  have each : ∀ lexeme ∈ lexemes text, spell text lexeme.token = pure (id lexeme) := by
    intro lexeme member
    have there : text.slice? lexeme.token.start lexeme.token.stop = some lexeme.text :=
      slice?_of_mem_lexemes member
    rw [spell, slice_of_slice? there]
    rfl
  rw [List.mapM_map]
  exact (mapM_eq each).trans (by rw [List.map_id])

/-! ### Parents -/

/-- A session with other nodes. -/
def withNodes (session : Session) (nodes : Arena) : Session :=
  { session with document := { session.document with nodes } }

theorem gives_change {id : NodeId} {session : Session} {nodes : Arena} (inside : id < nodes.size)
    (changed : Node → Node) :
    Gives (change id changed) (withNodes session nodes) ()
      (withNodes session (nodes.modify id changed)) := by
  have found : entry nodes id = pure nodes[id] := by rw [entry, Array.getElem?_eq_getElem inside]
  exact (gives_get _).bind ((gives_lift found).bind (gives_modify _ _))

/-- A node tells its children who they belong to, which are all there. -/
theorem gives_adopt {session : Session} {nodes : Arena} {parent : NodeId} {content : Content}
    (found : (nodes[parent]?).map (·.content) = some content)
    (inside : ∀ child ∈ content.children, child < nodes.size) :
    Gives (adopt parent) (withNodes session nodes) ()
      (withNodes session (nodes.adopt parent content.children)) := by
  obtain ⟨node, there, rfl⟩ := Option.map_eq_some_iff.mp found
  have looked : entry nodes parent = pure node := by rw [entry, there]
  have told (children : List NodeId) : ∀ nodes : Arena, (∀ child ∈ children, child < nodes.size) →
      Gives (children.forM fun child => change child ({ · with parent := some parent }))
        (withNodes session nodes) () (withNodes session (nodes.adopt parent children)) := by
    induction children with
    | nil => exact fun nodes _ => gives_pure _ _
    | cons child rest previous =>
      intro nodes inside
      rw [List.forall_mem_cons] at inside
      exact (gives_change inside.1 _).bind (previous _ (by simpa using inside.2))
  exact ((gives_get _).bind ((gives_lift looked).bind (gives_pure node.content _))).bind
    (told _ nodes inside)

/-- From one node on all children are told their parents. -/
theorem gives_linkFrom {session : Session} (rest : List Node) (first : NodeId) {nodes : Arena}
    (shown : ∀ place, (nodes[first + place]?).map (·.content) = (rest[place]?).map (·.content))
    (inside : ∀ node ∈ rest, ∀ child ∈ node.content.children, child < nodes.size) :
    Gives ((List.range' first rest.length).forM adopt) (withNodes session nodes) ()
      (withNodes session (Arena.linkFrom first rest nodes)) := by
  induction rest generalizing first nodes with
  | nil => exact gives_pure _ _
  | cons node rest previous =>
    rw [List.forall_mem_cons] at inside
    have same := Arena.sameContents_adopt first node.content.children nodes
    have contents (id : NodeId) :
        ((nodes.adopt first node.content.children)[id]?).map (·.content)
          = (nodes[id]?).map (·.content) := by
      have equal := congrArg (Option.map Prod.fst) (same.shown id)
      rwa [Option.map_map, Option.map_map] at equal
    have own : (nodes[first]?).map (·.content) = some node.content := shown 0
    refine (gives_adopt own inside.1).bind (previous (first + 1) (fun place => ?_) ?_)
    · rw [contents, Nat.add_assoc, Nat.add_comm 1]
      exact shown (place + 1)
    · rw [same.size]
      exact inside.2

/-- **Every child is told its parent.** -/
theorem gives_link {session : Session} {nodes : Arena}
    (inside : ∀ node ∈ nodes.toList, ∀ child ∈ node.content.children, child < nodes.size) :
    Gives ((List.range nodes.size).forM adopt) (withNodes session nodes) ()
      (withNodes session nodes.link) := by
  rw [List.range_eq_range', ← Array.length_toList]
  refine gives_linkFrom nodes.toList 0 (fun place => ?_) inside
  rw [Nat.zero_add, Array.getElem?_toList]

/-! ### The program -/

/-- The tokens of a text are pieces of it. -/
theorem faithful_beginning (text : Text) : Faithful text (beginning text) where
  slices _ member := slice?_of_mem_lexemes (mem_significant_iff.mp member).1
  proper _ member := kind_of_mem_lexemes (mem_significant_iff.mp member).1
  marked := rfl

/-- The session in front of a program, its comments taken out. -/
def cleared (text : Text) : Session := (Session.start text (lexemes text)).removeComments

/-- All statements are read and become the global scope. -/
theorem gives_tree {text : Text} {items : List Part} {last : Cursor Lexeme}
    (derivation : Derivation text items last) :
    Gives (globalScope ⟨text⟩) (cleared text) ((read text).stored.size - 1)
      (after (cleared text) last [.child .globalScope (read text).tree]) := by
  have ready : Ready ⟨text⟩ (cleared text) Grammar.maxNesting .outermost (beginning text) :=
    ⟨faithful_beginning text, rfl, Nat.sub_zero _⟩
  have scope := gives_globalScope ready derivation.derives []
  have start : after (cleared text) (beginning text) [] = cleared text := after_nil _
  rw [start, grown_nil, List.nil_append, ← derivation.tree] at scope
  exact scope

/-- The root takes the global scope. -/
theorem gives_root {session : Session} {text : Text}
    (stored : session.document.nodes = (read text).stored) :
    Gives (change Document.root
        ({ · with content := .branch .root [(.globalScope, (read text).stored.size - 1)] }))
      session () (withNodes session (read text).unlinked) := by
  have root : Document.root < session.document.nodes.size := by
    rw [stored]
    exact Nat.lt_of_succ_lt (read text).size_stored
  have changed : Gives (change Document.root
      ({ · with content := .branch .root [(.globalScope, (read text).stored.size - 1)] }))
      (withNodes session session.document.nodes) () _ := gives_change root _
  rw [stored] at changed
  rw [Reading.unlinked]
  have same : withNodes session (read text).stored = session := by rw [← stored]; rfl
  rwa [same] at changed

/-- Every child of a node of a text is a node of it. -/
theorem child_lt_size (text : Text) : ∀ node ∈ (read text).unlinked.toList,
    ∀ child ∈ node.content.children, child < (read text).unlinked.size := by
  intro node member child listed
  obtain ⟨parent, inside, rfl⟩ := List.mem_iff_getElem.mp member
  rw [Array.length_toList] at inside
  have own : (read text).document.IsChildOf child parent := by
    rw [Document.IsChildOf, Document.children, Reading.content_eq_unlinked, Arena.contentAt,
      Array.getElem?_eq_getElem inside]
    exact listed
  rw [← Reading.size_eq_unlinked]
  exact (Reading.child_inside own).2

/-- **The program is read to its end, and its nodes are those of the document.** -/
theorem gives_readAll (text : Text) :
    ∃ final, Gives (readAll ⟨text⟩) (Session.start text (lexemes text)) () final
      ∧ final.document = (read text).document ∧ final.problems = (read text).problems := by
  obtain ⟨items, last, derivation⟩ := Reading.derivation text
  have scope := gives_tree derivation
  obtain ⟨session, shape⟩ : ∃ session, session
    = after (cleared text) last [.child .globalScope (read text).tree] := ⟨_, rfl⟩
  rw [← shape] at scope
  have stored : session.document.nodes = (read text).stored := by
    rw [shape]
    rfl
  have handed : Gives (modify handOver) (withNodes session (read text).unlinked) ()
      (withNodes (handOver session) (read text).unlinked) := gives_modify _ _
  refine ⟨withNodes (handOver session) (read text).unlinked.link,
    (gives_modify _ _).bind (scope.bind ((gives_root stored).bind (handed.bind
      ((gives_get _).bind (gives_link (child_lt_size text)))))), ?_, ?_⟩
  · have comments : (handOver session).document.comments = (read text).comments := by
      rw [shape]
      show ([] ++ (((lexemes text).filter (!·.isWhitespace)).filter (·.isComment)).map (·.token))
        = (read text).comments
      rw [filter_isComment]
      rfl
    have whole : (handOver session).document.text = text := by
      rw [shape]
      rfl
    show (⟨(handOver session).document.text, _, (handOver session).document.comments⟩ : Document)
      = _
    rw [whole, comments]
    rfl
  · rw [shape]
    exact List.append_nil _

/-- **Reading a text with every check made ends without a fault.** -/
theorem parse_eq (text : Text) :
    parse text = pure ((read text).document, (read text).problems) := by
  obtain ⟨final, gives, document, problems⟩ := gives_readAll text
  rw [parse, tokenize_eq, pure_bind, spell_eq, pure_bind, gives, pure_bind, ← document, ← problems]

/-- **The nodes that are added one by one while reading are a tree**: on every text the productions
put each of them into exactly one place, whatever they meet. -/
theorem exists_isTree_parse (text : Text) :
    ∃ document problems, parse text = pure (document, problems) ∧ document.IsTree := by
  obtain ⟨items, last, derivation⟩ := Reading.derivation text
  exact ⟨_, _, parse_eq text, (read text).isTree_document derivation.tree⟩

end Checked

end RSource
