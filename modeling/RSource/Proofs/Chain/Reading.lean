/-
**A chain of infix operators is read as its reference tree.**

In front of the tokens of a chain an expression takes some of the links and gives a tree over them
(`Derives.reads`); it stops in front of a looser operator only, so a whole statement takes them all.
Which tree it is follows from the precedences alone (`Spells.eq_reference`).
-/

import RSource.Proofs.Chain.Reference

namespace RSource

namespace Grammar

open Reader Cursor

/-! ### In front of a chain and behind one -/

/-- The tokens of links. -/
def linkTokens (links : List Link) : List Lexeme :=
  links.flatMap fun link => [link.sign, link.operand]

/-- A cursor in front of links and nothing else. -/
structure Awaits (cursor : Cursor Lexeme) (links : List Link) : Prop where
  rest : cursor.rest = linkTokens links
  plain : ∀ link ∈ links, link.IsPlain
  marked : cursor.mark.kind = .endOfStream

/-- A cursor in front of an operand and links. -/
structure Stands (cursor : Cursor Lexeme) (word : Lexeme) (links : List Link) : Prop where
  rest : cursor.rest = word :: linkTokens links
  atom : isAtom word = true
  plain : ∀ link ∈ links, link.IsPlain
  marked : cursor.mark.kind = .endOfStream

section Stands

variable {cursor : Cursor Lexeme} {word : Lexeme} {links : List Link} (mode : Mode)

theorem Stands.settle (stands : Stands cursor word links) : Reader.settle mode cursor = cursor := by
  refine settle_of_current mode ?_
  rw [Cursor.current, stands.rest, List.headD_cons]
  exact isLineBreak_of_isReadable (isReadable_of_isAtom stands.atom)

theorem Stands.look (stands : Stands cursor word links) : Grammar.look mode cursor = word := by
  rw [Grammar.look, stands.settle, Cursor.current, stands.rest, List.headD_cons]

/-- No token of another kind than a literal or a name stands there. -/
theorem Stands.kind_ne {kind : TokenKind} (stands : Stands cursor word links)
    (other : (kind.isLiteral || kind == .identifier) = false) :
    (Grammar.look mode cursor).kind ≠ kind := by
  intro found
  rw [stands.look] at found
  have atom := stands.atom
  rw [isAtom, found, other] at atom
  cases atom

/-- Behind the operand come the links. -/
theorem Stands.past (stands : Stands cursor word links) :
    Awaits (Grammar.past mode cursor) links where
  rest := by rw [past_rest, stands.settle, stands.rest, List.drop_succ_cons, List.drop_zero]
  plain := stands.plain
  marked := by rw [past_mark]; exact stands.marked

theorem Awaits.current_nil (awaits : Awaits cursor []) : cursor.current.kind = .endOfStream := by
  rw [Cursor.current, awaits.rest]
  exact awaits.marked

theorem Awaits.current_cons {link : Link} (awaits : Awaits cursor (link :: links)) :
    cursor.current = link.sign := by
  rw [Cursor.current, awaits.rest]
  rfl

theorem kind_sign {link : Link} (plain : link.IsPlain) : link.sign.kind = .operator :=
  kind_of_infixOf? plain.operator_eq.1

theorem Awaits.settle (awaits : Awaits cursor links) : Reader.settle mode cursor = cursor := by
  refine settle_of_current mode ?_
  cases links with
  | nil => exact isLineBreak_of_kind awaits.current_nil nofun
  | cons link links =>
    rw [awaits.current_cons]
    exact isLineBreak_of_kind (kind_sign (awaits.plain link List.mem_cons_self)) nofun

theorem Awaits.look_nil (awaits : Awaits cursor []) :
    (Grammar.look mode cursor).kind = .endOfStream := by
  rw [Grammar.look, awaits.settle]
  exact awaits.current_nil

theorem Awaits.look_cons {link : Link} (awaits : Awaits cursor (link :: links)) :
    Grammar.look mode cursor = link.sign := by
  rw [Grammar.look, awaits.settle, awaits.current_cons]

/-- Behind an operator, and behind line breaks there, stands its operand. -/
theorem Awaits.beyond_past {link : Link} (awaits : Awaits cursor (link :: links)) :
    Stands (beyond (Grammar.past mode cursor)) link.operand links := by
  have own := awaits.plain link List.mem_cons_self
  have rest : (Grammar.past mode cursor).rest = link.operand :: linkTokens links := by
    rw [past_rest, awaits.settle, awaits.rest]
    rfl
  have stays : beyond (Grammar.past mode cursor) = Grammar.past mode cursor := by
    refine skipWhile_of_current ?_
    rw [Cursor.current, rest, List.headD_cons]
    exact isLineBreak_of_isReadable (isReadable_of_isAtom own.atom)
  rw [stays]
  refine ⟨rest, own.atom, fun other member => ?_, ?_⟩
  · exact awaits.plain other (List.mem_cons_of_mem _ member)
  · rw [past_mark]
    exact awaits.marked

/-- What stands behind an operand extends no expression. -/
theorem Awaits.kind_look (awaits : Awaits cursor links) :
    (Grammar.look mode cursor).kind = .endOfStream
      ∨ (Grammar.look mode cursor).kind = .operator := by
  cases links with
  | nil => exact .inl (awaits.look_nil mode)
  | cons link links =>
    rw [awaits.look_cons]
    exact .inr (kind_sign (awaits.plain link List.mem_cons_self))

/-- An infix operator there is that of the next link. -/
theorem Awaits.exists_link {operator : Operator} (awaits : Awaits cursor links)
    (found : infixOf? (Grammar.look mode cursor) = some operator) :
    ∃ link rest, links = link :: rest ∧ operator = link.operator := by
  cases links with
  | nil =>
    have kind := kind_of_infixOf? found
    rw [awaits.look_nil] at kind
    cases kind
  | cons link rest =>
    rw [awaits.look_cons, (awaits.plain link List.mem_cons_self).operator_eq.1] at found
    exact ⟨link, rest, rfl, (Option.some.inj found).symm⟩

theorem Awaits.not_extends (awaits : Awaits cursor links) :
    extendsExpression (Grammar.look mode cursor) = false := by
  have unopened : opensList (Grammar.look mode cursor).kind = false := by
    rcases awaits.kind_look mode with kind | kind <;> rw [kind] <;> rfl
  rw [extendsExpression, unopened, Bool.false_or]
  cases found : accessorOf? (Grammar.look mode cursor) with
  | none => rfl
  | some operator =>
    obtain ⟨infixOf, member⟩ := accessorOf?_eq_some_iff.mp found
    obtain ⟨link, rest, rfl, rfl⟩ := awaits.exists_link mode infixOf
    rw [(awaits.plain link List.mem_cons_self).operator_eq.2] at member
    cases member

/-- An expression of any precedence takes all links. -/
theorem Awaits.eq_nil_of_ended (awaits : Awaits cursor links)
    (ended : infixAt? 0 (Grammar.look mode cursor) = none) : links = [] := by
  cases links with
  | nil => rfl
  | cons link links =>
    obtain ⟨infixOf, member⟩ := (awaits.plain link List.mem_cons_self).operator_eq
    have found : infixAt? 0 link.sign = some link.operator :=
      infixAt?_eq_some_iff.mpr ⟨infixOf, member, Nat.zero_le _⟩
    rw [awaits.look_cons, found] at ended
    cases ended

theorem Awaits.kind_ne_semicolon (awaits : Awaits cursor links) :
    (Grammar.look mode cursor).kind ≠ .semicolon := by
  intro found
  rcases awaits.kind_look mode with kind | kind <;> rw [found] at kind <;> cases kind

/-- Behind the last operand the statements end. -/
theorem Awaits.endsBlock {terminator : Option TokenKind} (awaits : Awaits cursor []) :
    Grammar.endsBlock terminator (Grammar.look mode (Grammar.pastSeparators cursor)) = true := by
  have stays : Grammar.pastSeparators cursor = cursor := by
    refine skipWhile_of_current ?_
    rw [isSeparator, awaits.current_nil]
    rfl
  rw [stays, Grammar.endsBlock, awaits.look_nil]
  rfl

/-- No separator stands in front of the operand. -/
theorem Stands.pastSeparators (stands : Stands cursor word links) :
    Grammar.pastSeparators cursor = cursor := by
  refine skipWhile_of_current ?_
  have atom := stands.atom
  rw [Cursor.current, stands.rest, List.headD_cons, isSeparator]
  cases kind : word.kind <;> simp [isAtom, TokenKind.isLiteral, kind] at atom <;> rfl

end Stands

/-! ### What is read there -/

/-- In front of a chain a phrase gives a tree over some of its links and ends in front of the
others. -/
def Takes (role : Role) (word : Lexeme) (links : List Link) (parts : List Part)
    (last : Cursor Lexeme) : Prop :=
  ∃ tree taken left, links = taken ++ left ∧ parts = [.child role tree] ∧ Spells tree word taken
    ∧ Awaits last left

/-- A statement over a whole chain. -/
def TakesAll (role : Role) (word : Lexeme) (links : List Link) (parts : List Part)
    (last : Cursor Lexeme) : Prop :=
  ∃ tree, parts = [.child role (.ofParts .statement [.child .expression tree])]
    ∧ Spells tree word links ∧ Awaits last []

/-- What each phrase reads in front of a chain that has no more links than there are levels. -/
def Reads : Phrase → Mode → Cursor Lexeme → List Part → Cursor Lexeme → Prop
  | .expression levels minimum role, mode, first, parts, last => ∀ word links,
    Stands first word links → links.length < levels →
      Takes role word links parts last ∧ infixAt? minimum (look mode last) = none
  | .operand levels _ role, _, first, parts, last => ∀ word links,
    Stands first word links → links.length < levels → Takes role word links parts last
  | .chain levels _ role, _, first, parts, last => ∀ word links,
    Stands first word links → links.length ≤ levels → Takes role word links parts last
  | .leading _ role, _, first, parts, last | .postfixed _ role, _, first, parts, last
  | .suffixed _ role, _, first, parts, last | .primary _ role, _, first, parts, last =>
    ∀ word links, Stands first word links →
      parts = [.child role (.leaf word)] ∧ Awaits last links
  | .statement levels role, _, first, parts, last => ∀ word links,
    Stands first word links → links.length < levels → TakesAll role word links parts last
  | .listing _ levels, _, first, parts, last => ∀ word links,
    Stands first word links → links.length < levels →
      parts = [] ∧ last = first ∨ TakesAll .statements word links parts last
  | _, _, _, _, _ => True

/-- **Every phrase reads a chain so.** -/
theorem Derives.reads {phrase : Phrase} {mode : Mode} {first last : Cursor Lexeme}
    {parts : List Part} (run : Derives phrase mode first parts last) :
    Reads phrase mode first parts last := by
  induction run with
  | cutNothing | cutBracket | cutToken =>
    intro word links _ short
    exact absurd short (Nat.not_lt_zero _)
  | noExpression _ previous =>
    intro word links stands _
    cases (previous word links stands).1
  | @expression _ _ _ mode _ last _ _ ended previous =>
    intro word links stands short
    obtain ⟨tree, taken, left, shape, same, spells, awaits⟩ :=
      previous word links stands (Nat.le_of_lt_succ short)
    rw [awaits.settle]
    exact ⟨⟨tree, taken, left, shape, same, spells, awaits⟩, ended⟩
  | chainStart _ previous =>
    intro word links stands _
    obtain ⟨same, awaits⟩ := previous word links stands
    exact ⟨_, [], links, rfl, same, .leaf, awaits⟩
  | @chainMore levels _ _ mode _ second _ _ _ _ _ found _ ofLeft ofRight =>
    intro word links stands short
    obtain ⟨left, taken, further, shape, same, spells, awaits⟩ := ofLeft word links stands short
    obtain ⟨infixOf, _⟩ := infixAt?_eq_some_iff.mp found
    obtain ⟨link, rest, rfl, rfl⟩ := awaits.exists_link mode infixOf
    have fewer : rest.length < levels := by
      rw [shape, List.length_append, List.length_cons] at short
      omega
    obtain ⟨right, taken', left', shape', same', spells', awaits'⟩ :=
      ofRight link.operand rest (awaits.beyond_past mode) fewer
    obtain rfl : _ = left := by simpa using same
    refine ⟨_, taken ++ link :: taken', left', ?_, rfl, ?_, awaits'⟩
    · rw [shape, shape', List.append_assoc, List.cons_append]
    · rw [same', leafAt, awaits.look_cons]
      exact .node spells spells'
  | operand _ previous =>
    intro word links stands short
    exact (previous word links stands short).1
  | noOperand _ previous =>
    intro word links stands short
    obtain ⟨⟨_, _, _, _, same, _⟩, _⟩ := previous word links stands short
    cases same
  | @sign _ _ mode _ _ _ _ found _ _ =>
    intro word links stands
    exact absurd (kind_of_leadingOf? found) (stands.kind_ne mode rfl)
  | unsigned _ _ previous =>
    intro word links stands
    rw [stands.settle] at previous
    exact previous word links stands
  | noPostfixed _ previous =>
    intro word links stands
    cases (previous word links stands).1
  | @postfixed _ _ mode _ _ _ _ _ previous =>
    intro word links stands
    obtain ⟨same, awaits⟩ := previous word links stands
    rw [awaits.settle]
    exact ⟨same, awaits⟩
  | suffixedStart _ previous => exact previous
  | @call _ _ mode _ second _ _ _ _ _ _ opened _ _ ofFunction =>
    intro word links stands
    have awaits := (ofFunction word links stands).2
    exact absurd (by rw [extendsExpression, opened]; rfl)
      (Bool.eq_false_iff.mp (awaits.not_extends mode))
  | @index _ _ mode _ second _ _ _ _ _ _ _ square opened _ _ ofTarget =>
    intro word links stands
    have awaits := (ofTarget word links stands).2
    refine absurd ?_ (Bool.eq_false_iff.mp (awaits.not_extends mode))
    rcases square with rfl | rfl <;> rw [extendsExpression, opened] <;> rfl
  | @access _ _ mode _ second _ _ _ _ _ found _ ofTarget =>
    intro word links stands
    have awaits := (ofTarget word links stands).2
    refine absurd ?_ (Bool.eq_false_iff.mp (awaits.not_extends mode))
    rw [extendsExpression, found, Option.isSome_some, Bool.or_true]
  | @noPrimary _ _ mode _ begins _ =>
    intro word links stands
    rw [stands.look, beginsPrimary, stands.atom] at begins
    cases begins
  | @atom _ _ mode first _ =>
    intro word links stands
    rw [leafAt, stands.look]
    exact ⟨rfl, stands.past mode⟩
  | @group _ _ mode _ _ _ _ _ opened =>
    intro word links stands
    exact absurd opened (stands.kind_ne mode rfl)
  | @blockPrimary _ _ mode _ _ _ opened =>
    intro word links stands
    exact absurd opened (stands.kind_ne mode rfl)
  | @constructPrimary _ _ mode _ _ _ _ keyword =>
    intro word links stands
    exact absurd keyword (stands.kind_ne mode rfl)
  | noStatement _ previous =>
    intro word links stands short
    obtain ⟨⟨_, _, _, _, same, _⟩, _⟩ := previous word links stands short
    cases same
  | @statement _ _ mode _ second _ _ _ _ ends ofExpression _ =>
    intro word links stands short
    obtain ⟨⟨tree, taken, left, shape, same, spells, awaits⟩, ended⟩ :=
      ofExpression word links stands short
    obtain rfl := awaits.eq_nil_of_ended mode ended
    obtain rfl : _ = tree := by simpa using same
    obtain rfl : links = taken := by rw [shape, List.append_nil]
    cases ends with
    | present found =>
      exact absurd (eq_of_beq found) (awaits.kind_ne_semicolon mode)
    | absent =>
      rw [awaits.settle]
      exact ⟨_, rfl, spells, awaits⟩
  | listingStart => exact fun _ _ _ _ => .inl ⟨rfl, rfl⟩
  | @stray _ _ mode _ _ _ _ goesOn closed listing =>
    intro word links stands short
    rcases listing word links stands short with ⟨rfl, rfl⟩ | ⟨tree, _, _, awaits⟩
    · rw [stands.pastSeparators] at closed
      exact absurd closed (stands.kind_ne mode rfl)
    · exact absurd (awaits.endsBlock mode) (Bool.eq_false_iff.mp goesOn)
  | @unreadable _ _ mode _ _ _ _ _ goesOn _ _ listing statement =>
    intro word links stands short
    rcases listing word links stands short with ⟨rfl, rfl⟩ | ⟨tree, _, _, awaits⟩
    · rw [stands.pastSeparators, stands.settle] at statement
      obtain ⟨_, same, _⟩ := statement word links stands short
      cases same
    · exact absurd (awaits.endsBlock mode) (Bool.eq_false_iff.mp goesOn)
  | @listed _ _ mode _ _ _ _ _ _ goesOn _ _ _ listing statement =>
    intro word links stands short
    rcases listing word links stands short with ⟨rfl, rfl⟩ | ⟨tree, _, _, awaits⟩
    · rw [stands.pastSeparators, stands.settle] at statement
      obtain ⟨tree, same, spells, awaits⟩ := statement word links stands short
      rw [awaits.settle]
      exact .inr ⟨tree, same, spells, awaits⟩
    · exact absurd (awaits.endsBlock mode) (Bool.eq_false_iff.mp goesOn)
  | @crowded _ _ mode _ _ _ _ _ _ goesOn _ _ notSeparated listing statement =>
    intro word links stands short
    rcases listing word links stands short with ⟨rfl, rfl⟩ | ⟨tree, _, _, awaits⟩
    · rw [stands.pastSeparators, stands.settle] at statement
      obtain ⟨_, _, _, awaits⟩ := statement word links stands short
      rw [isSeparated, endsStatement, awaits.look_nil] at notSeparated
      simp at notSeparated
    · exact absurd (awaits.endsBlock mode) (Bool.eq_false_iff.mp goesOn)
  | _ => trivial

end Grammar

end RSource
