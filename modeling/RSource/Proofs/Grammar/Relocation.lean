/-
**The grammar does not look at places.**

A `Relocation` moves tokens on by an offset and puts others in front of them. No production looks at
an offset, or at more than one token before the cursor, so each phrase is read alike at the new
place. Main statement: `Derives.relocated`.
-/

import RSource.Proofs.Grammar.Consumption
import RSource.Proofs.Tree.Shift

namespace RSource

open Grammar Reader Cursor

/-- Other tokens in front, the last of which is no semicolon, and an offset for the others. -/
structure Relocation where
  offset : Nat
  /-- The tokens in front, the last one first. -/
  before : List Lexeme
  plain : ∀ lexeme ∈ before.head?, lexeme.kind ≠ .semicolon

namespace Relocation

variable (move : Relocation)

/-- The cursor in front of the same token at its new place. -/
def cursor (cursor : Cursor Lexeme) : Cursor Lexeme :=
  ⟨cursor.passed.map (·.shift move.offset) ++ move.before, cursor.rest.map (·.shift move.offset),
    cursor.mark.shift move.offset⟩

variable {mode : Mode} {cursor : Cursor Lexeme}

theorem skipWhile_cursor {test : Lexeme → Bool}
    (placeless : ∀ lexeme, test (lexeme.shift move.offset) = test lexeme) :
    (move.cursor cursor).skipWhile test = move.cursor (cursor.skipWhile test) := by
  have same : (test ∘ fun lexeme : Lexeme => lexeme.shift move.offset) = test := funext placeless
  simp only [Relocation.cursor, Cursor.skipWhile, List.takeWhile_map, List.dropWhile_map, same,
    List.map_append, List.map_reverse, List.append_assoc]

theorem settle_cursor : settle mode (move.cursor cursor) = move.cursor (settle mode cursor) := by
  unfold settle
  split
  · exact move.skipWhile_cursor fun _ => rfl
  · rfl

theorem current_cursor : (move.cursor cursor).current = cursor.current.shift move.offset := by
  obtain ⟨passed, rest, mark⟩ := cursor
  cases rest <;> rfl

theorem look_cursor : look mode (move.cursor cursor) = (look mode cursor).shift move.offset := by
  rw [look, settle_cursor, current_cursor, look]

theorem past_cursor : past mode (move.cursor cursor) = move.cursor (past mode cursor) := by
  rw [past, settle_cursor, past]
  obtain ⟨passed, rest, mark⟩ := settle mode cursor
  cases rest <;> rfl

theorem beyond_cursor : beyond (move.cursor cursor) = move.cursor (beyond cursor) :=
  move.skipWhile_cursor fun _ => rfl

theorem pastSeparators_cursor :
    pastSeparators (move.cursor cursor) = move.cursor (pastSeparators cursor) :=
  move.skipWhile_cursor fun _ => rfl

theorem boundary_cursor : boundary mode (move.cursor cursor) = move.cursor (boundary mode cursor) :=
  move.skipWhile_cursor fun _ => rfl

theorem drop_cursor (count : Nat) :
    (move.cursor cursor).drop count = move.cursor (cursor.drop count) := by
  simp only [Relocation.cursor, Cursor.drop, List.map_append, List.map_reverse, List.map_take,
    List.map_drop, List.append_assoc]

theorem lineRest_cursor :
    lineRest mode (move.cursor cursor) = (lineRest mode cursor).map (·.shift move.offset) :=
  List.takeWhile_map

theorem leafAt_cursor :
    leafAt mode (move.cursor cursor) = (leafAt mode cursor).shift move.offset := by
  rw [leafAt, look_cursor]
  rfl

theorem closingLength_map (depth : Nat) (tokens : List Lexeme) :
    closingLength depth (tokens.map (·.shift move.offset)) = closingLength depth tokens := by
  induction tokens generalizing depth with
  | nil => cases depth <;> rfl
  | cons lexeme rest previous =>
    cases depth with
    | zero => rfl
    | succ depth =>
      simp only [List.map_cons, closingLength, Lexeme.kind_shift, previous]
      rfl

theorem seesElse_cursor : seesElse mode (move.cursor cursor) = seesElse mode cursor := by
  unfold seesElse
  rw [beyond_cursor, current_cursor, look_cursor]
  split <;> rfl

theorem namesHere_cursor : namesHere mode (move.cursor cursor) = namesHere mode cursor := by
  unfold namesHere
  rw [past_cursor, look_cursor, look_cursor]
  rfl

theorem hasSemicolon_shift (offset : Nat) (tree : Tree) :
    hasSemicolon (tree.shift offset) = hasSemicolon tree := by
  cases tree with
  | leaf lexeme => rfl
  | cut lexeme skipped => rfl
  | node form span parts =>
    rw [Tree.shift_node, hasSemicolon, hasSemicolon, Tree.shiftParts_eq_map, List.any_map]
    refine List.any_congr rfl fun part => ?_
    cases part <;> rfl

theorem previous?_cursor :
    (move.cursor cursor).previous?.any (·.kind == .semicolon)
      = cursor.previous?.any (·.kind == .semicolon) := by
  obtain ⟨passed, rest, mark⟩ := cursor
  cases passed with
  | cons lexeme passed => rfl
  | nil =>
    show move.before.head?.any (·.kind == .semicolon) = false
    rw [Option.any_eq_false_iff_get]
    intro some
    simpa using move.plain _ (Option.get_mem some)

theorem isSeparated_cursor (tree : Tree) :
    isSeparated mode (tree.shift move.offset) (move.cursor cursor)
      = isSeparated mode tree cursor := by
  rw [isSeparated, previous?_cursor, hasSemicolon_shift, look_cursor]
  rfl

end Relocation

namespace Grammar

/-- The phrase at another place. -/
def Phrase.shift (offset : Nat) : Phrase → Phrase
  | .contents own levels anchor => .contents own levels (anchor + offset)
  | .arguments style delimiter levels anchor role =>
    .arguments style delimiter levels (anchor + offset) role
  | phrase => phrase

/-- What a phrase accepts does not depend on places. -/
def Phrase.IsPlaceless (offset : Nat) : Phrase → Prop
  | .expected accepts _ _ | .optional accepts _ =>
    ∀ lexeme : Lexeme, accepts (lexeme.shift offset) = accepts lexeme
  | _ => True

theorem shift_listOf (offset anchor : Nat) (items : List Part) :
    (listOf anchor items).shift offset
      = listOf (anchor + offset) (Tree.shiftParts offset items) := by
  rw [listOf, listOf, Tree.hull?_shiftParts, Tree.shift_node]
  cases Part.hull? items <;> rfl

theorem anyChild_append_child (items : List Part) (role : Role) (tree : Tree) :
    Part.anyChild (items ++ [.child role tree]) = true := by
  simp [Part.anyChild, Part.span?]

/-- **Each phrase is read alike at another place.** -/
theorem Derives.relocated (move : Relocation) {phrase : Phrase} {mode : Mode}
    {first last : Cursor Lexeme} {parts : List Part} (run : Derives phrase mode first parts last)
    (placeless : phrase.IsPlaceless move.offset) :
    Derives (phrase.shift move.offset) mode (move.cursor first)
      (Tree.shiftParts move.offset parts) (move.cursor last) := by
  induction run with
  | found accepted readable =>
    rw [← move.past_cursor, Tree.shiftParts_child, ← move.leafAt_cursor]
    exact .found (by rwa [move.look_cursor, placeless]) (by rwa [move.look_cursor])
  | @missing accepts role problem mode first refused =>
    rw [← move.settle_cursor]
    show Derives (.expected accepts role problem) mode (move.cursor first)
      [.problem ⟨problem, ((look mode first).shift move.offset).token⟩ []] _
    rw [← move.look_cursor]
    exact .missing (by rwa [move.look_cursor, placeless])
  | present accepted readable =>
    rw [← move.past_cursor, Tree.shiftParts_child, ← move.leafAt_cursor]
    exact .present (by rwa [move.look_cursor, placeless]) (by rwa [move.look_cursor])
  | absent refused =>
    rw [← move.settle_cursor]
    exact .absent (by rwa [move.look_cursor, placeless])
  | cutNothing ends =>
    rw [← move.settle_cursor]
    exact .cutNothing (by rwa [move.look_cursor])
  | @cutBracket minimum role mode first goesOn opening =>
    have rest : (past mode (move.cursor first)).rest
        = (past mode first).rest.map (·.shift move.offset) := by
      rw [move.past_cursor]
      rfl
    have bracket := @Derives.cutBracket minimum role mode (move.cursor first)
      (by rwa [move.look_cursor]) (by rwa [move.look_cursor])
    rw [rest, move.closingLength_map, move.past_cursor, move.drop_cursor, move.look_cursor,
      ← List.map_take] at bracket
    exact bracket
  | @cutToken minimum role mode first goesOn plain =>
    have token := @Derives.cutToken minimum role mode (move.cursor first)
      (by rwa [move.look_cursor]) (by rwa [move.look_cursor])
    rw [move.past_cursor, move.look_cursor] at token
    exact token
  | noExpression _ previous => exact .noExpression (previous trivial)
  | expression _ ends previous =>
    rw [← move.settle_cursor]
    exact .expression (previous trivial) (by rwa [move.look_cursor])
  | chainStart _ previous => exact .chainStart (previous trivial)
  | chainMore _ found _ left right =>
    rw [Tree.shiftParts_child, Tree.shift_ofParts rfl, Tree.shiftParts_child,
      Tree.shiftParts_child, ← move.leafAt_cursor]
    refine .chainMore (left trivial) (by rwa [move.look_cursor]) ?_
    rw [move.past_cursor, move.beyond_cursor]
    exact right trivial
  | operand _ previous => exact .operand (previous trivial)
  | @noOperand levels minimum role mode first last _ previous =>
    rw [← move.settle_cursor]
    show Derives (.operand levels minimum role) mode (move.cursor first)
      [.problem ⟨.operandExpected, ((look mode last).shift move.offset).token⟩ []] _
    rw [← move.look_cursor]
    exact .noOperand (previous trivial)
  | sign found _ right =>
    rw [Tree.shiftParts_child, Tree.shift_ofParts rfl, Tree.shiftParts_child,
      ← move.leafAt_cursor]
    refine .sign (by rwa [move.look_cursor]) ?_
    rw [move.past_cursor, move.beyond_cursor]
    exact right trivial
  | unsigned unfound _ previous =>
    refine .unsigned (by rwa [move.look_cursor]) ?_
    rw [move.settle_cursor]
    exact previous trivial
  | noPostfixed _ previous => exact .noPostfixed (previous trivial)
  | postfixed _ ends previous =>
    rw [← move.settle_cursor]
    exact .postfixed (previous trivial) (by rwa [move.look_cursor])
  | suffixedStart _ previous => exact .suffixedStart (previous trivial)
  | call _ opened _ _ function list close =>
    rw [Tree.shiftParts_child, Tree.shift_ofParts rfl, Tree.shiftParts_child,
      Tree.shiftParts_child, Tree.shiftParts_append, ← move.leafAt_cursor]
    refine .call (function trivial) (by rwa [move.look_cursor]) ?_ (close fun _ => rfl)
    rw [move.past_cursor, move.look_cursor, Lexeme.stop_shift]
    exact list trivial
  | index _ delimiter opened _ _ target list close =>
    rw [Tree.shiftParts_child, Tree.shift_ofParts rfl, Tree.shiftParts_child,
      Tree.shiftParts_child, Tree.shiftParts_append, ← move.leafAt_cursor]
    refine .index (target trivial) delimiter (by rwa [move.look_cursor]) ?_ (close fun _ => rfl)
    rw [move.past_cursor, move.look_cursor, Lexeme.stop_shift]
    exact list trivial
  | access _ found _ target right =>
    rw [Tree.shiftParts_child, Tree.shift_ofParts rfl, Tree.shiftParts_child,
      Tree.shiftParts_child, ← move.leafAt_cursor]
    refine .access (target trivial) (by rwa [move.look_cursor]) ?_
    rw [move.past_cursor]
    exact right fun _ => rfl
  | noPrimary none noWord =>
    rw [← move.settle_cursor]
    exact .noPrimary (by rwa [move.look_cursor]) (by rwa [move.look_cursor])
  | atom atom =>
    rw [← move.past_cursor, Tree.shiftParts_child, ← move.leafAt_cursor]
    exact .atom (by rwa [move.look_cursor])
  | group opened _ _ inner close =>
    rw [Tree.shiftParts_child, Tree.shift_ofParts rfl, Tree.shiftParts_child,
      Tree.shiftParts_append, ← move.leafAt_cursor]
    refine .group (by rwa [move.look_cursor]) ?_ (close fun _ => rfl)
    rw [move.past_cursor]
    exact inner trivial
  | blockPrimary opened _ previous =>
    refine .blockPrimary (by rwa [move.look_cursor]) ?_
    rw [move.settle_cursor]
    exact previous trivial
  | constructPrimary keyword found _ previous =>
    refine .constructPrimary (by rwa [move.look_cursor]) (by rwa [move.look_cursor]) ?_
    rw [move.settle_cursor]
    exact previous trivial
  | ifElse readable _ _ _ top main other =>
    rw [Tree.shiftParts_child, Tree.shift_ofParts rfl, Tree.shiftParts_child,
      Tree.shiftParts_append, Tree.shiftParts_append, ← move.leafAt_cursor]
    refine .ifElse (by rwa [move.look_cursor]) ?_ (main trivial) (other trivial)
    rw [move.past_cursor]
    exact top trivial
  | headed headed readable _ _ top main =>
    rw [Tree.shiftParts_child, Tree.shift_ofParts rfl, Tree.shiftParts_child,
      Tree.shiftParts_append, ← move.leafAt_cursor]
    refine .headed headed (by rwa [move.look_cursor]) ?_ (main trivial)
    rw [move.past_cursor]
    exact top trivial
  | repeatLoop readable _ main =>
    rw [Tree.shiftParts_child, Tree.shift_ofParts rfl, Tree.shiftParts_child,
      ← move.leafAt_cursor]
    refine .repeatLoop (by rwa [move.look_cursor]) ?_
    rw [move.past_cursor]
    exact main trivial
  | word word readable =>
    rw [Tree.shiftParts_child, Tree.shift_ofParts rfl, Tree.shiftParts_child,
      ← move.leafAt_cursor, ← move.past_cursor]
    exact .word word (by rwa [move.look_cursor])
  | opened opened _ inner =>
    rw [Tree.shiftParts_child, ← move.leafAt_cursor]
    refine .opened (by rwa [move.look_cursor]) ?_
    rw [move.past_cursor, move.look_cursor, Lexeme.stop_shift]
    exact inner trivial
  | @unopened construct levels mode first unopened =>
    rw [← move.settle_cursor]
    show Derives (.head construct levels) mode (move.cursor first)
      [.problem ⟨.openBraceExpected, ((look mode first).shift move.offset).token⟩ []] _
    rw [← move.look_cursor]
    exact .unopened (by rwa [move.look_cursor])
  | condition tests _ _ tested close =>
    rw [Tree.shiftParts_append]
    exact .condition tests (tested trivial) (close fun _ => rfl)
  | iteration _ _ _ _ counter link range close =>
    simp only [Tree.shiftParts_append]
    exact .iteration (counter fun _ => rfl) (link fun _ => rfl) (range trivial) (close fun _ => rfl)
  | formals _ _ list close =>
    rw [Tree.shiftParts_append]
    exact .formals (list trivial) (close fun _ => rfl)
  | blockBody opened _ previous =>
    refine .blockBody (by rwa [move.beyond_cursor, move.look_cursor]) ?_
    rw [move.beyond_cursor, move.settle_cursor]
    exact previous trivial
  | simpleBody noBrace _ previous =>
    rw [Tree.shiftParts_child, Tree.shift_ofParts rfl]
    refine .simpleBody (by rwa [move.beyond_cursor, move.look_cursor]) ?_
    rw [move.beyond_cursor, move.settle_cursor]
    exact previous trivial
  | @noBody levels role mode first last noBrace _ previous =>
    show Derives (.body levels role) mode (move.cursor first)
      [.problem ⟨.statementExpected, ((look mode (beyond first)).shift move.offset).token⟩ []] _
    rw [← move.look_cursor, ← move.beyond_cursor]
    refine .noBody (by rwa [move.beyond_cursor, move.look_cursor]) ?_
    rw [move.beyond_cursor, move.settle_cursor]
    exact previous trivial
  | elseBranch seen _ other =>
    rw [Tree.shiftParts_child, ← move.leafAt_cursor, ← move.beyond_cursor]
    refine .elseBranch (by rwa [move.seesElse_cursor]) ?_
    rw [move.beyond_cursor, move.past_cursor]
    exact other trivial
  | noElse unseen => exact .noElse (by rwa [move.seesElse_cursor])
  | itemsStart => exact .itemsStart
  | itemsMore _ goesOn _ comma items item =>
    rw [Tree.shiftParts_append, Tree.shiftParts_child,
      Tree.shift_ofParts (anyChild_append_child _ _ _), Tree.shiftParts_append,
      Tree.shiftParts_child, ← move.leafAt_cursor, ← move.past_cursor]
    refine .itemsMore (items trivial) (by rwa [move.look_cursor]) ?_ (by rwa [move.look_cursor])
    rw [move.settle_cursor]
    exact item trivial
  | closedList _ ends items =>
    rw [Tree.shiftParts_child, shift_listOf, ← move.settle_cursor]
    exact .closedList (items trivial) (by rwa [move.look_cursor])
  | lastItem _ goesOn _ noComma some items item =>
    rw [Tree.shiftParts_child, shift_listOf, Tree.shiftParts_append, Tree.shiftParts_child,
      Tree.shift_ofParts some, ← move.settle_cursor]
    refine .lastItem (items trivial) (by rwa [move.look_cursor]) ?_ (by rwa [move.look_cursor])
      (by rwa [Tree.anyChild_shiftParts])
    rw [move.settle_cursor]
    exact item trivial
  | noItem _ goesOn _ noComma bare items item =>
    rw [Tree.shiftParts_child, shift_listOf, Tree.shiftParts_append, ← move.settle_cursor]
    refine .noItem (items trivial) (by rwa [move.look_cursor]) ?_ (by rwa [move.look_cursor])
      (by rwa [Tree.anyChild_shiftParts])
    rw [move.settle_cursor]
    exact item trivial
  | named found _ value =>
    rw [Tree.shiftParts_child, Tree.shiftParts_child, ← move.leafAt_cursor, ← move.leafAt_cursor,
      ← move.past_cursor]
    refine .named (by rwa [move.namesHere_cursor]) ?_
    rw [move.past_cursor, move.past_cursor]
    exact value trivial
  | unnamed unfound _ value =>
    refine .unnamed (by rwa [move.namesHere_cursor]) ?_
    rw [move.settle_cursor]
    exact value trivial
  | formalDefault name equals _ value =>
    rw [Tree.shiftParts_child, Tree.shiftParts_child, ← move.leafAt_cursor, ← move.leafAt_cursor,
      ← move.past_cursor]
    refine .formalDefault (by rwa [move.look_cursor])
      (by rwa [move.past_cursor, move.look_cursor]) ?_
    rw [move.past_cursor, move.past_cursor]
    exact value trivial
  | formal name noEquals =>
    rw [Tree.shiftParts_child, ← move.leafAt_cursor, ← move.settle_cursor, ← move.past_cursor]
    exact .formal (by rwa [move.look_cursor]) (by rwa [move.past_cursor, move.look_cursor])
  | emptyFormal comma _ value =>
    refine .emptyFormal (by rwa [move.look_cursor]) ?_
    rw [move.settle_cursor]
    exact value trivial
  | @misplacedFormal levels mode first last parts noName noComma _ value =>
    show Derives (.item .formals levels) mode (move.cursor first)
      (.problem ⟨.identifierExpected, ((look mode first).shift move.offset).token⟩ []
        :: Tree.shiftParts move.offset parts) _
    rw [← move.look_cursor]
    refine .misplacedFormal (by rwa [move.look_cursor]) (by rwa [move.look_cursor]) ?_
    rw [move.settle_cursor]
    exact value trivial
  | noStatement _ previous => exact .noStatement (previous trivial)
  | statement _ _ expression semicolon =>
    rw [Tree.shiftParts_child, Tree.shift_ofParts rfl, Tree.shiftParts_child]
    exact .statement (expression trivial) (semicolon fun _ => rfl)
  | block opened _ _ items close =>
    rw [Tree.shiftParts_child, Tree.shift_ofParts rfl, Tree.shiftParts_child,
      Tree.shiftParts_append, ← move.leafAt_cursor]
    refine .block (by rwa [move.look_cursor]) ?_ (close fun _ => rfl)
    rw [move.past_cursor]
    exact items trivial
  | statements _ ends listing =>
    rw [← move.settle_cursor, ← move.pastSeparators_cursor]
    exact .statements (listing trivial) (by rwa [move.pastSeparators_cursor, move.look_cursor])
  | listingStart => exact .listingStart
  | @stray terminator levels mode first last parts _ goesOn closed listing =>
    rw [Tree.shiftParts_append, ← move.past_cursor]
    have more := Derives.stray (listing trivial)
      (by rwa [move.pastSeparators_cursor, move.look_cursor])
      (by rwa [move.pastSeparators_cursor, move.look_cursor])
    rw [move.pastSeparators_cursor, move.look_cursor] at more
    exact more
  | unreadable _ goesOn noBrace _ listing failed =>
    rw [Tree.shiftParts_append]
    have more := Derives.unreadable (listing trivial)
      (by rwa [move.pastSeparators_cursor, move.look_cursor])
      (by rwa [move.pastSeparators_cursor, move.look_cursor])
      (by rw [move.pastSeparators_cursor, move.settle_cursor]; exact failed trivial)
    rw [move.pastSeparators_cursor, move.look_cursor, move.look_cursor, move.past_cursor,
      move.boundary_cursor, move.lineRest_cursor] at more
    exact more
  | listed _ goesOn noBrace _ separated listing statement =>
    rw [Tree.shiftParts_append, ← move.settle_cursor]
    exact .listed (listing trivial) (by rwa [move.pastSeparators_cursor, move.look_cursor])
      (by rwa [move.pastSeparators_cursor, move.look_cursor])
      (by rw [move.pastSeparators_cursor, move.settle_cursor]; exact statement trivial)
      (by rwa [move.isSeparated_cursor])
  | crowded _ goesOn noBrace _ crowded listing statement =>
    rw [Tree.shiftParts_append]
    have more := Derives.crowded (listing trivial)
      (by rwa [move.pastSeparators_cursor, move.look_cursor])
      (by rwa [move.pastSeparators_cursor, move.look_cursor])
      (by rw [move.pastSeparators_cursor, move.settle_cursor]; exact statement trivial)
      (by rwa [move.isSeparated_cursor])
    rw [move.look_cursor, move.settle_cursor, move.boundary_cursor, move.lineRest_cursor] at more
    exact more

end Grammar

end RSource
