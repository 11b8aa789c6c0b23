/-
**Every statement of a scope was read as one.**

A property of all leaves, of all nodes without statements and of all trees read as blocks holds of
everything that is read (`Derives.all_of_blocks`). So the global scope and every braced scope is a
list of statements that was read where line breaks count (`Reading.isScope`), and each statement
listed there comes from reading a statement: `Reading.stated`.
-/

import RSource.Proofs.Grammar.Built

namespace RSource

namespace Grammar

open Reader Cursor

/-! ### What holds of all blocks -/

/-- Reading a block gives a tree with this property. -/
def HoldsOfBlocks (items : List Lexeme) (property : Tree → Prop) : Prop :=
  ∀ {levels : Nat} {role : Role} {mode : Mode} {first last : Cursor Lexeme} {tree : Tree},
    IsOver items first → Derives (.block levels role) mode first [.child role tree] last →
      property tree

/-- **A property of leaves, of nodes that are no scopes and of blocks holds of all trees.** -/
theorem Derives.all_of_blocks {items : List Lexeme} {property : Tree → Prop}
    (leaf : ∀ lexeme, property (.leaf lexeme))
    (cut : ∀ lexeme skipped, property (.cut lexeme skipped))
    (node : ∀ form span parts, form ≠ .scope → form ≠ .globalScope →
      property (.node form span parts))
    (blocks : HoldsOfBlocks items property) {terminator : Option TokenKind} {levels : Nat}
    {mode : Mode} {first last : Cursor Lexeme} {parts : List Part}
    (covered : IsOver items first)
    (run : Derives (.statements terminator levels) mode first parts last) :
    ∀ part ∈ parts, part.All property := by
  have all := run.built covered trivial
  refine fun part member => (all part member).imp fun tree built => ?_
  cases built with
  | leaf => exact leaf _
  | cut => exact cut _ _
  | block inside read => exact blocks inside read
  | @construct own _ _ _ _ _ _ _ _ read =>
    obtain ⟨span, parts, rfl⟩ := read.form_of_construct
    cases own <;> exact node _ _ _ nofun nofun
  | statement _ read | list _ read => cases read <;> exact node _ _ _ nofun nofun
  | _ => exact node _ _ _ nofun nofun

/-! ### The statements of a scope -/

/-- A statement that was read as one of a scope, where line breaks count. -/
def IsStated (items : List Lexeme) (braced : Bool) (statement : Tree) : Prop :=
  ∃ levels mode first last, Derives (.statement levels .statements) mode first
      [.child .statements statement] last
    ∧ IsOver items first ∧ mode.lineBreaksIgnored = false ∧ decide (0 < mode.braceDepth) = braced

/-- Every statement among parts was read as one. -/
theorem Derives.stated_of_listing {items : List Lexeme} {terminator : Option TokenKind}
    {levels : Nat} {mode : Mode} {first last : Cursor Lexeme} {parts : List Part}
    (run : Derives (.listing terminator levels) mode first parts last)
    (lined : mode.lineBreaksIgnored = false) (covered : IsOver items first) {statement : Tree}
    (listed : .child .statements statement ∈ parts) :
    IsStated items (decide (0 < mode.braceDepth)) statement := by
  generalize shape : Phrase.listing terminator levels = phrase at run
  induction run with
  | listingStart => exact absurd listed List.not_mem_nil
  | stray before _ _ previous | unreadable before _ _ _ previous _ =>
    cases shape
    exact previous lined covered (by simpa using listed) rfl
  | @listed _ _ mode _ _ _ parts tree before _ _ read _ previous _
  | @crowded _ _ mode _ _ _ parts tree before _ _ read _ previous _ =>
    cases shape
    have own := (before.isOver covered).pastSeparators.settle mode
    have split : Part.child .statements statement ∈ parts ∨ statement = tree := by
      simpa using listed
    rcases split with early | rfl
    · exact previous lined covered early rfl
    · exact ⟨_, _, _, _, read, own, lined, rfl⟩
  | _ => cases shape

/-- Parts of a scope: what was read as a list of statements, where line breaks count, between parts
that are no statements. -/
inductive IsScope (items : List Lexeme) : Bool → List Part → Prop where
  | mk {terminator : Option TokenKind} {levels : Nat} {mode : Mode} {first last : Cursor Lexeme}
      {front listing behind : List Part} :
      (∀ statement, .child .statements statement ∉ front) →
      (∀ statement, .child .statements statement ∉ behind) →
      Derives (.listing terminator levels) mode first listing last → IsOver items first →
      mode.lineBreaksIgnored = false →
      IsScope items (decide (0 < mode.braceDepth)) (front ++ listing ++ behind)

/-- A statement of a scope was read as one. -/
theorem IsScope.stated {items : List Lexeme} {braced : Bool} {parts : List Part}
    (scope : IsScope items braced parts) {statement : Tree}
    (listed : .child .statements statement ∈ parts) : IsStated items braced statement := by
  cases scope with
  | mk front behind run covered lined =>
    rw [List.mem_append, List.mem_append] at listed
    rcases listed with (early | own) | late
    · exact absurd early (front statement)
    · exact run.stated_of_listing lined covered own
    · exact absurd late (behind statement)

/-- A tree that lists statements where it is a braced scope. No tree that is read below the
outermost one is a global scope. -/
def ListsStatements (items : List Lexeme) : Tree → Prop
  | .node .scope _ parts => IsScope items true parts
  | .node .globalScope _ _ => False
  | _ => True

theorem listsStatements_of_block {items : List Lexeme} :
    HoldsOfBlocks items (ListsStatements items) := by
  intro levels role mode first last tree covered run
  cases run with
  | @block _ _ _ _ _ _ items close opened inside ends =>
    cases inside with
    | statements listing _ =>
      have scope : IsScope _ _ ([.child .openCurly (leafAt mode first)] ++ items ++ close) :=
        .mk (by simp) (by cases ends <;> simp) listing (covered.past mode) rfl
      have braced : decide (0 < mode.braced.braceDepth) = true := decide_eq_true (Nat.succ_pos _)
      rwa [braced] at scope

theorem Derives.listsStatements {items : List Lexeme} {terminator : Option TokenKind}
    {levels : Nat} {mode : Mode} {first last : Cursor Lexeme} {parts : List Part}
    (covered : IsOver items first)
    (run : Derives (.statements terminator levels) mode first parts last) :
    ∀ part ∈ parts, part.All (ListsStatements items) := by
  refine run.all_of_blocks (fun _ => trivial) (fun _ _ => trivial) ?_ listsStatements_of_block
    covered
  intro form span parts other outer
  cases form <;> trivial

end Grammar

open Grammar

/-- **A scope is a list of statements that was read where line breaks count.** -/
theorem Reading.isScope {text : Text} {form : Form} {span : Span} {parts : List Part}
    (scope : form = .globalScope ∨ form = .scope)
    (within : (Tree.node form span parts).IsWithin (read text).tree) :
    IsScope (significant text) (form == .scope) parts := by
  obtain ⟨items, last, derivation⟩ := Reading.derivation text
  have covered : IsOver (significant text) (beginning text) := ⟨rfl, rfl⟩
  have all := derivation.derives.listsStatements covered
  rw [derivation.tree] at within
  cases within with
  | here =>
    cases derivation.derives with
    | statements listing _ =>
      have scope : IsScope (significant text) _ ([] ++ parts ++ []) :=
        .mk nofun nofun listing covered rfl
      rwa [List.nil_append, List.append_nil] at scope
  | @inside _ _ _ role tree member deeper =>
    have own : ListsStatements (significant text) (.node form span parts) := all _ member _ deeper
    rcases scope with rfl | rfl
    · exact own.elim
    · exact own

/-- **Every statement of a scope was read as a statement where line breaks count.** -/
theorem Reading.stated {text : Text} {form : Form} {span : Span} {parts : List Part}
    {statement : Tree} (scope : form = .globalScope ∨ form = .scope)
    (within : (Tree.node form span parts).IsWithin (read text).tree)
    (listed : .child .statements statement ∈ parts) :
    IsStated (significant text) (form == .scope) statement :=
  (Reading.isScope scope within).stated listed

end RSource
