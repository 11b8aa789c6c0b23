/-
**The rows of an outline.**

A row says of a node how deep it stands, the sign of its kind and its label, as far as the label is
shown (`Outline.Row`). A line is read as a row: the connectors in front tell the depth, whatever
stands behind them, and the sign ends with the first blank that is not its own. Main statements:
`Outline.says_rows`, the lines drawn for a snapshot say its rows, each node before its children, as
long as no label holds a line feed; `Outline.figure_eq_of_rows`, the rows tell which node lies below
which.
-/

import RSource.Outline
import RSource.Proofs.Text.EndedLines

namespace RSource

namespace Snapshot

mutual

/-- What a snapshot shows, each before its children, and how deep it stands. -/
def levels (depth : Nat) : Snapshot → List (Nat × Snapshot)
  | snapshot@(.mk _ _ _ _ children) => (depth, snapshot) :: levelsAll (depth + 1) children

def levelsAll (depth : Nat) : List Snapshot → List (Nat × Snapshot)
  | [] => []
  | first :: rest => levels depth first ++ levelsAll depth rest

end

theorem levels_eq (depth : Nat) (snapshot : Snapshot) :
    snapshot.levels depth = (depth, snapshot) :: levelsAll (depth + 1) snapshot.children := by
  cases snapshot
  rfl

theorem levelsAll_append (depth : Nat) (first second : List Snapshot) :
    levelsAll depth (first ++ second) = levelsAll depth first ++ levelsAll depth second := by
  induction first with
  | nil => rfl
  | cons snapshot others previous =>
    rw [List.cons_append, levelsAll, levelsAll, previous, List.append_assoc]

end Snapshot

namespace Outline

/-! ### Reading a line -/

/-- What a line says of its node. -/
structure Row where
  depth : Nat
  sign : Text
  label : Text
  deriving Repr, DecidableEq

/-- The depth that the connectors in front of a line tell, and what stands behind them. -/
def readConnectors? : Text → Option (Nat × Text)
  | '├' :: '─' :: ' ' :: rest | '└' :: '─' :: ' ' :: rest => some (1, rest)
  | '│' :: ' ' :: rest | ' ' :: ' ' :: rest =>
    (readConnectors? rest).map fun found => (found.1 + 1, found.2)
  | _ => none

/-- The sign and the label of a node. Only the sign of a group has blanks in it. -/
def readHeadline? : Text → Option (Text × Text)
  | '(' :: ' ' :: ')' :: ' ' :: label => some (['(', ' ', ')'], label)
  | mark :: ' ' :: label => some ([mark], label)
  | _ => none

/-- What a line says. The line of the root has no connectors. -/
def readRow? (line : Text) : Option Row :=
  let (depth, headline) := (readConnectors? line).getD (0, line)
  (readHeadline? headline).map fun found => ⟨depth, found.1, found.2⟩

/-! ### The lines of a snapshot -/

variable (width : Nat)

/-- What is shown of a snapshot at some depth. -/
def rowOf (entry : Nat × Snapshot) : Row :=
  ⟨entry.1, sign entry.2.form, Text.shorten width entry.2.label⟩

/-- The rows of a snapshot, which has depth zero itself. -/
def rows (snapshot : Snapshot) : List Row := (snapshot.levels 0).map (rowOf width)

/-- Behind connectors stands what they are put in front of. Each of `lasts` says whether a node on
the way down is the last child. -/
theorem readConnectors?_connector (lasts : List Bool) (isLast : Bool) (headline : Text) :
    readConnectors? (lasts.flatMap indent ++ connector isLast ++ ' ' :: headline)
      = some (lasts.length + 1, headline) := by
  induction lasts with
  | nil => cases isLast <;> rfl
  | cons last lasts previous =>
    have further (rest : Text) : readConnectors? (indent last ++ rest)
        = (readConnectors? rest).map fun found => (found.1 + 1, found.2) := by
      cases last <;> rfl
    rw [List.flatMap_cons, List.append_assoc, List.append_assoc, further, ← List.append_assoc,
      previous]
    rfl

theorem readConnectors?_headline (snapshot : Snapshot) :
    readConnectors? (headline width snapshot) = none := by
  unfold headline
  cases snapshot.form with
  | none => rfl
  | some form => cases form <;> rfl

theorem readHeadline?_headline (snapshot : Snapshot) :
    readHeadline? (headline width snapshot)
      = some (sign snapshot.form, Text.shorten width snapshot.label) := by
  unfold headline
  cases snapshot.form with
  | none => rfl
  | some form => cases form <;> rfl

/-! ### Lines without line feeds -/

variable {width}

theorem lineFeed_not_mem_shorten {label : Text} (single : '\n' ∉ label) :
    '\n' ∉ Text.shorten width label := by
  intro member
  unfold Text.shorten at member
  split at member
  · rw [List.mem_append] at member
    rcases member with kept | dots
    · exact single (List.mem_of_mem_take kept)
    · exact absurd dots (by decide)
  · exact single member

theorem lineFeed_not_mem_headline {snapshot : Snapshot} (single : '\n' ∉ snapshot.label) :
    '\n' ∉ headline width snapshot := by
  have noSign : '\n' ∉ sign snapshot.form := by
    cases snapshot.form with
    | none => decide
    | some form => cases form <;> simp [sign]
  rw [headline, List.mem_append, List.mem_cons]
  rintro (own | blank | label)
  · exact noSign own
  · exact absurd blank (by decide)
  · exact lineFeed_not_mem_shorten single label

theorem lineFeed_not_mem_connectors (lasts : List Bool) (isLast : Bool) :
    '\n' ∉ lasts.flatMap indent ++ connector isLast := by
  rw [List.mem_append, List.mem_flatMap]
  rintro (⟨last, _, inside⟩ | inside)
  · cases last <;> exact absurd inside (by decide)
  · cases isLast <;> exact absurd inside (by decide)

/-! ### Lines and rows -/

theorem draw_eq_ended (options : Options) (document : Document) :
    draw options document = Text.ended (lines options document) := rfl

/-- A line is read through its connectors and what stands behind them. -/
theorem readRow?_eq {line : Text} {depth : Nat} {snapshot : Snapshot}
    (found : (readConnectors? line).getD (0, line) = (depth, headline width snapshot)) :
    readRow? line = some (rowOf width (depth, snapshot)) := by
  unfold readRow?
  rw [found]
  show Option.map _ (readHeadline? (headline width snapshot)) = _
  rw [readHeadline?_headline]
  rfl

/-- The line of the snapshot itself. -/
theorem says_root {snapshot : Snapshot} (single : '\n' ∉ snapshot.label) :
    Text.Says readRow? (headline width snapshot) (rowOf width (0, snapshot)) where
  single := lineFeed_not_mem_headline single
  reads := by
    apply readRow?_eq
    rw [readConnectors?_headline, Option.getD_none]

/-- The line of a node further down. -/
theorem says_node (lasts : List Bool) (isLast : Bool) {snapshot : Snapshot}
    (single : '\n' ∉ snapshot.label) :
    Text.Says readRow? (lasts.flatMap indent ++ connector isLast ++ ' ' :: headline width snapshot)
      (rowOf width (lasts.length + 1, snapshot)) where
  single := by
    rw [List.mem_append, List.mem_cons]
    rintro (front | blank | behind)
    · exact lineFeed_not_mem_connectors lasts isLast front
    · exact absurd blank (by decide)
    · exact lineFeed_not_mem_headline single behind
  reads := by
    apply readRow?_eq
    rw [readConnectors?_connector, Option.getD_some]

example : readRow? "│ └─ ( ) (x) ...".toList
    = some ⟨2, "( )".toList, "(x) ...".toList⟩ := by decide

mutual

theorem says_nodeLines (lasts : List Bool) (isLast : Bool) (snapshot : Snapshot)
    (single : ∀ entry ∈ snapshot.levels (lasts.length + 1), '\n' ∉ entry.2.label) :
    List.Forall₂ (Text.Says readRow?) (nodeLines none width (lasts.flatMap indent) isLast snapshot)
      ((snapshot.levels (lasts.length + 1)).map (rowOf width)) := by
  obtain ⟨form, label, span, attributes, children⟩ := snapshot
  rw [Snapshot.levels, List.forall_mem_cons] at single
  -- below the node each line has the connectors of the node in front
  have deeper : lasts.flatMap indent ++ indent isLast = (lasts ++ [isLast]).flatMap indent := by
    rw [List.flatMap_append, List.flatMap_singleton]
  have depth : (lasts ++ [isLast]).length + 1 = lasts.length + 1 + 1 := by
    rw [List.length_append, List.length_singleton]
  have below := says_childLines (lasts ++ [isLast]) children (depth ▸ single.2)
  rw [nodeLines, Snapshot.levels, List.map_cons, deeper, ← depth]
  exact .cons (says_node lasts isLast single.1) below

theorem says_childLines (lasts : List Bool) (children : List Snapshot)
    (single : ∀ entry ∈ Snapshot.levelsAll (lasts.length + 1) children, '\n' ∉ entry.2.label) :
    List.Forall₂ (Text.Says readRow?) (childLines none width (lasts.flatMap indent) children)
      ((Snapshot.levelsAll (lasts.length + 1) children).map (rowOf width)) := by
  cases children with
  | nil => exact .nil
  | cons child rest =>
    rw [Snapshot.levelsAll, List.forall_mem_append] at single
    rw [childLines, Snapshot.levelsAll, List.map_append]
    exact List.rel_append (says_nodeLines lasts rest.isEmpty child single.1)
      (says_childLines lasts rest single.2)

end

/-- **Each line of an outline says what its node is and how deep it stands.** -/
theorem says_rows {document : Document}
    (single : ∀ entry ∈ document.snapshot.levels 0, '\n' ∉ entry.2.label) :
    List.Forall₂ (Text.Says readRow?) (lines ⟨false, width⟩ document)
      (rows width document.snapshot) := by
  rw [Snapshot.levels_eq, List.forall_mem_cons] at single
  rw [rows, Snapshot.levels_eq]
  exact .cons (says_root single.1) (says_childLines [] _ single.2)

/-! ### Rows tell the shape -/

/-- What an outline shows of a tree: signs, labels, and what lies below what. -/
inductive Figure where
  | mk (sign label : Text) (below : List Figure)

mutual

/-- The figure of a snapshot, with the labels as far as they are shown. -/
def figure (width : Nat) : Snapshot → Figure
  | .mk form label _ _ children =>
    .mk (sign form) (Text.shorten width label) (figures width children)

def figures (width : Nat) : List Snapshot → List Figure
  | [] => []
  | first :: rest => figure width first :: figures width rest

end

mutual

theorem le_of_mem_levels {depth : Nat} (snapshot : Snapshot) :
    ∀ entry ∈ snapshot.levels depth, depth ≤ entry.1 := by
  obtain ⟨form, label, span, attributes, children⟩ := snapshot
  rw [Snapshot.levels, List.forall_mem_cons]
  exact ⟨Nat.le_refl _, fun entry member =>
    Nat.le_of_succ_le (le_of_mem_levelsAll children entry member)⟩

theorem le_of_mem_levelsAll {depth : Nat} (snapshots : List Snapshot) :
    ∀ entry ∈ Snapshot.levelsAll depth snapshots, depth ≤ entry.1 := by
  cases snapshots with
  | nil => exact nofun
  | cons first rest =>
    rw [Snapshot.levelsAll, List.forall_mem_append]
    exact ⟨le_of_mem_levels first, le_of_mem_levelsAll rest⟩

end

/-- Whether a row stands deeper than `depth`. -/
def Row.isBelow (depth : Nat) (row : Row) : Bool := depth < row.depth

/-- The rows of children end with the first one that does not stand deeper than their parent. -/
theorem split_rows (width depth : Nat) (children rest : List Snapshot) :
    let inner := (Snapshot.levelsAll (depth + 1) children).map (rowOf width)
    let outer := (Snapshot.levelsAll depth rest).map (rowOf width)
    (inner ++ outer).takeWhile (Row.isBelow depth) = inner
      ∧ (inner ++ outer).dropWhile (Row.isBelow depth) = outer := by
  intro inner outer
  have deep : ∀ row ∈ inner, row.isBelow depth = true := by
    intro row member
    obtain ⟨entry, listed, rfl⟩ := List.mem_map.mp member
    exact decide_eq_true (le_of_mem_levelsAll children entry listed)
  have level : ∀ row ∈ outer.head?, row.isBelow depth = false := by
    cases rest with
    | nil => exact nofun
    | cons first rest =>
      obtain ⟨form, label, span, attributes, children⟩ := first
      rintro row ⟨⟩
      exact decide_eq_false (Nat.lt_irrefl depth)
  exact takeWhile_dropWhile_append deep level

/-- Lists of snapshots with the same rows have the same figures. -/
theorem figures_eq_of_rows {width other depth : Nat} (left right : List Snapshot)
    (same : (Snapshot.levelsAll depth left).map (rowOf width)
      = (Snapshot.levelsAll depth right).map (rowOf other)) :
    figures width left = figures other right := by
  match left, right with
  | [], [] => rfl
  | [], .mk _ _ _ _ _ :: _ => cases same
  | .mk _ _ _ _ _ :: _, [] => cases same
  | .mk form label span attributes children :: rest,
    .mk form₁ label₁ span₁ attributes₁ children₁ :: rest₁ =>
    simp only [Snapshot.levelsAll, Snapshot.levels, List.cons_append, List.map_cons,
      List.map_append] at same
    obtain ⟨head, tail⟩ := List.cons.inj same
    obtain ⟨_, sign, label⟩ := Row.mk.inj head
    -- both sides are divided at the first row that is not deeper, so the parts are the same
    obtain ⟨inner, outer⟩ := split_rows width depth children rest
    obtain ⟨inner₁, outer₁⟩ := split_rows other depth children₁ rest₁
    rw [← tail] at inner₁ outer₁
    have below := figures_eq_of_rows children children₁ (inner.symm.trans inner₁)
    have behind := figures_eq_of_rows rest rest₁ (outer.symm.trans outer₁)
    rw [figures, figures, figure, figure, below, behind]
    exact congrArg (· :: _) (congrArg₂ (Figure.mk · · _) sign label)
termination_by left

/-- **Snapshots with the same rows have the same figure.** -/
theorem figure_eq_of_rows {width other : Nat} {left right : Snapshot}
    (same : rows width left = rows other right) : figure width left = figure other right := by
  have single : (Snapshot.levelsAll 0 [left]).map (rowOf width)
      = (Snapshot.levelsAll 0 [right]).map (rowOf other) := by
    simpa only [rows, Snapshot.levelsAll, List.append_nil] using same
  have figures := figures_eq_of_rows [left] [right] single
  exact (List.cons.inj figures).1

end Outline

end RSource
