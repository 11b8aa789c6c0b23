/-
**Drawn trees.**

An outline has one line for each node below the root. Connectors in front of a node show its depth
and whether it is the last of its parent's children; behind them stand a sign for its kind and its
label, which may be cut.
-/

import RSource.Snapshot
import RSource.Decimal.Text

namespace RSource

namespace Outline

/-- How an outline is drawn. -/
structure Options where
  showLineNumbers : Bool
  /-- The number of characters kept of a label. -/
  labelWidth : Nat
  deriving Repr, DecidableEq, Inhabited

/-- No line numbers, and thirty characters of a label. -/
def Options.default : Options := ⟨false, 30⟩

/-- The options among named parameters: `show-linum`, which holds unless it is `false`, and
`label-width`. -/
def Options.ofParameters (parameters : List (String × String)) : Options where
  showLineNumbers := match parameters.lookup "show-linum" with
    | some value => value != "false"
    | none => false
  labelWidth := ((parameters.lookup "label-width").bind (Decimal.readWord? ·.toList)).getD
    Options.default.labelWidth

/-- The options as named parameters, which `ofParameters` reads back. -/
def Options.parameters (options : Options) : List (String × String) :=
  [ ("label-width", String.ofList (Decimal.digitsOf options.labelWidth)),
    ("show-linum", if options.showLineNumbers then "true" else "false") ]

/-- The sign for a form, or for a token. -/
def sign : Option Form → Text
  | none => ['◦']
  | some .root => ['⧉']
  | some .globalScope => ['○']
  | some .scope => ['§']
  | some .simpleScope => ['⊤']
  | some .statement => ['¶']
  | some (.operator _) => ['←']
  | some .group => ['(', ' ', ')']
  | some .call => ['ƒ']
  | some .index => ['⌷']
  | some .argumentList => ['☰']
  | some .argument => ['•']
  | some .functionDefinition => ['λ']
  | some .ifElse => ['⑂']
  | some .forLoop | some .whileLoop | some .repeatLoop => ['↻']
  | some .breakLoop | some .nextRound => ['↵']

/-- A line number of at least two digits, and a blank. -/
def lineNumber (line : Nat) : Text :=
  let digits := Decimal.digitsOf line
  List.replicate (2 - digits.length) '0' ++ digits ++ [' ']

/-- What stands in front of every line. -/
def margin (lines? : Option LineTable) (span : Span) : Text :=
  match lines? with
  | some lines => lineNumber ((lines.positionOf span.start).line + 1)
  | none => []

/-- The connector in front of a node. -/
def connector (isLast : Bool) : Text := if isLast then ['└', '─'] else ['├', '─']

/-- What stands in front of the children of a node. -/
def indent (isLast : Bool) : Text := if isLast then [' ', ' '] else ['│', ' ']

/-- The sign and the label of a node. -/
def headline (width : Nat) (snapshot : Snapshot) : Text :=
  sign snapshot.form ++ ' ' :: Text.shorten width snapshot.label

mutual

/-- The lines of a node and those below it. -/
def nodeLines (lines? : Option LineTable) (width : Nat) (indentation : Text) (isLast : Bool) :
    Snapshot → List Text
  | snapshot@(.mk _ _ span _ children) =>
    (margin lines? span ++ indentation ++ connector isLast ++ ' ' :: headline width snapshot)
      :: childLines lines? width (indentation ++ indent isLast) children

/-- The lines of children. -/
def childLines (lines? : Option LineTable) (width : Nat) (indentation : Text) :
    List Snapshot → List Text
  | [] => []
  | child :: rest =>
    nodeLines lines? width indentation rest.isEmpty child
      ++ childLines lines? width indentation rest

end

/-- The lines of a whole document. -/
def lines (options : Options) (document : Document) : List Text :=
  let snapshot := document.snapshot
  let lines? := if options.showLineNumbers then some (LineTable.ofText document.text) else none
  headline options.labelWidth snapshot
    :: childLines lines? options.labelWidth [] snapshot.children

/-- The drawing of a whole document, each line with its end. -/
def draw (options : Options) (document : Document) : Text :=
  (lines options document).flatMap (· ++ ['\n'])

end Outline

end RSource
