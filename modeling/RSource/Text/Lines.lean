/-
**Lines and columns.**

A line ends with a line feed. Lines and columns count from zero, and columns count bytes. The
table of line starts is built once for a text and searched by halving.
-/

import RSource.Text.Bytes
import RSource.Text.Span

namespace RSource

/-- A line and a column. -/
structure Position where
  line : Nat
  column : Nat
  deriving Repr, DecidableEq, Inhabited

namespace Position

/-- By line, then by column. -/
def le (first second : Position) : Bool :=
  decide (first.line < second.line)
    || (first.line == second.line && decide (first.column ≤ second.column))

/-- Written `line:column`. -/
def text (position : Position) : String := s!"{position.line}:{position.column}"

end Position

/-- A span with the positions of its ends. -/
structure Location where
  span : Span
  start : Position
  stop : Position
  deriving Repr, DecidableEq, Inhabited

namespace Location

/-- Whether a position lies between the two ends, both of which count. -/
def contains (location : Location) (position : Position) : Bool :=
  location.start.le position && position.le location.stop

def text (location : Location) : String := s!"{location.start.text}..{location.stop.text}"

end Location

/-- The offsets at which the lines of a text start. -/
structure LineTable where
  starts : Array Nat
  deriving Repr, DecidableEq, Inhabited

namespace LineTable

/-- The offsets that follow a line feed, in a text that begins at `offset`. -/
def startsFrom (offset : Nat) : Text → List Nat
  | [] => []
  | c :: rest =>
    let next := offset + c.utf8Size
    if c == '\n' then next :: startsFrom next rest else startsFrom next rest

/-- The lines of a text; the first starts at offset zero. -/
def ofText (text : Text) : LineTable := ⟨(0 :: startsFrom 0 text).toArray⟩

def lineCount (table : LineTable) : Nat := table.starts.size

/-- The offset at which a line starts. -/
def lineStart? (table : LineTable) (line : Nat) : Option Nat := table.starts[line]?

/-- The last line between `low` and `high` that starts at or before `offset`, where `low` does. Each
step halves the range. -/
def search (table : LineTable) (offset : Nat) : (bound low high : Nat) → Nat
  | 0, low, _ => low
  | bound + 1, low, high =>
    if low + 1 < high then
      let middle := (low + high) / 2
      if (table.starts[middle]?).any (· ≤ offset) then table.search offset bound middle high
      else table.search offset bound low middle
    else low

/-- The line that an offset lies on; past the end of the text it is the last one. -/
def lineOf (table : LineTable) (offset : Nat) : Nat :=
  table.search offset table.starts.size 0 table.starts.size

def positionOf (table : LineTable) (offset : Nat) : Position :=
  let line := table.lineOf offset
  ⟨line, offset - (table.lineStart? line).getD 0⟩

def locate (table : LineTable) (span : Span) : Location :=
  ⟨span, table.positionOf span.start, table.positionOf span.stop⟩

end LineTable

end RSource
