/-
**Half open byte ranges.**

A span `[start, stop)` says where a piece of text lies. `union` is the smallest span over two, which
is how a tree node gets its span from its parts.
-/

namespace RSource

/-- The bytes from `start` up to, but not including, `stop`. -/
structure Span where
  start : Nat
  stop : Nat
  deriving Repr, DecidableEq, Inhabited

namespace Span

/-- The span of `length` bytes that begins at `start`. -/
def ofLength (start length : Nat) : Span := ⟨start, start + length⟩

/-- The empty span at `offset`. -/
def empty (offset : Nat) : Span := ⟨offset, offset⟩

def length (span : Span) : Nat := span.stop - span.start

def isEmpty (span : Span) : Bool := span.start == span.stop

/-- Whether `offset` lies in the span; the end does not. -/
def contains (span : Span) (offset : Nat) : Bool :=
  decide (span.start ≤ offset) && decide (offset < span.stop)

/-- The smallest span over both. -/
def union (left right : Span) : Span :=
  ⟨min left.start right.start, max left.stop right.stop⟩

/-- By start, then by end. -/
def order (left right : Span) : Ordering :=
  (compare left.start right.start).then (compare left.stop right.stop)

/-- The smallest span over all of them, if there are any. -/
def hull? : List Span → Option Span
  | [] => none
  | first :: rest => some (rest.foldl union first)

/-- Written `start..stop`. -/
def text (span : Span) : String := s!"{span.start}..{span.stop}"

theorem contains_iff {span : Span} {offset : Nat} :
    span.contains offset = true ↔ span.start ≤ offset ∧ offset < span.stop := by
  simp [contains]

end Span

end RSource
