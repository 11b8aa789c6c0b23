/-
**Evaluating nodes.**

What the nodes of a document stand for is up to an evaluator, which may have effects of its own.
It is asked only about nodes that stand for a value; all others are `NULL`.
-/

import RSource.Document
import RSource.Value

namespace RSource

/-- Answers what a node of a document stands for. -/
abbrev Evaluator (m : Type → Type) := Document → NodeId → m Value

namespace Evaluator

variable {m : Type → Type} [Monad m]

/-- Every node stands for nothing. -/
def silent : Evaluator m := fun _ _ => pure .null

/-- Every node stands for the same value. -/
def constant (value : Value) : Evaluator m := fun _ _ => pure value

end Evaluator

/-- What a node stands for under an evaluator. -/
def Document.evaluate {m : Type → Type} [Monad m] (document : Document)
    (evaluator : Evaluator m) (id : NodeId) : m Value :=
  if (document.content id).isValue then evaluator document id else pure .null

end RSource
