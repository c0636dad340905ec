/-!
# Cancellation tokens

A token is cancelled by whoever holds it, and with it every token descended
from it.  A token carries the numbers of itself and of those it descends from,
so it is cancelled once any of these numbers is.
-/

namespace Tagtext

/-- A cancellation token: its own number, then those of the tokens it descends from. -/
structure Token where
  lineage : List Nat
  deriving DecidableEq, Repr

/-- All tokens handed out so far, by how many there are and which were cancelled. -/
structure Cancellation where
  issued : Nat
  cancelled : List Nat
  deriving DecidableEq, Repr

namespace Cancellation

/-- No token yet. -/
def empty : Cancellation := ⟨0, []⟩

/-- Issues a token that descends from no other. -/
def new (c : Cancellation) : Token × Cancellation :=
  (⟨[c.issued]⟩, { c with issued := c.issued + 1 })

/-- Issues a token that is cancelled together with `parent`, but can be cancelled on its own. -/
def child (c : Cancellation) (parent : Token) : Token × Cancellation :=
  (⟨c.issued :: parent.lineage⟩, { c with issued := c.issued + 1 })

/-- Cancels a token. -/
def cancel (c : Cancellation) (t : Token) : Cancellation :=
  { c with cancelled := t.lineage.head?.toList ++ c.cancelled }

/-- Whether a token is cancelled. -/
def isCancelled (c : Cancellation) (t : Token) : Bool := t.lineage.any c.cancelled.contains

end Cancellation

end Tagtext
