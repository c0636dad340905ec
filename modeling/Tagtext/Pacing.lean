import Tagtext.Evaluation

/-!
# Runs that take time of their own

Handlers and providers wait; what a run does between two waits takes time as
well, little as it may be, and meanwhile another party can cancel the token or
the time of the run can be over.  A pace says how much time passes in front of
each step.  Whatever a run is stopped by, it is stopped in front of a call, or
while a handler or a provider waits.

The pace that takes no time at all is the one at which time moves only in waits
(`evaluatePaced_still`).
-/

namespace Tagtext

/-- How much time a run takes beside its waits, in milliseconds. -/
structure Pace where
  /-- Before the first provider is asked. -/
  start : Nat := 0
  /-- In front of each node. -/
  node : Nat → Nat := fun _ => 0

/-- Lets time pass. -/
def Clock.wait (ms : Nat) (c : Clock) : Clock := { c with now := c.now + ms }

/-- Sets the clock. -/
def Effects.withClock (clock : Clock) (e : Effects) : Effects := { e with clock }

namespace Pass

/-- Sets the clock. -/
def withClock (clock : Clock) (p : Pass) : Pass :=
  { p with effects := p.effects.withClock clock }

/-- Lets time pass. -/
def wait (ms : Nat) (p : Pass) : Pass := p.withClock (p.effects.clock.wait ms)

/-- Takes all nodes at a pace, the first of which has this index. -/
def walkPaced (pace : Pace) (s : Setting) : Nat → List Node → Pass → Except (Halt × Pass) Pass
  | _, [], p => .ok p
  | index, n :: rest, p =>
    match (p.wait (pace.node index)).step s index n with
    | .ok p => walkPaced pace s (index + 1) rest p
    | .error stopped => .error stopped

end Pass

/-- Evaluates a document at a pace, from a context and a clock on. -/
def Document.evaluatePaced (pace : Pace) (s : Setting) (context : Context) (clock : Clock)
    (d : Document) : Report :=
  match Pass.walkPaced pace s 0 d.nodes ⟨.empty, ⟨context, clock, [], []⟩, 0⟩ with
  | .ok p => p.toReport none
  | .error (cause, p) => p.toReport (some cause)

/-! ## Lemmas -/

namespace Pass

@[simp] theorem wait_zero (p : Pass) : p.wait 0 = p := rfl

/-- At no time of its own a walk is the plain one. -/
theorem walkPaced_still (s : Setting) (nodes : List Node) : ∀ (index : Nat) (p : Pass),
    walkPaced {} s index nodes p = walk s index nodes p := by
  induction nodes with
  | nil =>
    intro index p
    rfl
  | cons n rest ih =>
    intro index p
    have hwait : p.wait (({} : Pace).node index) = p := p.wait_zero
    rw [walkPaced, walk, hwait]
    cases p.step s index n with
    | ok q => exact ih (index + 1) q
    | error stopped => rfl

end Pass

/-- **A run that takes no time of its own** is one in which time moves only in waits. -/
theorem Document.evaluatePaced_still (s : Setting) (context : Context) (clock : Clock) (d : Document) :
    d.evaluatePaced {} s context clock = d.evaluate s context clock := by
  rw [evaluatePaced, Pass.walkPaced_still]
  exact (d.evaluate_eq_walk s context clock).symm

end Tagtext
