import Tagtext.Handler

/-!
# Interruption of a run

A run may watch a token and keep to a deadline.  Time is counted in
milliseconds from the start of the run.  At one and the same moment cancellation
comes first, then the deadline, then the work itself; so work that ends exactly
at the deadline comes too late.  Where a handler's wait ends at the very moment
at which another party cancels, and before the deadline, either may come first
(`Watch.cancelsFirst`): the handler is abandoned, or it goes on and the run is
stopped behind it.
-/

namespace Tagtext

/-- What ends a run before its time. -/
inductive Halt where
  | cancelled
  | timedOut
  /-- It waits for something that never happens. -/
  | stalled
  deriving DecidableEq, Repr

/-- The words that report an interrupted run. -/
def Halt.message : Halt → Text
  | cancelled => "evaluation cancelled".toList
  | timedOut => "evaluation timed out".toList
  | stalled => "evaluation stalled".toList

/-- What a run looks out for. -/
structure Watch where
  /-- Whether it has a token. -/
  hasToken : Bool := false
  /-- When another party cancels the token. -/
  cancelAt : Option Nat := none
  /-- When the run is out of time. -/
  deadline : Option Nat := none
  /-- Whether the token is cancelled first, where another party cancels it at the very moment at which
  a handler's wait ends. -/
  cancelsFirst : Bool := false
  deriving DecidableEq, Repr

/-- The time, and whether the token was cancelled at the start or by a handler since. -/
structure Clock where
  now : Nat := 0
  cancelled : Bool := false
  deriving DecidableEq, Repr

namespace Watch

/-- When the token stops a run that waits from now on. -/
def cancellation? (w : Watch) (c : Clock) : Option Nat :=
  if !w.hasToken then none
  else if c.cancelled then some c.now
  else w.cancelAt.map (max c.now)

/-- When the deadline stops a run that waits from now on. -/
def expiry? (w : Watch) (c : Clock) : Option Nat := w.deadline.map (max c.now)

/-- What stops a run that waits from now on, if it waits long enough, and when. -/
def halt? (w : Watch) (c : Clock) : Option (Halt × Nat) :=
  match w.cancellation? c, w.expiry? c with
  | none, none => none
  | some t, none => some (.cancelled, t)
  | none, some d => some (.timedOut, d)
  | some t, some d => if t ≤ d then some (.cancelled, t) else some (.timedOut, d)

/-- What stops a run that waits from now until `till`, and when. -/
def haltBy? (w : Watch) (c : Clock) (till : Nat) : Option (Halt × Nat) :=
  (w.halt? c).filter (·.2 ≤ till)

/-- What stops a handler that waits from now until `till`, and when. -/
def haltWait? (w : Watch) (c : Clock) (till : Nat) : Option (Halt × Nat) :=
  (w.haltBy? c till).filter fun (cause, t) =>
    cause != .cancelled || w.cancelsFirst || t < till || t ≤ c.now || (w.expiry? c).any (· ≤ till)

/-- A wait of this length from now on, or one without end: what stops the run in it, if anything does,
and the clock when it is over. -/
def await (w : Watch) (c : Clock) : Option Nat → Option Halt × Clock
  | some ms =>
    match w.haltBy? c (c.now + ms) with
    | some (cause, t) => (some cause, { c with now := t })
    | none => (none, { c with now := c.now + ms })
  | none =>
    match w.halt? c with
    | some (cause, t) => (some cause, { c with now := t })
    | none => (some .stalled, c)

/-- A wait is stopped, or it is one with an end and is over then. -/
theorem await_cases (w : Watch) (c : Clock) (ms : Option Nat) :
    (∃ cause t, w.await c ms = (some cause, { c with now := t })) ∨
      ∃ n, ms = some n ∧ w.await c ms = (none, { c with now := c.now + n }) := by
  cases ms with
  | some n =>
    cases h : w.haltBy? c (c.now + n) with
    | some halt => exact Or.inl ⟨halt.1, halt.2, by simp only [await, h]⟩
    | none => exact Or.inr ⟨n, rfl, by simp only [await, h]⟩
  | none =>
    cases h : w.halt? c with
    | some halt => exact Or.inl ⟨halt.1, halt.2, by simp only [await, h]⟩
    | none => exact Or.inl ⟨.stalled, c.now, by simp only [await, h]⟩

end Watch

/-- How work ended under a watch, the context it left, and the clock then. -/
inductive Performance where
  | finished (result : Except HandlerError Text) (context : Context) (clock : Clock)
  | abandoned (cause : Halt) (context : Context) (clock : Clock)

/-- Notes that a handler cancelled the token. -/
def Clock.note (c : Clock) (cancels : Bool) : Clock := { c with cancelled := c.cancelled || cancels }

/-- Goes through work from its first step on.  Work that is abandoned leaves the context of the last
step it took. -/
def Work.proceed (w : Watch) (c : Clock) : Work → Performance
  | finish result context cancels => .finished result context (c.note cancels)
  | pause ms context cancels next =>
    let c := c.note cancels
    match w.haltWait? c (c.now + ms) with
    | some (cause, t) => .abandoned cause context { c with now := t }
    | none => next.proceed w { c with now := c.now + ms }
  | hang context cancels =>
    let c := c.note cancels
    match w.halt? c with
    | some (cause, t) => .abandoned cause context { c with now := t }
    | none => .abandoned .stalled context c

end Tagtext
