import Tagtext.Engine
import Tagtext.Proofs.Reach
import Tagtext.Proofs.Waiting

/-!
# Cancelled runs

From the moment at which the token of a run is cancelled no handler is started.
The handler that is at work by then is abandoned if it waits; if it ends in the
very step in which the token is cancelled, what it returns and leaves is kept.

    token cancelled in front of node k      nothing is called from there on
    token cancelled while a handler waits   its call is the last, and is abandoned
    otherwise the handler ends              the run goes on with what it leaves

So a run that is not out of time ends as cancelled just when a handler was
abandoned or one more was needed                          (evaluate_of_cancellation).
-/

namespace Tagtext

/-! ## Steps -/

/-- What stops a run that does not wait, and why. -/
theorem Watch.cause_of_haltBy?_now {w : Watch} {c : Clock} {cause : Halt} {t : Nat}
    (h : w.haltBy? c c.now = some (cause, t)) :
    cause = .cancelled ∧ w.isCancelled c = true ∨
      cause = .timedOut ∧ w.isExpired c = true ∧ w.isCancelled c = false := by
  rw [haltBy?_now] at h
  split at h
  · next hc =>
    cases h
    exact Or.inl ⟨rfl, hc⟩
  · next hc =>
    split at h
    · next he =>
      cases h
      exact Or.inr ⟨rfl, he, by simpa using hc⟩
    · cases h

namespace Pass

section
variable {s : Setting} {index : Nat} {p q : Pass} {n : Node}

/-- Once a run is over its steps change nothing but the text. -/
theorem Does.of_over (h : s.watch.isCancelled p.effects.clock = true ∨
      s.watch.isExpired p.effects.clock = true)
    {o : Except (Halt × Pass) Pass} (hdoes : Does s index p n o)
    (ho : o = .ok q ∨ ∃ cause, o = .error (cause, q)) :
    q.effects.context = p.effects.context ∧ q.effects.clock = p.effects.clock ∧
      q.effects.calls = p.effects.calls := by
  have hover := Watch.haltBy?_of_over h
  cases hdoes with
  | quiet hn hcontext hclock hcalls =>
    rcases ho with ho | ⟨_, ho⟩ <;> cases ho
    exact ⟨hcontext, hclock, hcalls⟩
  | refused c cause t hc hw hcontext hclock hcalls =>
    rcases ho with ho | ⟨_, ho⟩ <;> cases ho
    exact ⟨hcontext, hclock, hcalls⟩
  | abandoned c work cause hc hwork hw hp hcalls =>
    rw [hover] at hw
    cases hw
  | finished c work result hc hwork hw hp hcalls hstack =>
    rw [hover] at hw
    cases hw

end

end Pass

namespace Document

section
variable {d : Document} {s : Setting} {start : Effects} {k : Nat} {p q : Pass} {cause : Halt}

/-- A run is not stopped in front of a node that it comes to. -/
theorem Stops.le_of_reaches {j : Nat} {p' : Pass} (h : d.Stops s start j p' cause q)
    (hp : d.Reaches s start k p) : k ≤ j := by
  by_contra hlt
  -- a run that comes further has taken the step that stops this one
  obtain ⟨p₁, hp₁⟩ := hp.exists_of_le (k := j + 1) (by omega)
  obtain ⟨n, p₀, hn, hp₀, hs⟩ := hp₁.exists_of_succ
  obtain ⟨n', hn', hs'⟩ := h.step
  rw [hn] at hn'
  cases hn'
  rw [hp₀.unique h.reaches, hs'] at hs
  cases hs

end

section
variable {d : Document} {s : Setting} {context : Context} {clock : Clock} {k : Nat} {p : Pass}

/-- **Where a run has come to when it is over, it has called all that it calls.** -/
theorem Reaches.calls_of_over (h : d.Reaches s ⟨context, clock, [], []⟩ k p)
    (hover : s.watch.isCancelled p.effects.clock = true ∨
      s.watch.isExpired p.effects.clock = true) :
    (d.evaluate s context clock).calls = p.effects.calls ∧
      (d.evaluate s context clock).context = p.effects.context ∧
      (d.evaluate s context clock).clock = p.effects.clock := by
  have hlater : ∀ {j : Nat} {q : Pass}, k ≤ j → d.Reaches s ⟨context, clock, [], []⟩ j q →
      q.effects.context = p.effects.context ∧ q.effects.clock = p.effects.clock ∧
        q.effects.calls = p.effects.calls := by
    intro j q hkj hq
    refine h.induct (I := fun _ q => q.effects.context = p.effects.context ∧
      q.effects.clock = p.effects.clock ∧ q.effects.calls = p.effects.calls) ⟨rfl, rfl, rfl⟩
      (fun j n q q' _ hq hn hI hs => ?_) hkj hq
    obtain ⟨hcontext, hclock, hcalls⟩ := hI
    have hdoes := Pass.does_step s j n q
    obtain ⟨hcontext', hclock', hcalls'⟩ :=
      hdoes.of_over (q := q') (by rwa [hclock]) (Or.inl hs)
    exact ⟨hcontext'.trans hcontext, hclock'.trans hclock, hcalls'.trans hcalls⟩
  rcases d.evaluate_cases s context clock with ⟨q, hq, hr⟩ | ⟨j, p', cause, q, hstops, hr⟩
  · obtain ⟨hcontext, hclock, hcalls⟩ := hlater h.le hq
    rw [hr]
    exact ⟨hcalls, hcontext, hclock⟩
  · obtain ⟨hcontext, hclock, hcalls⟩ := hlater (hstops.le_of_reaches h) hstops.reaches
    obtain ⟨n, hn, hs⟩ := hstops.step
    obtain ⟨hcontext', hclock', hcalls'⟩ :=
      (Pass.does_step s j n p').of_over (q := q) (by rwa [hclock]) (Or.inr ⟨cause, hs⟩)
    rw [hr]
    exact ⟨hcalls'.trans hcalls, hcontext'.trans hcontext, hclock'.trans hclock⟩

end

/-! ## Calls -/

section
variable {d : Document} {s : Setting} {start : Effects} {k : Nat} {p : Pass} {c : Call}

theorem Requires.exists_work (h : d.Requires s start k p c) : ∃ work, s.table.work? c = some work := by
  obtain ⟨n, _, tag, _, hknown, rfl⟩ := h.needs
  obtain ⟨desc, hdesc⟩ := Option.isSome_iff_exists.1 hknown
  exact ⟨_, Table.work?_callOf hdesc _ _⟩

/-- A call that is required when the run is over is refused. -/
theorem Requires.exists_stops (h : d.Requires s start k p c) {cause : Halt} {t : Nat}
    (hw : s.watch.haltBy? p.effects.clock p.effects.clock.now = some (cause, t)) :
    ∃ q, d.Stops s start k p cause q := by
  obtain ⟨n, hn, hneeds⟩ := h.needs
  have hdoes := Pass.does_step s k n p
  generalize hs : p.step s k n = o at hdoes
  cases hdoes with
  | quiet hnone => exact absurd hneeds (hnone c)
  | refused c' cause' t' hc hw' =>
    rw [hw] at hw'
    cases hw'
    exact ⟨_, h.reaches, n, hn, hs⟩
  | abandoned c' work cause' hc hwork hw' =>
    rw [hw] at hw'
    cases hw'
  | finished c' work result hc hwork hw' =>
    rw [hw] at hw'
    cases hw'

/-- A call that is required while the run is not over is what its work comes to. -/
theorem Requires.cases (h : d.Requires s start k p c) {work : Work}
    (hwork : s.table.work? c = some work)
    (hw : s.watch.haltBy? p.effects.clock p.effects.clock.now = none) :
    (∃ result n q, work.proceed s.watch p.effects.clock =
        .finished result q.effects.context q.effects.clock ∧ d.nodes[k]? = some n ∧
      d.Reaches s start (k + 1) q ∧ q.stack = (p.stackAround n).emit (s.config.written result) ∧
      q.effects.calls = p.effects.calls ++ [c]) ∨
    ∃ cause q, work.proceed s.watch p.effects.clock =
        .abandoned cause q.effects.context q.effects.clock ∧
      d.Stops s start k p cause q ∧ q.effects.calls = p.effects.calls ++ [c] := by
  obtain ⟨n, hn, hneeds⟩ := h.needs
  have hdoes := Pass.does_step s k n p
  generalize hs : p.step s k n = o at hdoes
  cases hdoes with
  | quiet hnone => exact absurd hneeds (hnone c)
  | refused c' cause' t' hc hw' =>
    rw [hw] at hw'
    cases hw'
  | abandoned c' work' cause hc hwork' _ hp hcalls =>
    obtain rfl := hneeds.unique hc
    rw [hwork] at hwork'
    cases hwork'
    exact Or.inr ⟨cause, _, hp, ⟨h.reaches, n, hn, hs⟩, hcalls⟩
  | finished c' work' result hc hwork' _ hp hcalls hstack =>
    obtain rfl := hneeds.unique hc
    rw [hwork] at hwork'
    cases hwork'
    exact Or.inl ⟨result, n, _, hp, hn, h.reaches.succ hn hs, hstack, hcalls⟩

/-- What stops a run is a call that it requires: one that is refused, or one that is abandoned. -/
theorem Stops.cases {cause : Halt} {q : Pass} (h : d.Stops s start k p cause q) :
    ∃ c work, d.Requires s start k p c ∧ s.table.work? c = some work ∧
      ((∃ t, s.watch.haltBy? p.effects.clock p.effects.clock.now = some (cause, t) ∧
          q.effects.clock = p.effects.clock ∧ q.effects.calls = p.effects.calls) ∨
        s.watch.haltBy? p.effects.clock p.effects.clock.now = none ∧
          work.proceed s.watch p.effects.clock =
            .abandoned cause q.effects.context q.effects.clock ∧
          q.effects.calls = p.effects.calls ++ [c]) := by
  obtain ⟨n, hn, hs⟩ := h.step
  have hdoes := Pass.does_step s k n p
  rw [hs] at hdoes
  cases hdoes with
  | refused c cause t hc hw hcontext hclock hcalls =>
    have hreq : d.Requires s start k p c := ⟨h.reaches, n, hn, hc⟩
    obtain ⟨work, hwork⟩ := hreq.exists_work
    exact ⟨c, work, hreq, hwork, Or.inl ⟨t, hw, hclock, hcalls⟩⟩
  | abandoned c work cause hc hwork hw hp hcalls =>
    exact ⟨c, work, ⟨h.reaches, n, hn, hc⟩, hwork, Or.inr ⟨hw, hp, hcalls⟩⟩

end

/-! ## How a run ends -/

/-- The token cuts a run short: one more handler is needed when it is cancelled, or it is cancelled
while a handler waits. -/
def CutShort (d : Document) (s : Setting) (start : Effects) : Prop :=
  ∃ k p, d.Reaches s start k p ∧
    (s.watch.isCancelled p.effects.clock = true ∧ d.CallsKnown s k ∨
      ∃ c work, d.Requires s start k p c ∧ s.table.work? c = some work ∧
        work.Caught s.watch p.effects.clock)

end Document

/-- Every handler that has been called ends if nothing stops it. -/
def Report.HandlersEnd (t : Table) (r : Report) : Prop :=
  ∀ c ∈ r.calls, ∀ work, t.work? c = some work → work.duration ≠ none

/-- How a run with this report can have ended. -/
inductive Report.Ends (s : Setting) (r : Report) : Option Halt → Prop
  | completed : Ends s r none
  | cancelled (hc : s.watch.isCancelled r.clock = true) : Ends s r (some .cancelled)
  | timedOut (he : s.watch.isExpired r.clock = true) (hc : s.watch.isCancelled r.clock = false) :
      Ends s r (some .timedOut)
  /-- A handler never ends, and nothing will ever stop it. -/
  | stalled (hd : s.watch.deadline = none)
      (htoken : s.watch.hasToken = true → s.watch.cancelAt = none ∧ r.clock.cancelled = false)
      (hnever : ¬ r.HandlersEnd s.table) : Ends s r (some .stalled)

namespace Document

section
variable {d : Document} {s : Setting} {context : Context} {clock : Clock} {k : Nat} {p q : Pass}
  {cause : Halt}

/-- **Every run ends in one of the listed ways.** -/
theorem ends_evaluate (d : Document) (s : Setting) (context : Context) (clock : Clock) :
    (d.evaluate s context clock).Ends s (d.evaluate s context clock).halt := by
  rcases d.evaluate_cases s context clock with ⟨q, _, hr⟩ | ⟨k, p, cause, q, hstops, hr⟩
  · rw [hr]
    exact .completed
  · rw [hr]
    obtain ⟨c, work, _, hwork, ⟨t, hw, hclock, _⟩ | ⟨_, hproceed, hcalls⟩⟩ := hstops.cases
    · rw [← hclock] at hw
      rcases Watch.cause_of_haltBy?_now hw with ⟨rfl, hc⟩ | ⟨rfl, he, hc⟩
      · exact .cancelled hc
      · exact .timedOut he hc
    · have hcomes := work.comes_proceed s.watch p.effects.clock
      rw [hproceed] at hcomes
      cases hcomes with
      | cancelled _ _ _ ht => exact .cancelled ht
      | timedOut _ _ ht hc => exact .timedOut ht hc
      | stalled _ _ _ hd htoken hnever =>
        refine .stalled hd htoken fun hend => hend c ?_ work hwork hnever
        rw [show (q.toReport (some .stalled)).calls = p.effects.calls ++ [c] from hcalls]
        simp

/-- A handler that is caught is the last one called, and is abandoned. -/
theorem Requires.evaluate_of_caught {c : Call} {work : Work}
    (h : d.Requires s ⟨context, clock, [], []⟩ k p c) (hwork : s.table.work? c = some work)
    (hw : s.watch.haltBy? p.effects.clock p.effects.clock.now = none)
    (hcaught : work.Caught s.watch p.effects.clock) :
    (d.evaluate s context clock).calls = p.effects.calls ++ [c] ∧
      ((d.evaluate s context clock).halt = some .cancelled ∨
        (d.evaluate s context clock).halt = some .timedOut) := by
  rcases h.cases hwork hw with ⟨result, n, q, hproceed, _⟩ | ⟨cause, q, hproceed, hstops, hcalls⟩
  · exact absurd hcaught (Work.not_caught_of_finished hproceed)
  · obtain ⟨cause', _, _, hcaught, hcause⟩ := Work.proceed_of_caught hcaught
    rw [hproceed] at hcaught
    cases hcaught
    rw [hstops.evaluate]
    exact ⟨hcalls, hcause.imp (congrArg some) (congrArg some)⟩

/-- A handler that is not caught and ends in time has its output and its context kept. -/
theorem Requires.exists_reaches_of_finish {start : Effects} {c : Call} {work : Work}
    (h : d.Requires s start k p c) (hwork : s.table.work? c = some work)
    (hw : s.watch.haltBy? p.effects.clock p.effects.clock.now = none)
    {result : Except HandlerError Text} {after : Context} {cancels : Bool} {c' : Clock}
    (hfinish : (.finish result after cancels, c') ∈ work.steps p.effects.clock)
    (hcaught : ¬ work.Caught s.watch p.effects.clock) (he : s.watch.isExpired c' = false) :
    ∃ n q, d.nodes[k]? = some n ∧ d.Reaches s start (k + 1) q ∧
      q.stack = (p.stackAround n).emit (s.config.written result) ∧
      q.effects.context = after ∧ q.effects.clock = c'.note cancels ∧
      q.effects.calls = p.effects.calls ++ [c] := by
  have hends := Work.proceed_of_not_caught hcaught hfinish he
  rcases h.cases hwork hw with ⟨_, n, q, hproceed, hn, hq, hstack, hcalls⟩ | ⟨_, _, hproceed, _⟩
  · obtain ⟨rfl, hcontext, hclock⟩ := Performance.finished.inj (hends.symm.trans hproceed)
    exact ⟨n, q, hn, hq, hstack, hcontext.symm, hclock.symm, hcalls⟩
  · rw [hends] at hproceed
    cases hproceed

/-- **A run that is not out of time ends as cancelled just when the token cuts it short.** -/
theorem halt_eq_cancelled_iff (hm : d.Matched)
    (hne : (d.evaluate s context clock).halt ≠ some .timedOut) :
    (d.evaluate s context clock).halt = some .cancelled ↔
      d.CutShort s ⟨context, clock, [], []⟩ := by
  constructor
  · intro hhalt
    rcases d.evaluate_cases s context clock with ⟨q, _, hr⟩ | ⟨k, p, cause, q, hstops, hr⟩
    · rw [hr] at hhalt
      cases hhalt
    · rw [hr] at hhalt
      cases hhalt
      obtain ⟨c, work, hreq, hwork, ⟨t, hw, _⟩ | ⟨_, hproceed, _⟩⟩ := hstops.cases
      · refine ⟨k, p, hstops.reaches, Or.inl ⟨?_, (hstops.reaches.callsKnown_iff hm).2 ⟨c, hreq⟩⟩⟩
        rcases Watch.cause_of_haltBy?_now hw with ⟨_, hc⟩ | ⟨hcause, _⟩
        · exact hc
        · cases hcause
      · have hcomes := work.comes_proceed s.watch p.effects.clock
        rw [hproceed] at hcomes
        cases hcomes with
        | cancelled _ _ hcaught => exact ⟨k, p, hstops.reaches, Or.inr ⟨c, work, hreq, hwork, hcaught⟩⟩
  · rintro ⟨k, p, hp, ⟨hc, hcalls⟩ | ⟨c, work, hreq, hwork, hcaught⟩⟩
    · obtain ⟨c, hreq⟩ := (hp.callsKnown_iff hm).1 hcalls
      obtain ⟨q, hstops⟩ := hreq.exists_stops (Watch.haltBy?_of_over (Or.inl hc))
      rw [hstops.evaluate, Watch.overBy, if_pos hc]
      rfl
    · cases hw : s.watch.haltBy? p.effects.clock p.effects.clock.now with
      | none => exact (hreq.evaluate_of_caught hwork hw hcaught).2.resolve_right hne
      | some stop =>
        obtain ⟨q, hstops⟩ := hreq.exists_stops hw
        rw [hstops.evaluate] at hne ⊢
        rcases Watch.cause_of_haltBy?_now hw with ⟨hcause, _⟩ | ⟨hcause, _⟩
        · exact congrArg some hcause
        · exact absurd (congrArg some hcause) hne

end

end Document

namespace Engine

section
variable (e : Engine) (input : Text) (context : Context) (cancelled : Bool) (cancelAt : Option Nat)
  (cancelsFirst : Bool)

/-- A token that is cancelled before the table is built, and not later than the run is out of time,
ends the run of an engine before it calls anything. -/
theorem run_of_cancelled (pace : Pace) (h : cancelled = true ∨ ∃ t, cancelAt = some t ∧
      (∀ built, Provider.totalDelay e.providers = some built → t ≤ pace.start + built) ∧
      ∀ T, e.config.timeout = some T → t ≤ max pace.start T) :
    ∃ t, e.run input context true cancelled cancelAt cancelsFirst pace =
      ⟨some .cancelled, [], [], e.seed context, [], ⟨t, cancelled⟩⟩ := by
  have hhalt : ∃ t, (e.watch true cancelAt cancelsFirst).halt? ⟨pace.start, cancelled⟩ =
      some (.cancelled, t) ∧
      ∀ built, Provider.totalDelay e.providers = some built → t ≤ pace.start + built := by
    unfold Watch.halt? Watch.cancellation? Watch.expiry? Engine.watch
    cases cancelled with
    | true => cases e.config.timeout <;> simp
    | false =>
      obtain ⟨t, rfl, hle, htimeout⟩ := h.resolve_left (by simp)
      refine ⟨max pace.start t, ?_, fun built hbuilt => ?_⟩
      · cases hT : e.config.timeout with
        | none => simp
        | some T =>
          have := htimeout T hT
          simp only [Bool.not_true, Bool.false_eq_true, if_false, Option.map_some]
          rw [if_pos (by omega)]
      · have := hle built hbuilt
        omega
  obtain ⟨t, ht, hle⟩ := hhalt
  exact ⟨t, e.run_of_await_some _ _ _ _ _ _ _ (Watch.await_of_halt? ht hle)⟩

/-- An engine whose table is built while its token is not cancelled and the run not out of time
evaluates its text with the table. -/
theorem run_of_built (hasToken : Bool) {built : Nat}
    (hbuilt : Provider.totalDelay e.providers = some built)
    (hc : (e.watch hasToken cancelAt cancelsFirst).isCancelled ⟨built, cancelled⟩ = false)
    (he : (e.watch hasToken cancelAt cancelsFirst).isExpired ⟨built, cancelled⟩ = false) :
    e.run input context hasToken cancelled cancelAt cancelsFirst =
      evaluate ⟨e.table (e.seed context), e.config, e.watch hasToken cancelAt cancelsFirst⟩ input
        (e.seed context) ⟨built, cancelled⟩ := by
  have hawait : (e.watch hasToken cancelAt cancelsFirst).await ⟨0, cancelled⟩ (some built) =
      (none, ⟨0 + built, cancelled⟩) := by
    rw [← Nat.zero_add built] at hc he
    exact Watch.await_of_not_over (c := ⟨0, cancelled⟩) hc he
  rw [← hbuilt, Nat.zero_add] at hawait
  rw [e.run_of_await_none _ _ _ _ _ _ {} hawait, Document.evaluatePaced_still]
  rfl

end

end Engine

/-- **No handler starts once the token is cancelled.**  Where a run has come to when its token is
cancelled it has called all that it calls, and its context stays as it is.  A handler that waits when
the token is cancelled is abandoned and is the last one called; one that ends, be it in the very step
that cancels, has its output and its context kept.  A run that is not out of time ends as cancelled
just when a handler was abandoned so or one more was needed, and is completed otherwise.  Being
cancelled comes before being out of time, and without a token and a deadline only a handler that
never ends keeps a run from being completed.  A token that is cancelled by the time the table of an
engine is built, if it ever is, ends the run before anything is called; where neither this nor the
deadline comes by then, the run evaluates its text, so all of the above is so of it. -/
theorem evaluate_of_cancellation (s : Setting) (input : Text) (context : Context) (clock : Clock) :
    let d := Document.parse input
    let start : Effects := ⟨context, clock, [], []⟩
    let r := evaluate s input context clock
    (∀ k p, d.Reaches s start k p → s.watch.isCancelled p.effects.clock = true →
      r.calls = p.effects.calls ∧ r.context = p.effects.context) ∧
    (∀ k p c work, d.Requires s start k p c → s.table.work? c = some work →
      s.watch.isCancelled p.effects.clock = false → s.watch.isExpired p.effects.clock = false →
      (work.Caught s.watch p.effects.clock → r.calls = p.effects.calls ++ [c] ∧
        (r.halt = some .cancelled ∨ r.halt = some .timedOut)) ∧
      ∀ result after cancels c', (.finish result after cancels, c') ∈ work.steps p.effects.clock →
        ¬ work.Caught s.watch p.effects.clock → s.watch.isExpired c' = false →
        ∃ n q, d.nodes[k]? = some n ∧ d.Reaches s start (k + 1) q ∧
          q.stack = (p.stackAround n).emit (s.config.written result) ∧
          q.effects.context = after ∧ q.effects.clock = c'.note cancels ∧
          q.effects.calls = p.effects.calls ++ [c]) ∧
    (r.halt ≠ some .timedOut → (r.halt = some .cancelled ↔ d.CutShort s start) ∧
      (¬ d.CutShort s start → r.HandlersEnd s.table → r.halt = none)) ∧
    (r.halt = some .cancelled → s.watch.isCancelled r.clock = true) ∧
    (r.halt = some .timedOut →
      s.watch.isExpired r.clock = true ∧ s.watch.isCancelled r.clock = false) ∧
    (r.halt = some .stalled → s.watch.deadline = none ∧
      (s.watch.hasToken = true → s.watch.cancelAt = none ∧ r.clock.cancelled = false) ∧
      ¬ r.HandlersEnd s.table) ∧
    (s.watch.hasToken = false → s.watch.deadline = none → r.HandlersEnd s.table → r.halt = none) ∧
    ∀ (e : Engine) (hasToken cancelled : Bool) (cancelAt : Option Nat) (cancelsFirst : Bool),
      (∀ pace : Pace, (cancelled = true ∨ ∃ t, cancelAt = some t ∧
          (∀ built, Provider.totalDelay e.providers = some built → t ≤ pace.start + built) ∧
          ∀ T, e.config.timeout = some T → t ≤ max pace.start T) →
        ∃ t, e.run input context true cancelled cancelAt cancelsFirst pace =
          ⟨some .cancelled, [], [], e.seed context, [], ⟨t, cancelled⟩⟩) ∧
      ((∃ cause t, e.run input context hasToken cancelled cancelAt cancelsFirst =
          ⟨some cause, [], [], e.seed context, [], ⟨t, cancelled⟩⟩) ∨
        ∃ built, Provider.totalDelay e.providers = some built ∧
          e.run input context hasToken cancelled cancelAt cancelsFirst =
            evaluate ⟨e.table (e.seed context), e.config, e.watch hasToken cancelAt cancelsFirst⟩
              input (e.seed context) ⟨built, cancelled⟩) ∧
      ∀ built, Provider.totalDelay e.providers = some built →
        (e.watch hasToken cancelAt cancelsFirst).isCancelled ⟨built, cancelled⟩ = false →
        (e.watch hasToken cancelAt cancelsFirst).isExpired ⟨built, cancelled⟩ = false →
        e.run input context hasToken cancelled cancelAt cancelsFirst =
          evaluate ⟨e.table (e.seed context), e.config, e.watch hasToken cancelAt cancelsFirst⟩
            input (e.seed context) ⟨built, cancelled⟩ := by
  intro d start r
  have hm : d.Matched := Document.matched_parse input
  have hends : r.Ends s r.halt := d.ends_evaluate s context clock
  refine ⟨fun k p hp hc => ?_, fun k p c work hreq hwork hc he => ?_, fun hne => ?_,
    fun hhalt => ?_, fun hhalt => ?_, fun hhalt => ?_, fun htoken hdeadline hend => ?_,
    fun e hasToken cancelled cancelAt cancelsFirst =>
      ⟨fun pace h => e.run_of_cancelled input context cancelled cancelAt cancelsFirst pace h,
        e.run_halted_or_evaluate input context hasToken cancelled cancelAt cancelsFirst,
        fun built hbuilt hc he =>
          e.run_of_built input context cancelled cancelAt cancelsFirst hasToken hbuilt hc he⟩⟩
  · obtain ⟨hcalls, hcontext, _⟩ := hp.calls_of_over (Or.inl hc)
    exact ⟨hcalls, hcontext⟩
  · have hw : s.watch.haltBy? p.effects.clock p.effects.clock.now = none := by
      simp [Watch.haltBy?_now, hc, he]
    exact ⟨fun hcaught => hreq.evaluate_of_caught hwork hw hcaught,
      fun result after cancels c' hfinish hcaught hexpired =>
        hreq.exists_reaches_of_finish hwork hw hfinish hcaught hexpired⟩
  · have hiff : r.halt = some .cancelled ↔ d.CutShort s start :=
      Document.halt_eq_cancelled_iff hm hne
    refine ⟨hiff, fun hshort hend => ?_⟩
    generalize r.halt = halt at hends hne hiff ⊢
    cases hends with
    | completed => rfl
    | cancelled => exact absurd (hiff.1 rfl) hshort
    | timedOut => exact absurd rfl hne
    | stalled _ _ hnever => exact absurd hend hnever
  · rw [hhalt] at hends
    cases hends with
    | cancelled hc => exact hc
  · rw [hhalt] at hends
    cases hends with
    | timedOut he hc => exact ⟨he, hc⟩
  · rw [hhalt] at hends
    cases hends with
    | stalled hd htoken hnever => exact ⟨hd, htoken, hnever⟩
  · generalize r.halt = halt at hends ⊢
    cases hends with
    | completed => rfl
    | cancelled hc => simp [Watch.isCancelled, htoken] at hc
    | timedOut he _ => simp [Watch.isExpired, hdeadline] at he
    | stalled _ _ hnever => exact absurd hend hnever

/-- A handler that cancels in its last step, an unknown tag behind it, and one more call. -/
theorem evaluate_of_cancellation_in_last_step :
    let a : Descriptor := ⟨"a".toList, .code, {}, fun _ _ c =>
      .finish (.ok "A".toList) (c.increment "n".toList) true⟩
    let s : Setting := ⟨Table.empty.insertAll [a], {}, { hasToken := true }⟩
    let input := "[a/]x[u/][a/]z".toList
    let r := evaluate s input .empty {}
    (Document.parse input).CutShort s ⟨.empty, {}, [], []⟩ ∧ r.halt = some .cancelled ∧
      s.watch.isCancelled r.clock = true ∧ r.output = "Ax[u/]".toList ∧ r.calls.length = 1 := by
  intro a s input r
  have hhalt : r.halt = some .cancelled := by decide +kernel
  obtain ⟨_, _, hshort, hclock, _⟩ := evaluate_of_cancellation s input .empty {}
  have hne : r.halt ≠ some .timedOut := by
    rw [hhalt]
    decide
  exact ⟨(hshort hne).1.1 hhalt, hhalt, hclock hhalt, by decide +kernel, by decide +kernel⟩

end Tagtext
