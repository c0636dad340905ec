import Mathlib.Data.ENat.Basic
import Tagtext.Engine
import Tagtext.Proofs.Cancelling

/-!
# The time budget of a run

A run without token and deadline spends the time that its handlers take, one
after the other: when the first `k` of its `n` calls are over is `spent k`.  With a
deadline `T` it goes on in the same way until the first call that is not over
before `T`, and ends in that call:

    spent n < T                      the whole run is the same
    spent k < T ≤ spent (k + 1)      the same up to call k + 1, which is abandoned at T

A step depends on the watch only through the work that it begins
(`Setting.Alike.step`), so both runs come to the same node as the same pass
(`Reaches.before`).  For an engine the time counts from the start of the run, the
building of its table included, which may never end                (run_withTimeout).
-/

namespace Tagtext

/-- How long work takes if nothing stops it; for ever if it never ends. -/
def Work.span (work : Work) : ℕ∞ := work.duration.elim ⊤ fun ms => (ms : ℕ∞)

/-- How long the work takes that a call begins. -/
def Table.span (t : Table) (c : Call) : ℕ∞ := (t.work? c).elim 0 Work.span

theorem Table.span_of_work? {t : Table} {c : Call} {work : Work} (h : t.work? c = some work) :
    t.span c = work.span := by
  rw [span, h]
  rfl

/-- Two settings that differ at most in what they watch. -/
structure Setting.Alike (s s' : Setting) : Prop where
  table : s'.table = s.table
  depth : s'.config.maxNestingDepth = s.config.maxNestingDepth
  failure : s'.config.failure = s.config.failure
  unclosed : s'.config.unclosed = s.config.unclosed

/-! ## Work -/

namespace Work

@[simp] theorem span_finish (result : Except HandlerError Text) (context : Context)
    (cancels : Bool) : (finish result context cancels).span = 0 := rfl

@[simp] theorem span_pause (ms : Nat) (context : Context) (cancels : Bool) (next : Work) :
    (pause ms context cancels next).span = ms + next.span := by
  simp only [span, duration]
  cases next.duration <;> simp

@[simp] theorem span_hang (context : Context) (cancels : Bool) : (hang context cancels).span = ⊤ :=
  rfl

variable {result : Except HandlerError Text} {after : Context} {c' : Clock}

/-- Work that ends when nothing is watched has taken its time. -/
theorem now_of_proceed {work : Work} : ∀ {c : Clock}, work.proceed {} c = .finished result after c' →
    (c'.now : ℕ∞) = c.now + work.span := by
  induction work with
  | finish result context cancels =>
    intro c h
    cases h
    simp [Clock.note]
  | pause ms context cancels next ih =>
    intro c h
    have hnext : next.proceed {} { c.note cancels with now := c.now + ms } =
        .finished result after c' := h
    rw [ih hnext, span_pause, ← add_assoc]
    push_cast
    rfl
  | hang context cancels =>
    intro c h
    cases h

/-- Work that does not end when nothing is watched takes for ever. -/
theorem span_of_abandoned {cause : Halt} {work : Work} : ∀ {c : Clock},
    work.proceed {} c = .abandoned cause after c' → work.span = ⊤ := by
  induction work with
  | finish result context cancels =>
    intro c h
    cases h
  | pause ms context cancels next ih =>
    intro c h
    have hnext : next.proceed {} { c.note cancels with now := c.now + ms } =
        .abandoned cause after c' := h
    rw [span_pause, ih hnext, add_top]
  | hang context cancels =>
    intro c h
    rfl

end Work

/-! ## Deadlines -/

/-- A deadline and no token. -/
def Watch.until (T : Nat) : Watch := { deadline := some T }

namespace Watch

variable {c : Clock} {T : Nat}

theorem halt?_until (h : c.now ≤ T) : (Watch.until T).halt? c = some (.timedOut, T) := by
  simp [halt?, cancellation?, expiry?, Watch.until, h]

theorem haltBy?_until (h : c.now ≤ T) (till : Nat) :
    (Watch.until T).haltBy? c till = if T ≤ till then some (.timedOut, T) else none := by
  simp [haltBy?, halt?_until h, Option.filter_some]

theorem haltWait?_until (h : c.now ≤ T) (till : Nat) :
    (Watch.until T).haltWait? c till = if T ≤ till then some (.timedOut, T) else none := by
  rw [haltWait?, haltBy?_until h]
  split <;> rfl

/-- Before the deadline a handler is started. -/
theorem haltBy?_until_now (h : c.now < T) : (Watch.until T).haltBy? c c.now = none := by
  rw [haltBy?_until (Nat.le_of_lt h), if_neg (Nat.not_le.2 h)]

end Watch

namespace Work

variable {T : Nat}

/-- The time of a step and that of the rest add up. -/
theorem now_add_span_pause (now ms : Nat) (context : Context) (cancels : Bool) (next : Work) :
    (now : ℕ∞) + (pause ms context cancels next).span = ((now + ms : Nat) : ℕ∞) + next.span := by
  rw [span_pause, ← add_assoc]
  push_cast
  rfl

/-- Work that is over before the deadline goes on as if nothing was watched. -/
theorem proceed_until_of_lt {work : Work} : ∀ {c : Clock}, (c.now : ℕ∞) + work.span < T →
    work.proceed (.until T) c = work.proceed {} c := by
  induction work with
  | finish result context cancels => intro c _; rfl
  | pause ms context cancels next ih =>
    intro c h
    rw [now_add_span_pause] at h
    have hlt : c.now + ms < T := Nat.cast_lt.1 (lt_of_le_of_lt le_self_add h)
    have hwait : (Watch.until T).haltWait? (c.note cancels) (c.now + ms) = none := by
      have hnow : (c.note cancels).now ≤ T := by
        simp only [Clock.note]
        omega
      rw [Watch.haltWait?_until hnow, if_neg (by omega)]
    simp only [proceed, show (c.note cancels).now = c.now from rfl, hwait]
    exact ih (c := { c.note cancels with now := c.now + ms }) h
  | hang context cancels =>
    intro c h
    rw [span_hang, add_top] at h
    exact absurd h not_top_lt

/-- Work that is not over before the deadline is abandoned there. -/
theorem proceed_until_of_le {work : Work} : ∀ {c : Clock}, c.now < T →
    (T : ℕ∞) ≤ c.now + work.span →
    ∃ after c', work.proceed (.until T) c = .abandoned .timedOut after c' ∧ c'.now = T := by
  induction work with
  | finish result context cancels =>
    intro c hnow h
    rw [span_finish, add_zero, Nat.cast_le] at h
    omega
  | pause ms context cancels next ih =>
    intro c hnow h
    rw [now_add_span_pause] at h
    have hwait := Watch.haltWait?_until (show (c.note cancels).now ≤ T from Nat.le_of_lt hnow)
      (c.now + ms)
    simp only [proceed, show (c.note cancels).now = c.now from rfl, hwait]
    by_cases hle : T ≤ c.now + ms
    · rw [if_pos hle]
      exact ⟨_, _, rfl, rfl⟩
    · rw [if_neg hle]
      exact ih (c := { c.note cancels with now := c.now + ms }) (by simp only; omega) h
  | hang context cancels =>
    intro c hnow _
    have hhalt := Watch.halt?_until (show (c.note cancels).now ≤ T from Nat.le_of_lt hnow)
    simp only [proceed, hhalt]
    exact ⟨_, _, rfl, rfl⟩

end Work

/-! ## Steps -/

namespace Setting.Alike

variable {s s' : Setting} (h : s.Alike s')
include h

/-- Where the watches come to the same, so does a call. -/
theorem invoke {e : Effects} {tag : Tag} {content : Text} (fallback : Text)
    (hw : s'.watch.haltBy? e.clock e.clock.now = s.watch.haltBy? e.clock e.clock.now)
    (hwork : ∀ work, s.table.work? (e.callOf tag content) = some work →
      work.proceed s'.watch e.clock = work.proceed s.watch e.clock) :
    e.invoke s' tag content fallback = e.invoke s tag content fallback := by
  unfold Effects.invoke
  rw [h.table]
  cases hd : s.table.get? tag.name with
  | none => rfl
  | some d => simp only [hw, hwork _ (Table.work?_callOf hd content e), h.failure]

variable {k : Nat} {n : Node} {p : Pass}

/-- Both need the same calls. -/
theorem needs {c : Call} (hneeds : p.Needs s k n c) : p.Needs s' k n c := by
  obtain ⟨tag, hcalls, hknown, rfl⟩ := hneeds
  refine ⟨tag, ?_, h.table ▸ hknown, rfl⟩
  cases hcalls with
  | alone _ partner hle hk => exact .alone _ partner hle hk
  | unclosed _ hle hk hu => exact .unclosed _ hle hk (h.unclosed.trans hu)
  | closed tag f fs hle hk hf => exact .closed tag f fs hle hk hf

variable (hw : s'.watch.haltBy? p.effects.clock p.effects.clock.now =
    s.watch.haltBy? p.effects.clock p.effects.clock.now)
  (hwork : ∀ c work, p.Needs s k n c → s.table.work? c = some work →
    work.proceed s'.watch p.effects.clock = work.proceed s.watch p.effects.clock)
include hw hwork

/-- Where the watches come to the same for all that a step calls, so does the call. -/
theorem invoke_of_calls {tag : Tag} {e : Effects} (fallback : Text) (hcalls : p.Calls s k n tag)
    (hcontext : e.context = p.effects.context) (hclock : e.clock = p.effects.clock) :
    e.invoke s' tag (p.contentAt n) fallback = e.invoke s tag (p.contentAt n) fallback := by
  refine h.invoke fallback (by rw [hclock, hw]) fun work hworke => ?_
  rw [hclock]
  have hcall : e.callOf tag (p.contentAt n) = p.effects.callOf tag (p.contentAt n) := by
    simp [Effects.callOf, hcontext]
  rw [hcall] at hworke
  refine hwork _ work ⟨tag, hcalls, ?_, rfl⟩ hworke
  obtain ⟨d, hd, _⟩ := Option.map_eq_some_iff.1 hworke
  exact Option.isSome_iff_exists.2 ⟨d, hd⟩

/-- **A step depends on the watch only through the work that it begins.** -/
theorem step : p.step s' k n = p.step s k n := by
  have ht := Pass.takes_step s k n p
  generalize p.step s k n = r at ht ⊢
  cases ht with
  | kept n hlt => exact Pass.step_kept hlt n
  | text t hle => exact Pass.step_text hle t
  | malformed raw e hle => exact Pass.step_malformed hle raw e
  | alone tag partner hle hk =>
    have hinvoke := h.invoke_of_calls hw hwork tag.raw (.alone tag partner hle hk)
      (e := p.effects) rfl rfl
    rw [Pass.contentAt_of_ne_closing (by simp [hk])] at hinvoke
    rw [Pass.step_alone hle hk, Pass.standalone, Pass.standalone, hinvoke]
  | deep tag close hle hk hd =>
    rw [← h.depth] at hd
    rw [Pass.step_deep hle hk hd, h.depth]
  | opened tag close hle hk hd =>
    rw [← h.depth] at hd
    exact Pass.step_opened hle hk hd close
  | unclosed tag hle hk hu =>
    have hinvoke := h.invoke_of_calls hw hwork tag.raw (.unclosed tag hle hk hu)
      (e := (p.report (.parse (.unclosedTag tag.name tag.start))).effects) rfl rfl
    rw [Pass.contentAt_of_ne_closing (by simp [hk])] at hinvoke
    rw [Pass.step_unclosed hle hk (h.unclosed.trans hu), Pass.standalone, Pass.standalone, hinvoke]
  | stays tag hle hk hu => exact Pass.step_stays hle hk (h.unclosed.trans hu)
  | closed tag f fs hle hk hf =>
    have hinvoke := h.invoke_of_calls hw hwork (f.opener.raw ++ f.buffer ++ tag.raw)
      (.closed tag f fs hle hk hf) (e := p.effects) rfl rfl
    rw [Pass.contentAt_of_closing hk hf] at hinvoke
    rw [Pass.step_closed hle hk hf, Pass.close, Pass.close, hinvoke]
  | orphan tag partner hle hk hf => exact Pass.step_orphan hle hk partner hf

end Setting.Alike

namespace Pass

variable {s : Setting} (hfree : s.watch = {}) {k : Nat} {n : Node} {p q : Pass}
include hfree

/-- A step calls nothing in no time, or it makes one call and takes its time, when nothing is
watched. -/
theorem spent_of_step (hs : p.step s k n = .ok q) :
    ((∀ c, ¬ p.Needs s k n c) ∧ q.effects.calls = p.effects.calls ∧
        q.effects.clock.now = p.effects.clock.now) ∨
      ∃ c, p.Needs s k n c ∧ q.effects.calls = p.effects.calls ++ [c] ∧
        (q.effects.clock.now : ℕ∞) = p.effects.clock.now + s.table.span c := by
  have hdoes := does_step s k n p
  rw [hs] at hdoes
  cases hdoes with
  | quiet hnone _ hclock hcalls => exact Or.inl ⟨hnone, hcalls, congrArg Clock.now hclock⟩
  | finished c work result hc hwork _ hproceed hcalls =>
    rw [hfree] at hproceed
    refine Or.inr ⟨c, hc, hcalls, ?_⟩
    rw [Table.span_of_work? hwork, Work.now_of_proceed hproceed]

/-- When nothing is watched, only a handler that never ends stops a step. -/
theorem exists_of_step_error {cause : Halt} (hs : p.step s k n = .error (cause, q)) :
    ∃ c, p.Needs s k n c ∧ s.table.span c = ⊤ ∧ q.effects.calls = p.effects.calls ++ [c] := by
  have hdoes := does_step s k n p
  rw [hs] at hdoes
  cases hdoes with
  | refused c cause t hc hw =>
    rw [hfree] at hw
    cases hw
  | abandoned c work cause hc hwork _ hproceed hcalls =>
    rw [hfree] at hproceed
    exact ⟨c, hc, (Table.span_of_work? hwork).trans (Work.span_of_abandoned hproceed), hcalls⟩

end Pass

/-! ## Runs -/

namespace Document

section
variable {d : Document} {s s' : Setting} {start : Effects} {T k : Nat} {p : Pass}
  (hfree : s.watch = {})
include hfree

/-- The time at which a run comes to a node, when nothing is watched. -/
theorem Reaches.now_eq (hstart : start.calls = []) (h : d.Reaches s start k p) :
    (p.effects.clock.now : ℕ∞) =
      start.clock.now + (p.effects.calls.map s.table.span).sum := by
  refine (d.reaches_zero s start).induct (I := fun _ p => (p.effects.clock.now : ℕ∞) =
    start.clock.now + (p.effects.calls.map s.table.span).sum) (by simp [hstart])
    (fun k n p q _ _ _ hI hs => ?_) (Nat.zero_le k) h
  rcases Pass.spent_of_step hfree hs with ⟨_, hcalls, hnow⟩ | ⟨c, _, hcalls, hnow⟩
  · rw [hnow, hI, hcalls]
  · rw [hnow, hI, hcalls, List.map_append, List.sum_append, add_assoc]
    simp

/-- When nothing is watched, either the run comes to the end before `T`, or it has to make a call
before `T` that is not over by then. -/
theorem exists_end_or_late (d : Document) (start : Effects) (hstart : start.clock.now < T) :
    (∃ q, d.Reaches s start d.nodes.length q ∧ q.effects.clock.now < T) ∨
      ∃ k p c, d.Requires s start k p c ∧ p.effects.clock.now < T ∧
        (T : ℕ∞) ≤ p.effects.clock.now + s.table.span c := by
  -- induction on the node up to which the run is before `T`
  have hall : ∀ k ≤ d.nodes.length,
      (∃ q, d.Reaches s start k q ∧ q.effects.clock.now < T) ∨
        ∃ k p c, d.Requires s start k p c ∧ p.effects.clock.now < T ∧
          (T : ℕ∞) ≤ p.effects.clock.now + s.table.span c := by
    intro k
    induction k with
    | zero => exact fun _ => Or.inl ⟨_, d.reaches_zero s start, hstart⟩
    | succ k ih =>
      intro hk
      rcases ih (by omega) with ⟨p, hp, hnow⟩ | hlate
      · have hn := List.getElem?_eq_getElem hk
        rcases hp.cases hn with ⟨q, hs, hq⟩ | ⟨cause, q, hs, _⟩
        · by_cases hlt : q.effects.clock.now < T
          · exact Or.inl ⟨q, hq, hlt⟩
          · rcases Pass.spent_of_step hfree hs with ⟨_, _, hsame⟩ | ⟨c, hc, _, hspent⟩
            · omega
            · refine Or.inr ⟨k, p, c, ⟨hp, _, hn, hc⟩, hnow, ?_⟩
              rw [← hspent, Nat.cast_le]
              omega
        · obtain ⟨c, hc, hspan, _⟩ := Pass.exists_of_step_error hfree hs
          exact Or.inr ⟨k, p, c, ⟨hp, _, hn, hc⟩, hnow, by simp [hspan]⟩
      · exact Or.inr hlate
  exact hall d.nodes.length (Nat.le_refl _)

/-- **Before the deadline** a run goes on as if nothing was watched. -/
theorem Reaches.before (halike : s.Alike s') (huntil : s'.watch = .until T)
    (h : d.Reaches s start k p) (hlt : p.effects.clock.now < T) : d.Reaches s' start k p := by
  induction k generalizing p with
  | zero =>
    rw [h.unique (d.reaches_zero s start)]
    exact d.reaches_zero s' start
  | succ k ih =>
    obtain ⟨n, p', hn, hp', hs⟩ := h.exists_of_succ
    have hspent := Pass.spent_of_step hfree hs
    have hle : p'.effects.clock.now ≤ p.effects.clock.now := by
      rcases hspent with ⟨_, _, hnow⟩ | ⟨c, _, _, hnow⟩
      · exact Nat.le_of_eq hnow.symm
      · rw [← Nat.cast_le (α := ℕ∞), hnow]
        exact le_self_add
    have hw : s'.watch.haltBy? p'.effects.clock p'.effects.clock.now =
        s.watch.haltBy? p'.effects.clock p'.effects.clock.now := by
      rw [huntil, Watch.haltBy?_until_now (by omega), hfree]
      rfl
    -- what the step begins is over at the time of `p`, so before `T`
    have hwork : ∀ c work, p'.Needs s k n c → s.table.work? c = some work →
        work.proceed s'.watch p'.effects.clock = work.proceed s.watch p'.effects.clock := by
      intro c work hc hwork
      rcases hspent with ⟨hnone, _⟩ | ⟨c', hc', _, hnow⟩
      · exact absurd hc (hnone c)
      · obtain rfl := hc.unique hc'
        rw [huntil, hfree]
        refine Work.proceed_until_of_lt ?_
        rwa [← Table.span_of_work? hwork, ← hnow, Nat.cast_lt]
    rw [← halike.step hw hwork] at hs
    exact (ih hp' (by omega)).succ hn hs

/-- A call that is not over before the deadline is the last one, and is abandoned there. -/
theorem Requires.exists_stops_until (halike : s.Alike s') (huntil : s'.watch = .until T) {c : Call}
    (h : d.Requires s start k p c) (hlt : p.effects.clock.now < T)
    (hle : (T : ℕ∞) ≤ p.effects.clock.now + s.table.span c) :
    ∃ q, d.Stops s' start k p .timedOut q ∧ q.effects.calls = p.effects.calls ++ [c] ∧
      q.effects.clock.now = T := by
  obtain ⟨work, hwork⟩ := h.exists_work
  rw [Table.span_of_work? hwork] at hle
  obtain ⟨after, c', hproceed, hnow⟩ := Work.proceed_until_of_le hlt hle
  obtain ⟨n, hn, hneeds⟩ := h.needs
  have h' : d.Requires s' start k p c :=
    ⟨h.reaches.before hfree halike huntil hlt, n, hn, halike.needs hneeds⟩
  have hw : s'.watch.haltBy? p.effects.clock p.effects.clock.now = none := by
    rw [huntil, Watch.haltBy?_until_now hlt]
  rcases h'.cases (halike.table ▸ hwork) hw with ⟨_, _, _, hends, _⟩ | ⟨cause, q, hends, hstops, hcalls⟩
  · rw [huntil, hproceed] at hends
    cases hends
  · rw [huntil, hproceed] at hends
    obtain ⟨rfl, _, hclock⟩ := Performance.abandoned.inj hends
    exact ⟨q, hstops, hcalls, by rw [← hclock, hnow]⟩

end

end Document

/-! ## Time spent -/

/-- When the first `k` calls of a run are over that calls its handlers from time `now` on, if nothing
stops them. -/
def Report.spent (t : Table) (now : ℕ∞) (r : Report) (k : Nat) : ℕ∞ :=
  now + ((r.calls.take k).map t.span).sum

namespace Report

variable {t : Table} {now : ℕ∞} {r : Report}

theorem spent_mono {j k : Nat} (h : j ≤ k) : r.spent t now j ≤ r.spent t now k := by
  have hsplit : r.calls.take k = r.calls.take j ++ (r.calls.drop j).take (k - j) := by
    rw [← List.take_add, Nat.add_sub_cancel' h]
  rw [spent, spent, hsplit, List.map_append, List.sum_append, ← add_assoc]
  exact le_self_add

theorem spent_of_prefix {cs : List Call} (h : cs <+: r.calls) :
    r.spent t now cs.length = now + (cs.map t.span).sum := by
  rw [spent, ← List.prefix_iff_eq_take.1 h]

end Report

namespace Document

section
variable {d : Document} {s s' : Setting} {context : Context} {clock : Clock} {T k : Nat} {p q : Pass}

/-- What has been called where a run comes is what it calls first. -/
theorem Reaches.calls_prefix (h : d.Reaches s ⟨context, clock, [], []⟩ k p) :
    p.effects.calls <+: (d.evaluate s context clock).calls := by
  rcases d.evaluate_cases s context clock with ⟨q, hq, hr⟩ | ⟨j, p', cause, q, hstops, hr⟩
  · rw [hr]
    exact (h.grows h.le hq).2
  · rw [hr]
    refine (h.grows (hstops.le_of_reaches h) hstops.reaches).2.trans ?_
    obtain ⟨c, work, _, _, ⟨t, _, _, hcalls⟩ | ⟨_, _, hcalls⟩⟩ := hstops.cases
    · exact ⟨[], (List.append_nil _).trans hcalls.symm⟩
    · exact ⟨[c], hcalls.symm⟩

variable (hfree : s.watch = {})
include hfree

theorem Requires.calls_prefix {c : Call} (h : d.Requires s ⟨context, clock, [], []⟩ k p c) :
    p.effects.calls ++ [c] <+: (d.evaluate s context clock).calls := by
  obtain ⟨n, hn, hneeds⟩ := h.needs
  rcases h.reaches.cases hn with ⟨q, hs, hq⟩ | ⟨cause, q, hs, hstops⟩
  · rcases Pass.spent_of_step hfree hs with ⟨hnone, _⟩ | ⟨c', hc', hcalls, _⟩
    · exact absurd hneeds (hnone c)
    · rw [hneeds.unique hc', ← hcalls]
      exact hq.calls_prefix
  · obtain ⟨c', hc', _, hcalls⟩ := Pass.exists_of_step_error hfree hs
    rw [hneeds.unique hc', ← hcalls, hstops.evaluate]
    exact List.prefix_rfl

/-- The time at which a run comes to a node is what its calls so far have spent. -/
theorem Reaches.spent_eq (h : d.Reaches s ⟨context, clock, [], []⟩ k p) :
    (d.evaluate s context clock).spent s.table clock.now p.effects.calls.length =
      p.effects.clock.now := by
  rw [Report.spent_of_prefix h.calls_prefix, h.now_eq hfree rfl]

/-- **When nothing is watched** a run is completed unless its last handler never ends. -/
theorem spent_evaluate (d : Document) (context : Context) (clock : Clock) :
    let r := d.evaluate s context clock
    (∀ k < r.calls.length, r.spent s.table clock.now k ≠ ⊤) ∧
      (r.halt = none ↔ r.spent s.table clock.now r.calls.length ≠ ⊤) := by
  intro r
  rcases d.evaluate_cases s context clock with ⟨q, hq, hr⟩ | ⟨j, p, cause, q, hstops, hr⟩
  · have hspent : r.spent s.table clock.now r.calls.length = q.effects.clock.now := by
      rw [show r.calls = q.effects.calls from congrArg Report.calls hr]
      exact hq.spent_eq hfree
    have hfinite : r.spent s.table clock.now r.calls.length ≠ ⊤ := by
      rw [hspent]
      exact ENat.natCast_ne_top _
    refine ⟨fun k hk => ne_top_of_le_ne_top hfinite (Report.spent_mono (Nat.le_of_lt hk)), ?_⟩
    exact iff_of_true (congrArg Report.halt hr) hfinite
  · obtain ⟨n, _, hs⟩ := hstops.step
    obtain ⟨c, _, hspan, hcalls⟩ := Pass.exists_of_step_error hfree hs
    have hrcalls : r.calls = p.effects.calls ++ [c] := (congrArg Report.calls hr).trans hcalls
    have hlast : r.spent s.table clock.now r.calls.length = ⊤ := by
      rw [Report.spent_of_prefix List.prefix_rfl, hrcalls]
      simp [hspan]
    refine ⟨fun k hk => ?_, iff_of_false ?_ (not_not.2 hlast)⟩
    · have hle : k ≤ p.effects.calls.length := by
        rw [hrcalls, List.length_append, List.length_singleton] at hk
        omega
      refine ne_top_of_le_ne_top ?_ (Report.spent_mono hle)
      rw [hstops.reaches.spent_eq hfree]
      exact ENat.natCast_ne_top _
    · rw [show r.halt = some cause from congrArg Report.halt hr]
      simp

end

/-- Under `s'` the run goes on as under `s` up to its call `k`, which is abandoned at `T`. -/
structure LateAt (d : Document) (s s' : Setting) (context : Context) (clock : Clock) (T k : Nat) :
    Prop where
  lt : k < (d.evaluate s context clock).calls.length
  before : ∀ j ≤ k, (d.evaluate s context clock).spent s.table clock.now j < T
  le : (T : ℕ∞) ≤ (d.evaluate s context clock).spent s.table clock.now (k + 1)
  halt : (d.evaluate s' context clock).halt = some .timedOut
  calls : (d.evaluate s' context clock).calls = (d.evaluate s context clock).calls.take (k + 1)
  now : (d.evaluate s' context clock).clock.now = T
  alike : ∃ i p, d.Reaches s ⟨context, clock, [], []⟩ i p ∧
    d.Reaches s' ⟨context, clock, [], []⟩ i p ∧
    p.effects.calls = (d.evaluate s context clock).calls.take k

/-- **A run with a deadline** that starts before it is the run without one, or is late at a call. -/
theorem evaluate_until {d : Document} {s s' : Setting} {T : Nat} (hfree : s.watch = {})
    (halike : s.Alike s') (huntil : s'.watch = .until T) (context : Context) (clock : Clock)
    (hnow : clock.now < T) :
    let r := d.evaluate s context clock
    (r.halt = none ∧ r.spent s.table clock.now r.calls.length < T ∧
        d.evaluate s' context clock = r) ∨
      ∃ k, d.LateAt s s' context clock T k := by
  intro r
  rcases exists_end_or_late hfree d ⟨context, clock, [], []⟩ hnow with
    ⟨q, hq, hlt⟩ | ⟨i, p, c, hreq, hlt, hle⟩
  · have hr : r = q.toReport none := evaluate_of_reaches hq
    refine Or.inl ⟨congrArg Report.halt hr, ?_, ?_⟩
    · rw [show r.calls = q.effects.calls from congrArg Report.calls hr, hq.spent_eq hfree]
      exact Nat.cast_lt.2 hlt
    · rw [evaluate_of_reaches (hq.before hfree halike huntil hlt), hr]
  · obtain ⟨q, hstops, hcalls, hclock⟩ := hreq.exists_stops_until hfree halike huntil hlt hle
    have hprefix := hreq.calls_prefix hfree
    have hlength : (p.effects.calls ++ [c]).length = p.effects.calls.length + 1 := by simp
    refine Or.inr ⟨p.effects.calls.length, ?_, fun j hj => ?_, ?_, ?_, ?_, ?_,
      i, p, hreq.reaches, hreq.reaches.before hfree halike huntil hlt, ?_⟩
    · have := hprefix.length_le
      omega
    · refine lt_of_le_of_lt (Report.spent_mono hj) ?_
      rw [hreq.reaches.spent_eq hfree]
      exact Nat.cast_lt.2 hlt
    · rw [← hlength, Report.spent_of_prefix hprefix, List.map_append, List.sum_append, ← add_assoc,
        ← hreq.reaches.now_eq hfree rfl]
      simpa using hle
    · rw [hstops.evaluate]
      rfl
    · rw [hstops.evaluate, ← hlength, ← List.prefix_iff_eq_take.1 hprefix]
      exact hcalls
    · rw [hstops.evaluate]
      exact hclock
    · exact List.prefix_iff_eq_take.1 hreq.reaches.calls_prefix

end Document

/-! ## Engines -/

/-- The calls of a run that are over, if the run was stopped while one was at work. -/
def Report.completed (r : Report) : List Call :=
  if r.halt.isNone then r.calls else r.calls.dropLast

namespace Engine

/-- The same engine with another timeout. -/
def withTimeout (e : Engine) (timeout : Option Nat) : Engine :=
  { e with config := { e.config with timeout } }

/-- What a run without token evaluates its document with. -/
def setting (e : Engine) (context : Context) : Setting :=
  ⟨e.table (e.seed context), e.config, e.watch false none⟩

section
variable (e : Engine) (input : Text) (context : Context) {T : Nat}

theorem alike_withTimeout (t t' : Option Nat) :
    ((e.withTimeout t).setting context).Alike ((e.withTimeout t').setting context) :=
  ⟨rfl, rfl, rfl, rfl⟩

/-- How long it takes to build the table of an engine; for ever if a provider never answers. -/
def buildSpan (e : Engine) : ℕ∞ := (Provider.totalDelay e.providers).elim ⊤ fun ms => (ms : ℕ∞)

theorem buildSpan_of_built {e : Engine} {built : Nat}
    (h : Provider.totalDelay e.providers = some built) : e.buildSpan = built := by
  rw [buildSpan, h]
  rfl

/-- A table that is built before some time is built at last. -/
theorem exists_built_of_lt {e : Engine} {T : Nat} (h : e.buildSpan < T) :
    ∃ built, Provider.totalDelay e.providers = some built ∧ built < T := by
  unfold buildSpan at h
  cases hbuilt : Provider.totalDelay e.providers with
  | none =>
    rw [hbuilt] at h
    exact absurd h not_top_lt
  | some built =>
    rw [hbuilt] at h
    exact ⟨built, rfl, Nat.cast_lt.1 h⟩

theorem run_withTimeout_of_le (h : (T : ℕ∞) ≤ e.buildSpan) :
    (e.withTimeout (some T)).run input context =
      ⟨some .timedOut, [], [], e.seed context, [], ⟨T, false⟩⟩ := by
  refine run_of_await_some (e.withTimeout (some T)) input context _ _ _ _ {}
    (Watch.await_of_halt? (Watch.halt?_until (Nat.zero_le T)) fun built hbuilt => ?_)
  rw [buildSpan_of_built (show Provider.totalDelay e.providers = some built from hbuilt)] at h
  have := Nat.cast_le.1 h
  omega

/-- When the table is built in time, the text is evaluated with it. -/
theorem run_withTimeout_of_lt {built : Nat} (hbuilt : Provider.totalDelay e.providers = some built)
    (h : built < T) : (e.withTimeout (some T)).run input context =
      evaluate ((e.withTimeout (some T)).setting context) input (e.seed context)
        ⟨built, false⟩ :=
  (e.withTimeout (some T)).run_of_built input context false none false false hbuilt rfl
    (by simpa [Watch.isExpired, watch, withTimeout] using h)

/-- Without a timeout the text is evaluated as soon as the table is built. -/
theorem run_withoutTimeout {built : Nat} (hbuilt : Provider.totalDelay e.providers = some built) :
    (e.withTimeout none).run input context =
      evaluate ((e.withTimeout none).setting context) input (e.seed context) ⟨built, false⟩ :=
  (e.withTimeout none).run_of_built input context false none false false hbuilt rfl rfl

/-- Without a timeout a run whose table is never built calls nothing and never ends. -/
theorem run_withoutTimeout_of_none (h : Provider.totalDelay e.providers = none) :
    (e.withTimeout none).run input context =
      ⟨some .stalled, [], [], e.seed context, [], ⟨0, false⟩⟩ := by
  refine run_of_await_some (e.withTimeout none) input context _ _ _ _ {} ?_
  rw [show Provider.totalDelay (e.withTimeout none).providers = none from h]
  rfl

/-- When the first `k` calls of the run without a timeout are over. -/
def spent (k : Nat) : ℕ∞ :=
  ((e.withTimeout none).run input context).spent (e.table (e.seed context)) e.buildSpan k

theorem buildSpan_le_spent (k : Nat) : e.buildSpan ≤ e.spent input context k := le_self_add

theorem spent_mono {j k : Nat} (h : j ≤ k) : e.spent input context j ≤ e.spent input context k :=
  Report.spent_mono h

/-- The time spent is that of the evaluation, from when the table is built. -/
theorem spent_eq {built : Nat} (hbuilt : Provider.totalDelay e.providers = some built) (k : Nat) :
    e.spent input context k =
      (evaluate ((e.withTimeout none).setting context) input (e.seed context)
        ⟨built, false⟩).spent (e.table (e.seed context)) built k := by
  rw [spent, e.run_withoutTimeout input context hbuilt, buildSpan_of_built hbuilt]

/-- With the timeout `T` the run goes on as without one up to its call `k`, which is abandoned at
`T`. -/
structure LateAt (T k : Nat) : Prop where
  lt : k < ((e.withTimeout none).run input context).calls.length
  before : ∀ j ≤ k, e.spent input context j < T
  le : (T : ℕ∞) ≤ e.spent input context (k + 1)
  halt : ((e.withTimeout (some T)).run input context).halt = some .timedOut
  calls : ((e.withTimeout (some T)).run input context).calls =
    ((e.withTimeout none).run input context).calls.take (k + 1)
  now : ((e.withTimeout (some T)).run input context).clock.now = T
  alike : ∃ built i p, Provider.totalDelay e.providers = some built ∧
    (Document.parse input).Reaches ((e.withTimeout none).setting context)
      ⟨e.seed context, ⟨built, false⟩, [], []⟩ i p ∧
    (Document.parse input).Reaches ((e.withTimeout (some T)).setting context)
      ⟨e.seed context, ⟨built, false⟩, [], []⟩ i p ∧
    p.effects.calls = ((e.withTimeout none).run input context).calls.take k

variable {e input context}

/-- A run is late where the evaluation of its text is. -/
theorem lateAt_of_evaluate {built k : Nat} (hbuilt : Provider.totalDelay e.providers = some built)
    (hlt : built < T) (h : (Document.parse input).LateAt ((e.withTimeout none).setting context)
      ((e.withTimeout (some T)).setting context) (e.seed context) ⟨built, false⟩ T k) :
    e.LateAt input context T k := by
  have hfree := e.run_withoutTimeout input context hbuilt
  have htimed := e.run_withTimeout_of_lt input context hbuilt hlt
  have hspent := e.spent_eq input context hbuilt
  obtain ⟨i, p, hp, hp', hcalls⟩ := h.alike
  exact {
    lt := by rw [hfree]; exact h.lt
    before := fun j hj => by rw [hspent]; exact h.before j hj
    le := by rw [hspent]; exact h.le
    halt := by rw [htimed]; exact h.halt
    calls := by rw [htimed, hfree]; exact h.calls
    now := by rw [htimed]; exact h.now
    alike := ⟨built, i, p, hbuilt, hp, hp', by rw [hfree]; exact hcalls⟩ }

variable (e input context)

/-- With a timeout the run of an engine is over before the table is built, or is the run without one,
or is late at a call. -/
theorem run_cases (T : Nat) :
    ((T : ℕ∞) ≤ e.buildSpan ∧ (e.withTimeout (some T)).run input context =
      ⟨some .timedOut, [], [], e.seed context, [], ⟨T, false⟩⟩) ∨
    (e.buildSpan < T ∧
      ((e.withTimeout none).run input context).halt = none ∧
      e.spent input context ((e.withTimeout none).run input context).calls.length < T ∧
      (e.withTimeout (some T)).run input context = (e.withTimeout none).run input context) ∨
    e.buildSpan < T ∧ ∃ k, e.LateAt input context T k := by
  by_cases h : e.buildSpan < T
  · obtain ⟨built, hbuilt, hlt⟩ := exists_built_of_lt h
    rcases Document.evaluate_until (d := Document.parse input) rfl
        (e.alike_withTimeout context none (some T)) rfl (e.seed context) ⟨built, false⟩ hlt with
      hdone | ⟨k, hlate⟩
    · rw [e.run_withTimeout_of_lt input context hbuilt hlt,
        e.run_withoutTimeout input context hbuilt, e.spent_eq input context hbuilt]
      exact Or.inr (Or.inl ⟨h, hdone⟩)
    · exact Or.inr (Or.inr ⟨h, k, lateAt_of_evaluate hbuilt hlt hlate⟩)
  · have hle : (T : ℕ∞) ≤ e.buildSpan := not_lt.1 h
    exact Or.inl ⟨hle, e.run_withTimeout_of_le input context hle⟩

/-- **The calls that are over** are those that are over before the deadline. -/
theorem exists_completed (T : Nat) :
    let free := (e.withTimeout none).run input context
    ∃ m ≤ free.calls.length,
      ((e.withTimeout (some T)).run input context).completed = free.calls.take m ∧
      (m = 0 ∨ e.spent input context m < T) ∧
      ∀ j, e.spent input context j < T → j ≤ free.calls.length → j ≤ m := by
  intro free
  rcases e.run_cases input context T with ⟨hle, hrun⟩ | ⟨_, hhalt, hspent, hrun⟩ | ⟨_, k, hlate⟩
  · refine ⟨0, Nat.zero_le _, ?_, Or.inl rfl, fun j hj _ => ?_⟩
    · rw [hrun]
      rfl
    · exact absurd hj (not_lt.2 (hle.trans (e.buildSpan_le_spent input context j)))
  · refine ⟨free.calls.length, Nat.le_refl _, ?_, Or.inr hspent, fun j _ hj => hj⟩
    rw [hrun, Report.completed, hhalt, List.take_length]
    rfl
  · refine ⟨k, Nat.le_of_lt hlate.lt, ?_, Or.inr (hlate.before k (Nat.le_refl k)),
      fun j hj _ => ?_⟩
    · rw [Report.completed, hlate.halt, hlate.calls, List.take_succ_eq_append_getElem hlate.lt]
      exact List.dropLast_concat
    · by_contra hkj
      have hle : (T : ℕ∞) ≤ e.spent input context j :=
        hlate.le.trans (e.spent_mono input context (Nat.lt_of_not_le hkj))
      exact absurd hj (not_lt.2 hle)

/-- A run with a timeout is completed just when all is over before it. -/
theorem halt_withTimeout_iff (T : Nat) :
    ((e.withTimeout (some T)).run input context).halt = none ↔
      e.spent input context ((e.withTimeout none).run input context).calls.length < T := by
  rcases e.run_cases input context T with ⟨hle, hrun⟩ | ⟨_, hhalt, hspent, hrun⟩ | ⟨_, k, hlate⟩
  · refine iff_of_false ?_ (not_lt.2 (hle.trans (e.buildSpan_le_spent input context _)))
    rw [hrun]
    simp
  · exact iff_of_true (hrun ▸ hhalt) hspent
  · have hT := hlate.le.trans (e.spent_mono input context (Nat.succ_le_of_lt hlate.lt))
    refine iff_of_false ?_ (not_lt.2 hT)
    rw [hlate.halt]
    simp

/-- A run that is completed with a timeout is the run without one. -/
theorem run_withTimeout_of_completed {T : Nat}
    (h : ((e.withTimeout (some T)).run input context).halt = none) :
    (e.withTimeout (some T)).run input context = (e.withTimeout none).run input context := by
  rcases e.run_cases input context T with ⟨_, hrun⟩ | ⟨_, _, _, hrun⟩ | ⟨_, k, hlate⟩
  · rw [hrun] at h
    cases h
  · exact hrun
  · rw [hlate.halt] at h
    cases h

/-- Without a timeout a run is completed unless its table is never built or its last handler never
ends. -/
theorem spent_withoutTimeout :
    let free := (e.withTimeout none).run input context
    (∀ k < free.calls.length, e.spent input context k ≠ ⊤) ∧
      (free.halt = none ↔ e.spent input context free.calls.length ≠ ⊤) := by
  intro free
  cases hbuilt : Provider.totalDelay e.providers with
  | none =>
    have hrun : free = _ := e.run_withoutTimeout_of_none input context hbuilt
    have hforever : e.spent input context 0 = ⊤ := by
      rw [spent, Report.spent, buildSpan, hbuilt]
      exact top_add _
    rw [hrun]
    exact ⟨nofun, iff_of_false nofun (not_not.2 hforever)⟩
  | some built =>
    have hrun : free = _ := e.run_withoutTimeout input context hbuilt
    simp only [e.spent_eq input context hbuilt]
    rw [hrun]
    exact Document.spent_evaluate rfl (Document.parse input) (e.seed context) ⟨built, false⟩

end

/-- **The time budget of a run.**  Without a timeout, a run is completed just when its table is built
and all its calls take a finite time, and only its last call may take for ever.  With the timeout `T`
it is completed just when the building of the table and all calls of the run without a timeout are
over before `T`; then both have the same report.  If the table is not built before `T`, be it that a
provider never answers, nothing is called and the context is only seeded.  Otherwise the first call
that is not over before `T` is abandoned at `T` and is the last one called, and up to there both runs
are the same.  So a longer timeout leaves a completed run as it is, and adds to the calls that are
over. -/
theorem run_withTimeout (e : Engine) (input : Text) (context : Context) (T : Nat) :
    let d := Document.parse input
    let built := e.buildSpan
    let free := (e.withTimeout none).run input context
    let timed := (e.withTimeout (some T)).run input context
    let spent := e.spent input context
    let n := free.calls.length
    ((∀ k < n, spent k ≠ ⊤) ∧ (free.halt = none ↔ spent n ≠ ⊤)) ∧
    (timed.halt = none ↔ spent n < T) ∧
    (timed.halt = none → timed = free) ∧
    (T ≤ built → timed = ⟨some .timedOut, [], [], e.seed context, [], ⟨T, false⟩⟩) ∧
    (built < T → T ≤ spent n →
      ∃ k < n, (∀ j ≤ k, spent j < T) ∧ T ≤ spent (k + 1) ∧
        timed.halt = some .timedOut ∧ timed.clock.now = T ∧
        timed.calls = free.calls.take (k + 1) ∧
        ∃ ms i p, Provider.totalDelay e.providers = some ms ∧
          let start : Effects := ⟨e.seed context, ⟨ms, false⟩, [], []⟩
          d.Reaches ((e.withTimeout none).setting context) start i p ∧
            d.Reaches ((e.withTimeout (some T)).setting context) start i p ∧
            p.effects.calls = free.calls.take k) ∧
    ∀ T', T ≤ T' →
      (timed.halt = none → (e.withTimeout (some T')).run input context = timed) ∧
      timed.completed <+: ((e.withTimeout (some T')).run input context).completed := by
  intro d built free timed spent n
  refine ⟨e.spent_withoutTimeout input context, e.halt_withTimeout_iff input context T,
    e.run_withTimeout_of_completed input context, e.run_withTimeout_of_le input context,
    fun hbuilt hT => ?_, fun T' hTT' => ⟨fun hhalt => ?_, ?_⟩⟩
  · rcases e.run_cases input context T with ⟨hle, _⟩ | ⟨_, _, hspent, _⟩ | ⟨_, k, hlate⟩
    · exact absurd hbuilt (not_lt.2 hle)
    · exact absurd hspent (not_lt.2 hT)
    · exact ⟨k, hlate.lt, hlate.before, hlate.le, hlate.halt, hlate.now, hlate.calls, hlate.alike⟩
  · have hspent := (e.halt_withTimeout_iff input context T).1 hhalt
    have hhalt' := (e.halt_withTimeout_iff input context T').2
      (hspent.trans_le (Nat.cast_le.2 hTT'))
    rw [e.run_withTimeout_of_completed input context hhalt']
    exact (e.run_withTimeout_of_completed input context hhalt).symm
  · obtain ⟨m, hm, hcompleted, hbefore, _⟩ := e.exists_completed input context T
    obtain ⟨m', _, hcompleted', _, hall⟩ := e.exists_completed input context T'
    have hmm' : m ≤ m' := by
      rcases hbefore with rfl | hlt
      · exact Nat.zero_le m'
      · exact hall m (hlt.trans_le (Nat.cast_le.2 hTT')) hm
    rw [show timed.completed = _ from hcompleted, hcompleted']
    exact List.take_prefix_take_left hmm'

/-- A table that takes two milliseconds and two calls of three milliseconds each; and the same with a
provider that never answers. -/
theorem run_withTimeout_at_deadline :
    let a : Descriptor := ⟨"a".toList, .code, {}, fun _ _ c =>
      .pause 3 c false (.finish (.ok ['A']) c false)⟩
    let e : Engine := {
      render := fun content _ => .ok content
      furtherProviders := [⟨"p".toList, some 2, fun _ => .ok [a]⟩] }
    let silent : Provider := ⟨"q".toList, none, fun _ => .ok []⟩
    let e' : Engine := { e with furtherProviders := e.furtherProviders ++ [silent] }
    let input := "[a/]-[a/]".toList
    (¬ e.spent input .empty 2 < 8 ∧
      ((e.withTimeout (some 8)).run input .empty).halt = some .timedOut ∧
      ((e.withTimeout (some 8)).run input .empty).output = "A-".toList) ∧
    (e.spent input .empty 2 < 9 ∧
      (e.withTimeout (some 9)).run input .empty = (e.withTimeout none).run input .empty) ∧
    e'.buildSpan = ⊤ ∧ (e'.withTimeout (some 9)).run input .empty =
      ⟨some .timedOut, [], [], .empty, [], ⟨9, false⟩⟩ := by
  intro a e silent e' input
  have hn : ((e.withTimeout none).run input .empty).calls.length = 2 := by decide +kernel
  have hlate : ((e.withTimeout (some 8)).run input .empty).halt = some .timedOut := by
    decide +kernel
  have hdone : ((e.withTimeout (some 9)).run input .empty).halt = none := by decide +kernel
  have hsilent : e'.buildSpan = ⊤ := rfl
  obtain ⟨_, hiff, _⟩ := e.run_withTimeout input .empty 8
  obtain ⟨_, hiff', hsame, _⟩ := e.run_withTimeout input .empty 9
  obtain ⟨_, _, _, hnever, _⟩ := e'.run_withTimeout input .empty 9
  rw [hn] at hiff hiff'
  refine ⟨⟨fun hlt => ?_, hlate, by decide +kernel⟩, ⟨hiff'.1 hdone, hsame hdone⟩, hsilent,
    hnever (by rw [hsilent]; exact le_top)⟩
  have hnone := hiff.2 hlt
  rw [hlate] at hnone
  cases hnone

end Engine

end Tagtext
