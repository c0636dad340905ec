import Tagtext.Pacing
import Tagtext.Proofs.Reach

/-!
# Runs at any pace

How much time passes between its steps does not change what a run does, only how
far it comes.  Up to where it is stopped it goes on like the run over the same
document that takes no time of its own and that nothing stops: the same output,
context, reports and calls, at another time.

    a step that is not stopped is the same step of that run     (exists_step_unwatched)
    a run is that run, up to the node where it is stopped       (evaluatePaced_cases)
-/

namespace Tagtext

/-! ## Steps -/

/-- A call that comes to an end comes to the same at any other time when nothing is watched. -/
theorem Effects.exists_invoke_withClock {s : Setting} {tag : Tag} {content fallback out : Text}
    {e e' : Effects} (h : e.invoke s tag content fallback = (.ok out, e')) (c : Clock) :
    ∃ c', (e.withClock c).invoke s.unwatched tag content fallback = (.ok out, e'.withClock c') := by
  have hcontext : (e.withClock c).context = e.context := rfl
  obtain ⟨c', reported, made, hdiagnostics, hcalls, hinvoke⟩ := exists_invoke_unwatched h hcontext
  have hsame : e'.withClock c' = ⟨e'.context, c', e.diagnostics ++ reported, e.calls ++ made⟩ := by
    rw [← hdiagnostics, ← hcalls]
    rfl
  exact ⟨c', by rw [hinvoke, hsame]; rfl⟩

namespace Pass

variable {s : Setting} {k : Nat} {n : Node} {p q : Pass}

theorem exists_standalone_unwatched {tag : Tag} (h : p.standalone s tag = .ok q) (c : Clock) :
    ∃ c', (p.withClock c).standalone s.unwatched tag = .ok (q.withClock c') := by
  obtain ⟨out, e, hi, rfl⟩ := exists_of_standalone_ok h
  obtain ⟨c', hi'⟩ := Effects.exists_invoke_withClock hi c
  refine ⟨c', ?_⟩
  simp only [standalone, withClock, hi']
  rfl

theorem exists_close_unwatched {f : Frame} {closer : Tag} (h : p.close s f closer = .ok q)
    (c : Clock) : ∃ c', (p.withClock c).close s.unwatched f closer = .ok (q.withClock c') := by
  obtain ⟨out, e, hi, rfl⟩ := exists_of_close_ok h
  obtain ⟨c', hi'⟩ := Effects.exists_invoke_withClock hi c
  refine ⟨c', ?_⟩
  simp only [close, withClock, hi']
  rfl

/-- **A step that is not stopped** is the same at any other time when nothing is watched. -/
theorem exists_step_unwatched (hs : p.step s k n = .ok q) (c : Clock) :
    ∃ c', (p.withClock c).step s.unwatched k n = .ok (q.withClock c') := by
  have ht := takes_step s k n p
  generalize p.step s k n = r at ht hs
  cases ht with
  | alone tag partner hle hk =>
    rw [step_alone (p := p.withClock c) hle hk]
    exact exists_standalone_unwatched hs c
  | unclosed tag hle hk hu =>
    rw [step_unclosed (p := p.withClock c) (s := s.unwatched) hle hk hu]
    exact exists_standalone_unwatched hs c
  | closed tag f fs hle hk hf =>
    rw [step_closed (p := p.withClock c) hle hk hf]
    exact exists_close_unwatched hs c
  | kept n hlt =>
    cases hs
    exact ⟨c, step_kept (p := p.withClock c) hlt n⟩
  | text t hle =>
    cases hs
    exact ⟨c, step_text (p := p.withClock c) hle t⟩
  | malformed raw e hle =>
    cases hs
    exact ⟨c, step_malformed (p := p.withClock c) hle raw e⟩
  | deep tag close hle hk hd =>
    cases hs
    exact ⟨c, step_deep (p := p.withClock c) (s := s.unwatched) hle hk hd close⟩
  | opened tag close hle hk hd =>
    cases hs
    exact ⟨c, step_opened (p := p.withClock c) (s := s.unwatched) hle hk hd close⟩
  | stays tag hle hk hu =>
    cases hs
    exact ⟨c, step_stays (p := p.withClock c) (s := s.unwatched) hle hk hu⟩
  | orphan tag partner hle hk hf =>
    cases hs
    exact ⟨c, step_orphan (p := p.withClock c) hle hk partner hf⟩

/-- What a step needs of the run that nothing stops, it needs at any time and under any watch. -/
theorem Needs.of_unwatched {c : Clock} {call : Call}
    (h : (p.withClock c).Needs s.unwatched k n call) : p.Needs s k n call := by
  obtain ⟨tag, hcalls, hknown, rfl⟩ := h
  refine ⟨tag, ?_, hknown, rfl⟩
  cases hcalls with
  | alone _ partner hle hk => exact .alone _ partner hle hk
  | unclosed _ hle hk hu => exact .unclosed _ hle hk hu
  | closed tag f fs hle hk hf => exact .closed tag f fs hle hk hf

theorem walkPaced_cons_of_ok {pace : Pace} (hs : (p.wait (pace.node k)).step s k n = .ok q)
    (rest : List Node) :
    walkPaced pace s k (n :: rest) p = walkPaced pace s (k + 1) rest q := by
  simp [walkPaced, hs]

theorem walkPaced_cons_of_error {pace : Pace} {stopped : Halt × Pass}
    (hs : (p.wait (pace.node k)).step s k n = .error stopped) (rest : List Node) :
    walkPaced pace s k (n :: rest) p = .error stopped := by
  simp [walkPaced, hs]

end Pass

/-! ## Runs -/

namespace Document

variable {d : Document} {s : Setting} {start : Effects}

/-- A run at some pace is stopped at node `k`: there the run that nothing stops has come as `p`, but
for the time, and a step from `p` on leaves `q`. -/
structure Halts (d : Document) (s : Setting) (start : Effects) (k : Nat) (p : Pass) (cause : Halt)
    (q : Pass) : Prop where
  reaches : ∃ c, d.Reaches s.unwatched start k (p.withClock c)
  step : ∃ n, d.nodes[k]? = some n ∧ p.step s k n = .error (cause, q)

/-- From where both have come, a run at some pace goes on like the one that nothing stops. -/
theorem walkPaced_cases (pace : Pace) {rest : List Node} : ∀ {k : Nat} {p : Pass} {c : Clock},
    d.nodes.drop k = rest → d.Reaches s.unwatched start k (p.withClock c) →
    (∃ (q : Pass) (c' : Clock), d.Reaches s.unwatched start d.nodes.length (q.withClock c') ∧
      Pass.walkPaced pace s k rest p = .ok q) ∨
    ∃ j p' cause q, d.Halts s start j p' cause q ∧
      Pass.walkPaced pace s k rest p = .error (cause, q) := by
  induction rest with
  | nil =>
    intro k p c hr hp
    have hle : d.nodes.length ≤ k := List.drop_eq_nil_iff.1 hr
    obtain rfl : k = d.nodes.length := Nat.le_antisymm hp.le hle
    exact Or.inl ⟨p, c, hp, rfl⟩
  | cons n rest ih =>
    intro k p c hr hp
    obtain ⟨_, hn, hrest⟩ := Pass.of_drop_eq_cons hr
    have hwait : d.Reaches s.unwatched start k ((p.wait (pace.node k)).withClock c) := hp
    cases hs : (p.wait (pace.node k)).step s k n with
    | ok q =>
      rw [Pass.walkPaced_cons_of_ok hs]
      obtain ⟨c', hs'⟩ := Pass.exists_step_unwatched hs c
      exact ih hrest (hwait.succ hn hs')
    | error stopped =>
      rw [Pass.walkPaced_cons_of_error hs]
      exact Or.inr ⟨k, _, stopped.1, stopped.2, ⟨⟨c, hwait⟩, n, hn, hs⟩, rfl⟩

/-- **At any pace a run goes on like the one that nothing stops**, to the end or to the node where it
is stopped; the latter may start at another time. -/
theorem evaluatePaced_cases (d : Document) (s : Setting) (pace : Pace) (context : Context)
    (clock c : Clock) :
    (∃ (q : Pass) (c' : Clock),
      d.Reaches s.unwatched ⟨context, c, [], []⟩ d.nodes.length (q.withClock c') ∧
      d.evaluatePaced pace s context clock = q.toReport none) ∨
    ∃ k p cause q, d.Halts s ⟨context, c, [], []⟩ k p cause q ∧
      d.evaluatePaced pace s context clock = q.toReport (some cause) := by
  have hstart := d.reaches_zero s.unwatched ⟨context, c, [], []⟩
  rcases walkPaced_cases pace (p := ⟨.empty, ⟨context, clock, [], []⟩, 0⟩) (c := c) rfl hstart with
    ⟨q, c', hq, hwalk⟩ | ⟨k, p, cause, q, hhalts, hwalk⟩
  · refine Or.inl ⟨q, c', hq, ?_⟩
    rw [List.drop_zero] at hwalk
    simp only [evaluatePaced, hwalk]
  · refine Or.inr ⟨k, p, cause, q, hhalts, ?_⟩
    rw [List.drop_zero] at hwalk
    simp only [evaluatePaced, hwalk]

end Document

end Tagtext
