import Tagtext.Proofs.Reach

/-!
# Failed handlers

A handler that fails concerns its own tag only: the run goes on as if the handler
had returned the text that the configuration puts in its place, with the context
that it has left.  `Setting.recovering` wraps every handler of a table so that it
does return that text.  The run with the wrapped handlers differs from the other
in nothing but the reports of failures, which it does not make:

    diagnostics with wrapped handlers = diagnostics less the failures
    output, context, calls and halt   = output, context, calls and halt    (evaluate_recovering)

The reports are all that tells the two passes apart, at every node: taking the
failures out of what is reported commutes with a call (`invoke_recovering`), so
with each step (`step_recovering`), and so with a walk (`walk_recovering`).
-/

namespace Tagtext

/-! ## Handlers that never fail -/

/-- The same work, which puts out what stands for a failure where it would fail. -/
def Work.recovering (config : Config) : Work → Work
  | finish result context cancels => finish (.ok (config.written result)) context cancels
  | pause ms context cancels next => pause ms context cancels (next.recovering config)
  | hang context cancels => hang context cancels

/-- The same handler, which never fails. -/
def Handler.recovering (config : Config) (h : Handler) : Handler :=
  fun args content context => (h args content context).recovering config

/-- The same descriptor with a handler that never fails. -/
def Descriptor.recovering (config : Config) (d : Descriptor) : Descriptor :=
  { d with handler := Handler.recovering config d.handler }

/-- The same table with handlers that never fail. -/
def Table.recovering (config : Config) (t : Table) : Table :=
  ⟨t.entries.map fun (name, d) => (name, d.recovering config)⟩

/-- The same with handlers that never fail. -/
def Setting.recovering (s : Setting) : Setting := { s with table := s.table.recovering s.config }

/-! ## Reports of failures -/

/-- Whether a diagnostic reports a failed handler. -/
def Diagnostic.isFailure : Diagnostic → Bool
  | handlerFailed _ _ _ => true
  | _ => false

/-- The same without the reports of failed handlers. -/
def Effects.withoutFailures (e : Effects) : Effects :=
  { e with diagnostics := e.diagnostics.filter (!·.isFailure) }

/-- The same without the reports of failed handlers. -/
def Pass.withoutFailures (p : Pass) : Pass := { p with effects := p.effects.withoutFailures }

/-- The same performance, with what stands for a failure as its result. -/
def Performance.recovering (config : Config) : Performance → Performance
  | finished result context clock => finished (.ok (config.written result)) context clock
  | abandoned cause context clock => abandoned cause context clock

/-- The same outcome of another pass. -/
def Pass.mapOutcome (f : Pass → Pass) : Except (Halt × Pass) Pass → Except (Halt × Pass) Pass
  | .ok p => .ok (f p)
  | .error (cause, p) => .error (cause, f p)

/-! ## Lemmas -/

/-- What recovering work ends with: the result as it is put out, in the same context. -/
theorem Work.result_recovering (config : Config) (work : Work) :
    (work.recovering config).result =
      work.result.map fun (result, context) => (.ok (config.written result), context) := by
  induction work with
  | finish result context cancels => rfl
  | pause ms context cancels next ih => exact ih
  | hang context cancels => rfl

theorem Work.proceed_recovering (config : Config) (w : Watch) (work : Work) :
    ∀ k, (work.recovering config).proceed w k = (work.proceed w k).recovering config := by
  induction work with
  | finish result context cancels =>
    intro k
    rfl
  | pause ms context cancels next ih =>
    intro k
    simp only [recovering, proceed]
    cases w.haltWait? (k.note cancels) ((k.note cancels).now + ms) with
    | some halt => rfl
    | none => exact ih _
  | hang context cancels =>
    intro k
    simp only [recovering, proceed]
    cases w.halt? (k.note cancels) with
    | some halt => rfl
    | none => rfl

theorem Table.get?_recovering (config : Config) (t : Table) (n : Text) :
    (t.recovering config).get? n = (t.get? n).map (Descriptor.recovering config) := by
  unfold get? Dictionary.get? recovering
  rw [List.find?_map, Option.map_map, Option.map_map]
  rfl

namespace Effects

theorem withoutFailures_report {d : Diagnostic} (hd : d.isFailure = false) (e : Effects) :
    (e.report d).withoutFailures = e.withoutFailures.report d := by
  simp [report, withoutFailures, hd]

/-- **A call with the wrapped handler** comes to the same, less the report of a failure. -/
theorem invoke_recovering (s : Setting) (tag : Tag) (content fallback : Text) (e : Effects) :
    e.withoutFailures.invoke s.recovering tag content fallback =
      ((e.invoke s tag content fallback).1, (e.invoke s tag content fallback).2.withoutFailures) := by
  have hget : s.recovering.table.get? tag.name =
      (s.table.get? tag.name).map (Descriptor.recovering s.config) :=
    s.table.get?_recovering s.config tag.name
  have hwork : ∀ d : Descriptor,
      ((d.recovering s.config).handler tag.arguments content e.context).proceed s.watch e.clock =
        ((d.handler tag.arguments content e.context).proceed s.watch e.clock).recovering s.config :=
    fun d => Work.proceed_recovering s.config s.watch _ e.clock
  have hcomes := comes_invoke s tag content fallback e
  generalize e.invoke s tag content fallback = r at hcomes ⊢
  apply Comes.invoke_eq
  cases hcomes with
  | unknown h =>
    rw [h] at hget
    rw [withoutFailures_report rfl]
    exact .unknown hget
  | refused d cause t h hw =>
    rw [h] at hget
    exact .refused _ cause t hget hw
  | abandoned d cause context clock h hw hp =>
    rw [h] at hget
    have hd := hwork d
    rw [hp] at hd
    exact .abandoned _ cause context clock hget hw hd
  | answered d out context clock h hw hp =>
    rw [h] at hget
    have hd := hwork d
    rw [hp] at hd
    exact .answered _ out context clock hget hw hd
  | failed d err context clock h hw hp =>
    rw [h] at hget
    have hd := hwork d
    rw [hp] at hd
    -- the wrapped handler returns what is put out for the failure
    have hanswered : Comes s.recovering tag content fallback e.withoutFailures
        (.ok s.config.failure.replacement, ⟨context, clock, e.withoutFailures.diagnostics,
          e.calls ++ [callOf tag content e]⟩) :=
      .answered _ s.config.failure.replacement context clock hget hw hd
    have hfilter : (e.diagnostics ++ [Diagnostic.handlerFailed tag.name tag.start err]).filter
        (!·.isFailure) = e.withoutFailures.diagnostics := by
      simp [withoutFailures, Diagnostic.isFailure]
    rw [← hfilter] at hanswered
    exact hanswered

end Effects

namespace Pass

theorem withoutFailures_report {d : Diagnostic} (hd : d.isFailure = false) (p : Pass) :
    (p.report d).withoutFailures = p.withoutFailures.report d :=
  congrArg (fun e => { p with effects := e }) (p.effects.withoutFailures_report hd)

theorem standalone_recovering (s : Setting) (tag : Tag) (p : Pass) :
    p.withoutFailures.standalone s.recovering tag =
      mapOutcome withoutFailures (p.standalone s tag) := by
  have hinvoke := Effects.invoke_recovering s tag [] tag.raw p.effects
  unfold standalone
  rw [show p.withoutFailures.effects = p.effects.withoutFailures from rfl, hinvoke]
  generalize p.effects.invoke s tag [] tag.raw = r
  obtain ⟨out | out, e⟩ := r
  · rfl
  · rfl

theorem close_recovering (s : Setting) (f : Frame) (closer : Tag) (p : Pass) :
    p.withoutFailures.close s.recovering f closer =
      mapOutcome withoutFailures (p.close s f closer) := by
  have hinvoke := Effects.invoke_recovering s f.opener f.buffer
    (f.opener.raw ++ f.buffer ++ closer.raw) p.effects
  unfold close
  rw [show p.withoutFailures.effects = p.effects.withoutFailures from rfl, hinvoke]
  generalize p.effects.invoke s f.opener f.buffer (f.opener.raw ++ f.buffer ++ closer.raw) = r
  obtain ⟨out | out, e⟩ := r
  · rfl
  · rfl

/-- **Each step with the wrapped handlers** ends as the other step, less the reports of failures. -/
theorem step_recovering (s : Setting) (i : Nat) (n : Node) (p : Pass) :
    p.withoutFailures.step s.recovering i n = mapOutcome withoutFailures (p.step s i n) := by
  -- the other pass has the same frames and keeps the same nodes
  let p' := p.withoutFailures
  have ht := takes_step s i n p
  generalize p.step s i n = o at ht ⊢
  cases ht with
  | kept n hlt => exact step_kept (p := p') hlt n
  | text t hle => exact step_text (p := p') hle t
  | malformed raw e hle =>
    refine (step_malformed (p := p') hle raw e).trans ?_
    rw [← withoutFailures_report rfl]
    rfl
  | alone tag partner hle hk =>
    refine (step_alone (p := p') hle hk partner).trans ?_
    exact standalone_recovering s tag p
  | deep tag close hle hk hd =>
    refine (step_deep (s := s.recovering) (p := p') hle hk hd close).trans ?_
    rw [← withoutFailures_report rfl]
    rfl
  | opened tag close hle hk hd =>
    exact step_opened (s := s.recovering) (p := p') hle hk hd close
  | unclosed tag hle hk hu =>
    refine (step_unclosed (s := s.recovering) (p := p') hle hk hu).trans ?_
    rw [← withoutFailures_report rfl]
    exact standalone_recovering s tag _
  | stays tag hle hk hu =>
    refine (step_stays (s := s.recovering) (p := p') hle hk hu).trans ?_
    rw [← withoutFailures_report rfl]
    rfl
  | closed tag f fs hle hk hf =>
    refine (step_closed (p := p') hle hk hf).trans ?_
    exact close_recovering s f tag p
  | orphan tag partner hle hk hf => exact step_orphan (p := p') hle hk partner hf

/-- **A walk with the wrapped handlers** ends as the other walk, less the reports of failures. -/
theorem walk_recovering (s : Setting) (nodes : List Node) : ∀ (i : Nat) (p : Pass),
    walk s.recovering i nodes p.withoutFailures = mapOutcome withoutFailures (walk s i nodes p) := by
  induction nodes with
  | nil =>
    intro i p
    rfl
  | cons n rest ih =>
    intro i p
    have hstep := step_recovering s i n p
    cases hs : p.step s i n with
    | ok q =>
      rw [hs] at hstep
      rw [walk_cons_of_ok hs, walk_cons_of_ok hstep, ih]
    | error stopped =>
      rw [hs] at hstep
      rw [walk_cons_of_error hs, walk_cons_of_error hstep]
      rfl

end Pass

/-- **A failed handler concerns its own tag only.**  Let every handler that would fail return the
text that the configuration puts in place of its tag, and leave the same context.  Then the run puts
out the same, leaves the same context, makes the same calls and ends in the same way, and it reports
the same in the same order, but for the failures. -/
theorem evaluate_recovering (s : Setting) (input : Text) (context : Context) (clock : Clock) :
    let r := evaluate s input context clock
    let r' := evaluate s.recovering input context clock
    (∀ n, s.recovering.table.get? n = (s.table.get? n).map (Descriptor.recovering s.config)) ∧
      (∀ work : Work, (work.recovering s.config).result =
        work.result.map fun (result, after) => (.ok (s.config.written result), after)) ∧
      r'.output = r.output ∧ r'.context = r.context ∧
      r'.diagnostics = r.diagnostics.filter (!·.isFailure) ∧
      r'.halt = r.halt ∧ r'.calls = r.calls := by
  intro r r'
  refine ⟨s.table.get?_recovering s.config, Work.result_recovering s.config, ?_⟩
  have hwalk := Pass.walk_recovering s (Document.parse input).nodes 0
    ⟨.empty, ⟨context, clock, [], []⟩, 0⟩
  cases hw : Pass.walk s 0 (Document.parse input).nodes ⟨.empty, ⟨context, clock, [], []⟩, 0⟩ with
  | ok q =>
    rw [hw] at hwalk
    have hr : r = q.toReport none := Document.evaluate_of_walk hw
    have hr' : r' = q.withoutFailures.toReport none := Document.evaluate_of_walk hwalk
    rw [hr, hr']
    exact ⟨rfl, rfl, rfl, rfl, rfl⟩
  | error stopped =>
    obtain ⟨cause, q⟩ := stopped
    rw [hw] at hwalk
    have hr : r = q.toReport (some cause) := Document.evaluate_of_walk_error hw
    have hr' : r' = q.withoutFailures.toReport (some cause) :=
      Document.evaluate_of_walk_error hwalk
    rw [hr, hr']
    exact ⟨rfl, rfl, rfl, rfl, rfl⟩

end Tagtext
