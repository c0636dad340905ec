import Tagtext.Proofs.Account
import Tagtext.Proofs.Pacing

/-!
# Contexts handed on from call to call

Between two calls nothing touches the context: each call is given what the call
before it left, and the run leaves what its last call left (`Table.Leads`).  That
is so of every run whose handlers are done in one step, at any pace and wherever
it is cut short, since such a handler is either not started or ends
(`leads_evaluatePaced`).

The calls of such a run are those of its nodes up to where it ends, in their
order, and what each handler returns is put out at its node
(`exists_performs`).  A pair is called where it ends, so what stands inside is
called first (`Performs.inner_first`).  In no time of its own such a run is
completed (`halt_evaluatePaced`), and with a pause in front of any of its calls it
can be stopped there (`Requires.evaluatePaced_pauseAt`).
-/

namespace Tagtext

/-- What the handler that a call begins returns, and the context it leaves, if it ends. -/
def Table.answer? (t : Table) (c : Call) : Option (Except HandlerError Text × Context) :=
  (t.work? c).bind (·.result)

/-- A handler that is done in one step. -/
def Handler.IsPrompt (h : Handler) : Prop := ∃ f, h = .immediate f

/-- Every handler of a table is done in one step. -/
def Table.IsPrompt (t : Table) : Prop := ∀ n d, t.get? n = some d → Handler.IsPrompt d.handler

/-- These calls, one after the other, lead from a context to another one. -/
inductive Table.Leads (t : Table) : Context → List Call → Context → Prop
  | refl (context : Context) : Leads t context [] context
  | call {c : Call} {result : Except HandlerError Text} {next last : Context} {cs : List Call}
      (h : t.answer? c = some (result, next)) (hrest : Leads t next cs last) :
      Leads t c.context (c :: cs) last

/-- A run with this report makes the calls of the nodes in front of node `m`, in their order, puts out
at each what the handler returns there, and leaves what there is in front of node `m`; if it is
completed these are all nodes. -/
structure Document.Performs (d : Document) (s : Setting) (start : Effects) (r : Report) (m : Nat)
    (call : Nat → Option Call) : Prop where
  le : m ≤ d.nodes.length
  all : r.halt = none → m = d.nodes.length
  calls : r.calls = (List.range m).filterMap call
  sites : ∀ k < m, (call k).map Call.site = d.siteAt? s k
  writes : ∀ k < m, ∀ c, call k = some c → ∃ n p q result, d.nodes[k]? = some n ∧
    d.Reaches s start k p ∧ d.Reaches s start (k + 1) q ∧
    s.table.answer? c = some (result, q.effects.context) ∧
    q.stack = (p.stackAround n).emit (s.config.written result)
  ends : ∃ p, d.Reaches s start m p ∧ r.output = p.stack.unwind ∧
    r.context = p.effects.context ∧ r.calls = p.effects.calls

/-- The pace that takes no time but one millisecond in front of node `k`. -/
def Pace.pauseAt (k : Nat) : Pace where
  node j := if j = k then 1 else 0

theorem Pace.node_pauseAt (k j : Nat) : (pauseAt k).node j = if j = k then 1 else 0 := rfl

/-! ## Chains of contexts -/

namespace Table.Leads

variable {t : Table} {a b : List Call} {c : Call} {first middle last : Context}

theorem trans (h : t.Leads first a middle) (h' : t.Leads middle b last) :
    t.Leads first (a ++ b) last := by
  induction h with
  | refl context => exact h'
  | call hc _ ih => exact .call hc (ih h')

theorem single {result : Except HandlerError Text}
    (h : t.answer? c = some (result, last)) : t.Leads c.context [c] last :=
  .call h (.refl last)

theorem exists_of_append (h : t.Leads first (a ++ b) last) :
    ∃ middle, t.Leads first a middle ∧ t.Leads middle b last := by
  induction a generalizing first with
  | nil => exact ⟨first, .refl first, h⟩
  | cons c a ih =>
    cases h with
    | call hc hrest =>
      obtain ⟨middle, ha, hb⟩ := ih hrest
      exact ⟨middle, .call hc ha, hb⟩

/-- The context that calls begin with is what the first of them is given, or what they end with. -/
theorem first_eq (h : t.Leads first a last) :
    first = (a.head?.map (·.context)).getD last := by
  cases h with
  | refl context => rfl
  | call hc hrest => rfl

end Table.Leads

/-! ## Runs -/

theorem Handler.IsPrompt.exists_finish {h : Handler} (hprompt : h.IsPrompt) (args : Arguments)
    (content : Text) (context : Context) :
    ∃ result after, h args content context = .finish result after false := by
  obtain ⟨f, rfl⟩ := hprompt
  exact ⟨_, _, rfl⟩

theorem Table.IsPrompt.exists_finish {t : Table} (ht : t.IsPrompt) {c : Call} {work : Work}
    (h : t.work? c = some work) : ∃ result after, work = .finish result after false := by
  obtain ⟨d, hd, rfl⟩ := Option.map_eq_some_iff.1 h
  exact (ht _ d hd).exists_finish _ _ _

namespace Document

section
variable {d : Document} {s : Setting} {start : Effects} {k : Nat} {p q : Pass}
  {cause : Halt}

/-- A run that comes to a node has handed the context on from call to call. -/
theorem Reaches.leads (h : d.Reaches s start k p) :
    ∃ cs, p.effects.calls = start.calls ++ cs ∧
      s.table.Leads start.context cs p.effects.context := by
  refine (d.reaches_zero s start).induct (I := fun _ p => ∃ cs,
    p.effects.calls = start.calls ++ cs ∧ s.table.Leads start.context cs p.effects.context)
    ⟨[], (List.append_nil _).symm, .refl _⟩ (fun j n p q _ _ _ hI hs => ?_) (Nat.zero_le k) h
  obtain ⟨cs, hcalls, hleads⟩ := hI
  have hdoes := Pass.does_step s j n p
  rw [hs] at hdoes
  cases hdoes with
  | quiet hn hcontext hclock hquiet =>
    rw [hcontext, hquiet]
    exact ⟨cs, hcalls, hleads⟩
  | finished c work result hc hwork hw hp hmore hstack =>
    have hgiven : c.context = p.effects.context := by
      obtain ⟨tag, _, _, rfl⟩ := hc
      rfl
    have hanswer : s.table.answer? c = some (result, q.effects.context) := by
      rw [Table.answer?, hwork, Option.bind_some, Work.result_of_proceed hp]
    rw [← hgiven] at hleads
    refine ⟨cs ++ [c], ?_, hleads.trans (.single hanswer)⟩
    rw [hmore, hcalls, List.append_assoc]

/-- Where handlers are done in one step, a run that is stopped is stopped in front of a call. -/
theorem Halts.eq (ht : s.table.IsPrompt) (h : d.Halts s start k p cause q) :
    q.stack = p.stack ∧ q.effects.context = p.effects.context ∧
      q.effects.calls = p.effects.calls := by
  obtain ⟨n, _, hs⟩ := h.step
  refine ⟨Pass.stack_of_step_error hs, ?_⟩
  have hdoes := Pass.does_step s k n p
  rw [hs] at hdoes
  cases hdoes with
  | refused c cause t hc hw hcontext hclock hcalls => exact ⟨hcontext, hcalls⟩
  | abandoned c work cause hc hwork hw hp hcalls =>
    obtain ⟨result, after, rfl⟩ := ht.exists_finish hwork
    cases hp

variable {context : Context} {clock c : Clock} {pace : Pace}

/-- **A run hands the context on** from call to call, and leaves what its last call left. -/
theorem leads_evaluatePaced (ht : s.table.IsPrompt) :
    s.table.Leads context (d.evaluatePaced pace s context clock).calls
      (d.evaluatePaced pace s context clock).context := by
  rcases d.evaluatePaced_cases s pace context clock clock with
    ⟨q, _, hq, hr⟩ | ⟨k, p, cause, q, hhalts, hr⟩
  · obtain ⟨cs, hcalls, hleads⟩ := hq.leads
    rw [hr, show (q.toReport none).calls = cs from hcalls]
    exact hleads
  · obtain ⟨_, hp⟩ := hhalts.reaches
    obtain ⟨cs, hcalls, hleads⟩ := hp.leads
    obtain ⟨_, hcontext, hsame⟩ := hhalts.eq ht
    rw [hr, show (q.toReport (some cause)).calls = cs from hsame.trans hcalls,
      show (q.toReport (some cause)).context = p.effects.context from hcontext]
    exact hleads

/-- A run that comes to a node has performed the calls of those in front of it. -/
theorem Reaches.exists_performs (h : d.Matched) (hp : d.Reaches s ⟨context, clock, [], []⟩ k p)
    {r : Report} (hcalls : r.calls = p.effects.calls) (houtput : r.output = p.stack.unwind)
    (hcontext : r.context = p.effects.context) (hall : r.halt = none → k = d.nodes.length) :
    ∃ call, d.Performs s ⟨context, clock, [], []⟩ r k call := by
  obtain ⟨call, hcall⟩ := exists_logged h s ⟨context, clock, [], []⟩
  have hreaches : ∀ j < k, ∃ p q, d.Reaches s ⟨context, clock, [], []⟩ j p ∧
      d.Reaches s ⟨context, clock, [], []⟩ (j + 1) q := by
    intro j hj
    obtain ⟨q, hq⟩ := hp.exists_of_le (Nat.succ_le_of_lt hj)
    obtain ⟨p, hp⟩ := hq.exists_of_le (Nat.le_succ j)
    exact ⟨p, q, hp, hq⟩
  refine ⟨call, hp.le, hall, by rw [hcalls, (hp.logs hcall).1]; rfl, fun j hj => ?_,
    fun j hj c hc => ?_, p, hp, houtput, hcontext, hcalls⟩
  · obtain ⟨p, q, hp, hq⟩ := hreaches j hj
    exact (hcall j p q hp hq).1
  · obtain ⟨p, q, hp, hq⟩ := hreaches j hj
    have hadded := (hcall j p q hp hq).2.calls
    rw [hc] at hadded
    obtain ⟨n, p', hn, hp', hs⟩ := hq.exists_of_succ
    obtain rfl := hp'.unique hp
    have hdoes := Pass.does_step s j n p'
    rw [hs] at hdoes
    cases hdoes with
    | quiet hn hcontext hclock hquiet =>
      rw [hquiet] at hadded
      simp at hadded
    | finished c' work result hneeds hwork hw hproceed hmore hstack =>
      obtain rfl : c' = c := by
        rw [hmore] at hadded
        simpa using hadded
      refine ⟨n, p', q, result, hn, hp', hq, ?_, hstack⟩
      rw [Table.answer?, hwork, Option.bind_some, Work.result_of_proceed hproceed]

/-- **A run performs the calls of its nodes** up to where it ends, as the run does that nothing
stops. -/
theorem exists_performs (h : d.Matched) (ht : s.table.IsPrompt) (c : Clock) :
    ∃ m call, d.Performs s.unwatched ⟨context, c, [], []⟩ (d.evaluatePaced pace s context clock) m
      call := by
  rcases d.evaluatePaced_cases s pace context clock c with
    ⟨q, _, hq, hr⟩ | ⟨k, p, cause, q, hhalts, hr⟩
  · rw [hr]
    exact ⟨_, hq.exists_performs h rfl rfl rfl fun _ => rfl⟩
  · obtain ⟨_, hp⟩ := hhalts.reaches
    obtain ⟨hstack, hcontext, hcalls⟩ := hhalts.eq ht
    rw [hr]
    exact ⟨_, hp.exists_performs h hcalls (congrArg Stack.unwind hstack) hcontext nofun⟩

/-- Where a run has come that nothing stops, each of its calls was required at some node. -/
theorem Reaches.exists_requires (h : d.Reaches s start k p) (hnil : start.calls = []) :
    ∀ i < p.effects.calls.length, ∃ j q c, d.Requires s start j q c ∧
      q.effects.calls = p.effects.calls.take i := by
  refine (d.reaches_zero s start).induct (I := fun _ p => ∀ i < p.effects.calls.length,
    ∃ j q c, d.Requires s start j q c ∧ q.effects.calls = p.effects.calls.take i)
    (fun i hi => ?_) (fun j n p q _ hp hn hI hs i hi => ?_) (Nat.zero_le k) h
  · rw [hnil] at hi
    exact absurd hi (Nat.not_lt_zero i)
  · have hdoes := Pass.does_step s j n p
    rw [hs] at hdoes
    cases hdoes with
    | quiet hn hcontext hclock hquiet =>
      rw [hquiet] at hi ⊢
      exact hI i hi
    | finished c work result hneeds hwork hw hproceed hmore hstack =>
      rw [hmore, List.length_append, List.length_singleton] at hi
      rw [hmore, List.take_append_of_le_length (Nat.le_of_lt_succ hi)]
      by_cases hlast : i = p.effects.calls.length
      · rw [hlast, List.take_length]
        exact ⟨j, p, c, ⟨hp, n, hn, hneeds⟩, rfl⟩
      · exact hI i (by omega)

/-- Where handlers are done in one step, a step of a run that is not over is not stopped, and takes no
time. -/
theorem exists_step_of_prompt (ht : s.table.IsPrompt)
    (hw : s.watch.haltBy? p.effects.clock p.effects.clock.now = none) (n : Node) :
    ∃ q, p.step s k n = .ok q ∧ q.effects.clock = p.effects.clock := by
  have hdoes := Pass.does_step s k n p
  generalize p.step s k n = o at hdoes
  cases hdoes with
  | quiet hn hcontext hclock hcalls => exact ⟨_, rfl, hclock⟩
  | refused c cause t hc hw' =>
    rw [hw] at hw'
    cases hw'
  | abandoned c work cause hc hwork _ hp =>
    obtain ⟨result, after, rfl⟩ := ht.exists_finish hwork
    cases hp
  | finished c work result hc hwork _ hp =>
    obtain ⟨result', after, rfl⟩ := ht.exists_finish hwork
    obtain ⟨_, _, hclock⟩ := Performance.finished.inj hp
    exact ⟨_, rfl, by rw [← hclock, Clock.note, Bool.or_false]⟩

/-- Where handlers are done in one step, a run that is not over when it starts comes to any node up to
which it takes no time of its own, at the time at which it started. -/
theorem exists_walkPaced_to (context : Context) (ht : s.table.IsPrompt)
    (hw : s.watch.haltBy? clock clock.now = none) (hk : k ≤ d.nodes.length)
    (hpace : ∀ j < k, pace.node j = 0) :
    ∃ (p : Pass) (c : Clock), p.effects.clock = clock ∧
      d.Reaches s.unwatched ⟨context, clock, [], []⟩ k (p.withClock c) ∧
      Pass.walkPaced pace s 0 d.nodes ⟨.empty, ⟨context, clock, [], []⟩, 0⟩ =
        Pass.walkPaced pace s k (d.nodes.drop k) p := by
  induction k with
  | zero => exact ⟨_, clock, rfl, d.reaches_zero _ _, rfl⟩
  | succ k ih =>
    obtain ⟨p, c, hclock, hp, hwalk⟩ :=
      ih (Nat.le_of_succ_le hk) fun j hj => hpace j (Nat.lt_succ_of_lt hj)
    have hstill : p.wait (pace.node k) = p := by
      rw [hpace k (Nat.lt_succ_self k), Pass.wait_zero]
    obtain ⟨q, hs, hsame⟩ := exists_step_of_prompt (k := k) ht (by rwa [hclock]) d.nodes[k]
    obtain ⟨c', hs'⟩ := Pass.exists_step_unwatched hs c
    refine ⟨q, c', hsame.trans hclock, hp.succ (List.getElem?_eq_getElem hk) hs', ?_⟩
    rw [hwalk, List.drop_eq_getElem_cons hk, Pass.walkPaced_cons_of_ok (by rwa [hstill])]

/-- **A run that takes no time of its own is completed** if it is not over when it starts. -/
theorem halt_evaluatePaced (ht : s.table.IsPrompt) (hw : s.watch.haltBy? clock clock.now = none)
    (hpace : ∀ j < d.nodes.length, pace.node j = 0) :
    (d.evaluatePaced pace s context clock).halt = none := by
  obtain ⟨p, _, _, _, hwalk⟩ := exists_walkPaced_to context ht hw (Nat.le_refl _) hpace
  rw [List.drop_length, Pass.walkPaced] at hwalk
  simp only [evaluatePaced, hwalk]
  rfl

/-- **A run can be cancelled in front of any call** that it requires when nothing stops it. -/
theorem Requires.evaluatePaced_pauseAt (ht : s.table.IsPrompt)
    (hw : s.watch.haltBy? clock clock.now = none)
    (hnext : s.watch.haltBy? (clock.wait 1) (clock.wait 1).now = some (.cancelled, clock.now + 1))
    {call : Call} (h : d.Requires s.unwatched ⟨context, clock, [], []⟩ k p call) :
    (d.evaluatePaced (.pauseAt k) s context clock).halt = some .cancelled ∧
      (d.evaluatePaced (.pauseAt k) s context clock).calls = p.effects.calls := by
  obtain ⟨n, hn, hneeds⟩ := h.needs
  obtain ⟨hlt, rfl⟩ := List.getElem?_eq_some_iff.1 hn
  have hbefore : ∀ j < k, (Pace.pauseAt k).node j = 0 := fun j hj => by
    rw [Pace.node_pauseAt, if_neg (Nat.ne_of_lt hj)]
  obtain ⟨p', c, hclock, hp', hwalk⟩ :=
    exists_walkPaced_to context ht hw (Nat.le_of_lt hlt) hbefore
  obtain rfl := h.reaches.unique hp'
  have hpause : p'.wait ((Pace.pauseAt k).node k) = p'.wait 1 := by
    rw [Pace.node_pauseAt, if_pos rfl]
  have hneeds' : (p'.wait 1).Needs s k d.nodes[k] call := .of_unwatched (c := c) hneeds
  have hdoes := Pass.does_step s k d.nodes[k] (p'.wait 1)
  have hdue : s.watch.haltBy? (p'.wait 1).effects.clock (p'.wait 1).effects.clock.now =
      some (.cancelled, clock.now + 1) := by
    rw [← hnext, ← hclock]
    rfl
  generalize hs : (p'.wait 1).step s k d.nodes[k] = o at hdoes
  cases hdoes with
  | quiet hnone => exact absurd hneeds' (hnone call)
  | refused c' cause t hc hw' hcontext _ hcalls =>
    rw [hdue] at hw'
    cases hw'
    rw [← hpause] at hs
    rw [List.drop_eq_getElem_cons hlt, Pass.walkPaced_cons_of_error hs] at hwalk
    simp only [evaluatePaced, hwalk]
    exact ⟨rfl, hcalls⟩
  | abandoned c' work cause hc hwork hw' =>
    rw [hdue] at hw'
    cases hw'
  | finished c' work result hc hwork hw' =>
    rw [hdue] at hw'
    cases hw'

/-- **What stands inside a pair is called before the pair is.** -/
theorem Performs.inner_first (h : d.Matched) {r : Report} {m : Nat} {call : Nat → Option Call}
    (hperforms : d.Performs s start r m call) {i j : Nat} (hpair : d.Pair i j) (hkj : k < j)
    (hj : j < m) {c c' : Call} (hc : call k = some c) (hc' : call j = some c') :
    ∃ t, tagAt d.nodes i = some t ∧ c'.site = t.site ∧ [c, c'].Sublist r.calls := by
  have hsite := hperforms.sites j hj
  rw [hc', Option.map_some] at hsite
  obtain ⟨t, hfilter, hsame⟩ := Option.map_eq_some_iff.1 hsite.symm
  have hcalls := (asked?_eq_some_iff h).1 (Option.eq_some_of_filter_eq_some hfilter)
  obtain ⟨_, closer, _, hcloser, _, hkind, _⟩ := h.isMatching.tags hpair
  have htag : tagAt d.nodes i = some t := by
    cases hcalls with
    | alone hecho ht hk =>
      rw [hcloser] at ht
      cases ht
      rw [hk] at hkind
      cases hkind
    | unclosed hecho ht hk hp hu =>
      rw [hcloser] at ht
      cases ht
      rw [hk] at hkind
      cases hkind
    | closed hecho hpair' ht =>
      rwa [h.isMatching.opener_unique hpair hpair']
  refine ⟨t, htag, hsame.symm, ?_⟩
  have hinner : [k].Sublist (List.range j) := List.singleton_sublist.2 (List.mem_range.2 hkj)
  have hboth : [k, j].Sublist (List.range (j + 1)) := by
    rw [List.range_succ]
    exact hinner.append (List.Sublist.refl [j])
  have hall := (hboth.trans (List.range_sublist.2 (Nat.succ_le_of_lt hj))).filterMap call
  rw [hperforms.calls]
  simpa [hc, hc'] using hall

end

end Document

end Tagtext
