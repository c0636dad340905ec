import Tagtext.Proofs.Balance
import Tagtext.Proofs.Concat

/-!
# One run behind another

A run over two texts is a run over the first and then a run over the second from
the context that the first has left.  What is put out, reported and called is
what the two runs put out, report and call, the second with its offsets moved by
the length of the first text                                        (evaluate_append).

Where the first document ends no pair is open, so the pass goes on as a pass over
the second document alone, with other indices and offsets and with the first
report in front of its own (`Pass.Follows`).  Each step keeps the passes so, and
ends alike in both (`outcomes_step`); hence every walk does (`outcomes_walk`).
-/

namespace Tagtext

/-! ## Moved offsets -/

/-- The same diagnostic with `n` more bytes in front. -/
def Diagnostic.shift (n : Nat) : Diagnostic → Diagnostic
  | parse e => parse (e.shift n)
  | unresolved name o => unresolved name (n + o)
  | handlerFailed name o e => handlerFailed name (n + o) e

/-- The same call with `n` more bytes in front. -/
def Call.shift (n : Nat) (c : Call) : Call := { c with offset := n + c.offset }

/-- The same frame with `n` more bytes and `k` more nodes in front. -/
def Frame.shift (n k : Nat) (f : Frame) : Frame := ⟨k + f.node, f.opener.shift n, f.buffer⟩

@[simp] theorem Diagnostic.offset_shift (n : Nat) (d : Diagnostic) :
    (d.shift n).offset = n + d.offset := by
  cases d with
  | parse e => exact e.offset_shift n
  | unresolved name o => rfl
  | handlerFailed name o e => rfl

/-! ## Work -/

/-- Time has no part in what comes of two performances under a watch that sees nothing; under any
other it is the same. -/
inductive Performance.Alike (w : Watch) : Performance → Performance → Prop
  | finished (result : Except HandlerError Text) (context : Context) {k k' : Clock}
      (h : w = {} ∨ k' = k) : Alike w (.finished result context k) (.finished result context k')
  | abandoned (cause : Halt) (context : Context) {k k' : Clock} (h : w = {} ∨ k' = k) :
      Alike w (.abandoned cause context k) (.abandoned cause context k')

theorem Work.proceed_alike {w : Watch} {k k' : Clock} (h : w = {} ∨ k' = k) (work : Work) :
    Performance.Alike w (work.proceed w k) (work.proceed w k') := by
  rcases h with rfl | rfl
  · induction work generalizing k k' with
    | finish result context cancels => exact .finished result context (Or.inl rfl)
    | pause ms context cancels next ih => exact ih
    | hang context cancels => exact .abandoned .stalled context (Or.inl rfl)
  · cases work.proceed w k' with
    | finished result context k => exact .finished result context (Or.inr rfl)
    | abandoned cause context k => exact .abandoned cause context (Or.inr rfl)

theorem Watch.haltBy?_alike {w : Watch} {k k' : Clock} (h : w = {} ∨ k' = k) :
    w.haltBy? k' k'.now = w.haltBy? k k.now := by
  rcases h with rfl | rfl
  · rfl
  · rfl

/-! ## Passes -/

/-- `e'` is `e` behind a run with this report over `n` bytes. -/
structure Effects.Follows (w : Watch) (n : Nat) (r : Report) (e e' : Effects) : Prop where
  context : e'.context = e.context
  clock : w = {} ∨ e'.clock = e.clock
  diagnostics : e'.diagnostics = r.diagnostics ++ e.diagnostics.map (Diagnostic.shift n)
  calls : e'.calls = r.calls ++ e.calls.map (Call.shift n)

/-- `p'` is `p` behind a run with this report over `n` bytes and `k` nodes. -/
structure Pass.Follows (w : Watch) (n k : Nat) (r : Report) (p p' : Pass) : Prop where
  root : p'.stack.root = r.output ++ p.stack.root
  frames : p'.stack.frames = p.stack.frames.map (Frame.shift n k)
  effects : p.effects.Follows w n r p'.effects

/-- In front of node `i` the same nodes are kept. -/
def Pass.KeepsAlike (k i : Nat) (p p' : Pass) : Prop :=
  ∀ j, i ≤ j → (k + j < p'.keepUntil ↔ j < p.keepUntil)

namespace Effects.Follows

variable {w : Watch} {n : Nat} {r : Report} {e e' : Effects}

theorem report (h : e.Follows w n r e') (d : Diagnostic) :
    (e.report d).Follows w n r (e'.report (d.shift n)) :=
  ⟨h.context, h.clock, by simp [Effects.report, h.diagnostics], h.calls⟩

theorem called (h : e.Follows w n r e') (c : Call) (context : Context) {k k' : Clock}
    (hk : w = {} ∨ k' = k) :
    Follows w n r ⟨context, k, e.diagnostics, e.calls ++ [c]⟩
      ⟨context, k', e'.diagnostics, e'.calls ++ [c.shift n]⟩ :=
  ⟨rfl, hk, h.diagnostics, by simp [h.calls]⟩

/-- A call comes to the same behind another run. -/
theorem exists_invoke {s : Setting} (h : e.Follows s.watch n r e') (tag : Tag)
    (content fallback : Text) :
    ∃ out e₁ e₁', e.invoke s tag content fallback = (out, e₁) ∧
      e'.invoke s (tag.shift n) content fallback = (out, e₁') ∧ e₁.Follows s.watch n r e₁' := by
  unfold invoke
  rw [Tag.name_shift, Watch.haltBy?_alike h.clock, h.context]
  cases s.table.get? tag.name with
  | none => exact ⟨_, _, _, rfl, rfl, h.report (.unresolved tag.name tag.start)⟩
  | some d =>
    cases s.watch.haltBy? e.clock e.clock.now with
    | some halt => exact ⟨_, _, _, rfl, rfl, h⟩
    | none =>
      have hwork := Work.proceed_alike h.clock (d.handler tag.arguments content e.context)
      simp only [Tag.arguments_shift]
      generalize (d.handler tag.arguments content e.context).proceed s.watch e.clock = x at hwork
      generalize (d.handler tag.arguments content e.context).proceed s.watch e'.clock = y at hwork
      cases hwork with
      | abandoned cause context hk => exact ⟨_, _, _, rfl, rfl, h.called _ context hk⟩
      | finished result context hk =>
        have hcalled := h.called (callOf tag content e) context hk
        cases result with
        | ok out => exact ⟨_, _, _, rfl, rfl, hcalled⟩
        | error err =>
          exact ⟨_, _, _, rfl, rfl, hcalled.report (.handlerFailed tag.name tag.start err)⟩

end Effects.Follows

namespace Pass

/-- Two steps or walks end alike. -/
inductive Outcomes (R : Pass → Pass → Prop) :
    Except (Halt × Pass) Pass → Except (Halt × Pass) Pass → Prop
  | ok {q q' : Pass} (h : R q q') : Outcomes R (.ok q) (.ok q')
  | error (cause : Halt) {q q' : Pass} (h : R q q') :
      Outcomes R (.error (cause, q)) (.error (cause, q'))

theorem Outcomes.mono {R R' : Pass → Pass → Prop} (hR : ∀ q q', R q q' → R' q q')
    {o o' : Except (Halt × Pass) Pass} (h : Outcomes R o o') : Outcomes R' o o' := by
  cases h with
  | ok h => exact .ok (hR _ _ h)
  | error cause h => exact .error cause (hR _ _ h)

namespace Follows

variable {w : Watch} {n k : Nat} {r : Report} {p p' : Pass}

theorem emit (h : p.Follows w n k r p') (t : Text) : (p.emit t).Follows w n k r (p'.emit t) := by
  have hroot := h.root
  have hframes := h.frames
  cases hf : p.stack.frames with
  | nil =>
    rw [hf, List.map_nil] at hframes
    refine ⟨?_, ?_, h.effects⟩
    · simp [Stack.emit, hf, hframes, hroot]
    · simp [Stack.emit, hf, hframes]
  | cons f fs =>
    rw [hf, List.map_cons] at hframes
    refine ⟨?_, ?_, h.effects⟩
    · simp [Stack.emit, hf, hframes, hroot]
    · simp [Stack.emit, hf, hframes, Frame.shift]

theorem report (h : p.Follows w n k r p') (d : Diagnostic) :
    (p.report d).Follows w n k r (p'.report (d.shift n)) :=
  ⟨h.root, h.frames, h.effects.report d⟩

theorem push (h : p.Follows w n k r p') (i : Nat) (tag : Tag) :
    Follows w n k r { p with stack := p.stack.push i tag }
      { p' with stack := p'.stack.push (k + i) (tag.shift n) } :=
  ⟨h.root, congrArg (_ :: ·) h.frames, h.effects⟩

theorem pop (h : p.Follows w n k r p') :
    Follows w n k r { p with stack := p.stack.pop } { p' with stack := p'.stack.pop } :=
  ⟨h.root, by simp [Stack.pop, h.frames], h.effects⟩

theorem unwind (h : p.Follows w n k r p') : p'.stack.unwind = r.output ++ p.stack.unwind := by
  rw [Stack.unwind, Stack.unwind, h.root, h.frames]
  induction p.stack.frames with
  | nil => rfl
  | cons f fs ih =>
    rw [List.map_cons, List.foldr_cons, List.foldr_cons, ih]
    simp [Frame.shift]

end Follows

section
variable {s : Setting} {n k : Nat} {r : Report} {p p' : Pass}

/-- What a call leaves kept is what was kept. -/
theorem Outcomes.keep {i : Nat} {o o' : Except (Halt × Pass) Pass}
    (h : Outcomes (fun q q' => q.Follows s.watch n k r q' ∧
      q.keepUntil = p.keepUntil ∧ q'.keepUntil = p'.keepUntil) o o')
    (hkeep : KeepsAlike k i p p') :
    Outcomes (fun q q' => q.Follows s.watch n k r q' ∧ KeepsAlike k i q q') o o' := by
  refine h.mono fun q q' ⟨hq, hk, hk'⟩ => ⟨hq, fun j hj => ?_⟩
  rw [hk, hk']
  exact hkeep j hj

theorem outcomes_standalone (h : p.Follows s.watch n k r p') (tag : Tag) :
    Outcomes (fun q q' => q.Follows s.watch n k r q' ∧
        q.keepUntil = p.keepUntil ∧ q'.keepUntil = p'.keepUntil)
      (p.standalone s tag) (p'.standalone s (tag.shift n)) := by
  obtain ⟨out, e₁, e₁', hi, hi', he⟩ := h.effects.exists_invoke tag [] tag.raw
  have hq : Follows s.watch n k r { p with effects := e₁ } { p' with effects := e₁' } :=
    ⟨h.root, h.frames, he⟩
  unfold standalone
  rw [Tag.raw_shift, hi, hi']
  cases out with
  | ok out => exact .ok ⟨hq.emit out, rfl, rfl⟩
  | error cause => exact .error cause ⟨hq, rfl, rfl⟩

theorem outcomes_close (h : p.Follows s.watch n k r p') (f : Frame) (closer : Tag) :
    Outcomes (fun q q' => q.Follows s.watch n k r q' ∧
        q.keepUntil = p.keepUntil ∧ q'.keepUntil = p'.keepUntil)
      (p.close s f closer) (p'.close s (f.shift n k) (closer.shift n)) := by
  obtain ⟨out, e₁, e₁', hi, hi', he⟩ := h.effects.exists_invoke f.opener f.buffer
    (f.opener.raw ++ f.buffer ++ closer.raw)
  have hq : Follows s.watch n k r { p with effects := e₁, stack := p.stack.pop }
      { p' with effects := e₁', stack := p'.stack.pop } := ⟨h.pop.root, h.pop.frames, he⟩
  unfold close
  simp only [Frame.shift, Tag.raw_shift, hi, hi']
  cases out with
  | ok out => exact .ok ⟨hq.emit out, rfl, rfl⟩
  | error cause => exact .error cause ⟨⟨h.root, h.frames, he⟩, rfl, rfl⟩

/-- **Each step behind another run** ends as the same step alone. -/
theorem outcomes_step (h : p.Follows s.watch n k r p') {i : Nat} (hkeep : KeepsAlike k i p p')
    (x : Node) :
    Outcomes (fun q q' => q.Follows s.watch n k r q' ∧ KeepsAlike k (i + 1) q q')
      (p.step s i x) (p'.step s (k + i) (x.shift n k)) := by
  have hsame : KeepsAlike k (i + 1) p p' := fun j hj => hkeep j (by omega)
  have hle : p.keepUntil ≤ i → p'.keepUntil ≤ k + i := by
    have := hkeep i (Nat.le_refl i)
    omega
  have hlen : p'.stack.frames.length = p.stack.frames.length := by
    rw [h.frames, List.length_map]
  have ht := takes_step s i x p
  generalize p.step s i x = o at ht
  cases ht with
  | kept x hlt =>
    rw [step_kept ((hkeep i (Nat.le_refl i)).2 hlt), Node.raw_shift]
    exact .ok ⟨h.emit _, hsame⟩
  | text t hi =>
    rw [Node.shift, step_text (hle hi)]
    exact .ok ⟨h.emit t, hsame⟩
  | malformed raw e hi =>
    rw [Node.shift, step_malformed (hle hi)]
    exact .ok ⟨(h.report (.parse e)).emit raw, hsame⟩
  | alone tag partner hi hk =>
    rw [Node.shift, step_alone (hle hi) ((tag.kind_shift n).trans hk)]
    exact (outcomes_standalone h tag).keep hsame
  | deep tag close hi hk hd =>
    have hq := (h.report (.parse (.nestingTooDeep tag.name tag.start s.config.maxNestingDepth))).emit
      tag.raw
    rw [Node.shift, Option.map_some,
      step_deep (hle hi) ((tag.kind_shift n).trans hk) (by rwa [hlen])]
    refine .ok ⟨⟨hq.root, hq.frames, hq.effects⟩, fun j _ => ?_⟩
    show k + j < k + close + 1 ↔ j < close + 1
    omega
  | opened tag close hi hk hd =>
    rw [Node.shift, Option.map_some,
      step_opened (hle hi) ((tag.kind_shift n).trans hk) (by rwa [hlen])]
    exact .ok ⟨h.push i tag, hsame⟩
  | unclosed tag hi hk hu =>
    rw [Node.shift, Option.map_none, step_unclosed (hle hi) ((tag.kind_shift n).trans hk) hu]
    exact (outcomes_standalone (h.report (.parse (.unclosedTag tag.name tag.start))) tag).keep hsame
  | stays tag hi hk hu =>
    rw [Node.shift, Option.map_none, step_stays (hle hi) ((tag.kind_shift n).trans hk) hu]
    exact .ok ⟨(h.report (.parse (.unclosedTag tag.name tag.start))).emit tag.raw, hsame⟩
  | closed tag f fs hi hk hf =>
    have hf' : p'.stack.frames = f.shift n k :: fs.map (Frame.shift n k) := by
      rw [h.frames, hf, List.map_cons]
    rw [Node.shift, Option.map_some, show k + f.node = (f.shift n k).node from rfl,
      step_closed (hle hi) ((tag.kind_shift n).trans hk) hf']
    exact (outcomes_close h f tag).keep hsame
  | orphan tag partner hi hk hf =>
    have hf' : ∀ f' fs', p'.stack.frames = f' :: fs' →
        partner.map (k + ·) ≠ some f'.node := by
      intro f' fs' hf' hnode
      rw [h.frames] at hf'
      obtain ⟨f, fs, hfs, rfl, _⟩ := List.map_eq_cons_iff.1 hf'
      obtain ⟨j, rfl, hj⟩ := Option.map_eq_some_iff.1 hnode
      exact hf f fs hfs (congrArg some (Nat.add_left_cancel hj))
    rw [Node.shift, step_orphan (hle hi) ((tag.kind_shift n).trans hk) _ hf']
    exact .ok ⟨h.emit tag.raw, hsame⟩

/-- **A walk behind another run** ends as the same walk alone. -/
theorem outcomes_walk (nodes : List Node) :
    ∀ {i : Nat} {p p' : Pass}, p.Follows s.watch n k r p' → KeepsAlike k i p p' →
    Outcomes (Follows s.watch n k r) (walk s i nodes p)
      (walk s (k + i) (nodes.map (Node.shift n k)) p') := by
  induction nodes with
  | nil =>
    intro i p p' h _
    exact .ok h
  | cons x rest ih =>
    intro i p p' h hkeep
    have hstep := outcomes_step h hkeep x
    generalize hs : p.step s i x = o, hs' : p'.step s (k + i) (x.shift n k) = o' at hstep
    cases hstep with
    | ok hq =>
      rw [List.map_cons, walk_cons_of_ok hs, walk_cons_of_ok hs']
      exact ih hq.1 hq.2
    | error cause hq =>
      rw [List.map_cons, walk_cons_of_error hs, walk_cons_of_error hs']
      exact .error cause hq.1

end

end Pass

/-! ## Runs -/

/-- `r'` is `r` behind a run with the report `ra` over `n` bytes. -/
structure Report.Follows (n : Nat) (ra r r' : Report) : Prop where
  halt : r'.halt = r.halt
  output : r'.output = ra.output ++ r.output
  context : r'.context = r.context
  diagnostics : r'.diagnostics = ra.diagnostics ++ r.diagnostics.map (Diagnostic.shift n)
  calls : r'.calls = ra.calls ++ r.calls.map (Call.shift n)

theorem Pass.Follows.toReport {w : Watch} {n k : Nat} {r : Report} {p p' : Pass}
    (h : p.Follows w n k r p') (halt : Option Halt) :
    Report.Follows n r (p.toReport halt) (p'.toReport halt) :=
  ⟨rfl, h.unwind, h.effects.context, h.effects.diagnostics, h.effects.calls⟩

namespace Document

variable {d : Document} {s : Setting} {context : Context} {clock clock' : Clock}

/-- Behind a run that is completed, the next document is evaluated as from a fresh start. -/
theorem outcomes_append (h : d.Matched) (d' : Document) (n : Nat)
    (hhalt : (d.evaluate s context clock).halt = none)
    (hclock : s.watch = {} ∨ (d.evaluate s context clock).clock = clock') :
    Pass.Outcomes (Pass.Follows s.watch n d.nodes.length (d.evaluate s context clock))
      (Pass.walk s 0 d'.nodes
        ⟨.empty, ⟨(d.evaluate s context clock).context, clock', [], []⟩, 0⟩)
      (Pass.walk s 0 (d.append n d').nodes ⟨.empty, ⟨context, clock, [], []⟩, 0⟩) := by
  cases hw : Pass.walk s 0 d.nodes ⟨.empty, ⟨context, clock, [], []⟩, 0⟩ with
  | error stopped =>
    obtain ⟨cause, q⟩ := stopped
    rw [evaluate_of_walk_error hw] at hhalt
    cases hhalt
  | ok q =>
    rw [evaluate_of_walk hw] at hclock ⊢
    have hstands := Pass.stands_walk h (Nat.le_refl _) (by rwa [List.take_length])
    obtain ⟨hframes, hkept⟩ := hstands.end_of_nodes h
    have hstart : Pass.Follows s.watch n d.nodes.length (q.toReport none)
        ⟨.empty, ⟨(q.toReport none).context, clock', [], []⟩, 0⟩ q := by
      refine ⟨?_, hframes, rfl, hclock, (List.append_nil _).symm, (List.append_nil _).symm⟩
      simp [Pass.toReport, Stack.unwind, Stack.empty, hframes]
    rw [append, Pass.walk_append_of_ok _ hw, Nat.zero_add]
    refine Pass.outcomes_walk d'.nodes hstart fun j _ => ?_
    simp only
    omega

/-- A document behind another is evaluated as from a fresh start. -/
theorem follows_append (h : d.Matched) (d' : Document) (n : Nat)
    (hhalt : (d.evaluate s context clock).halt = none)
    (hclock : s.watch = {} ∨ (d.evaluate s context clock).clock = clock') :
    Report.Follows n (d.evaluate s context clock)
      (d'.evaluate s (d.evaluate s context clock).context clock')
      ((d.append n d').evaluate s context clock) := by
  have houtcomes := outcomes_append h d' n hhalt hclock
  rw [evaluate_eq_walk s _ clock' d', evaluate_eq_walk s context clock (d.append n d')]
  generalize Pass.walk s 0 d'.nodes _ = o, Pass.walk s 0 (d.append n d').nodes _ = o' at houtcomes ⊢
  cases houtcomes with
  | ok hq => exact hq.toReport none
  | error cause hq => exact hq.toReport (some cause)

/-- A run that ends early has not seen what stands behind. -/
theorem evaluate_append_of_halt (d' : Document) (n : Nat)
    (hhalt : (d.evaluate s context clock).halt ≠ none) :
    (d.append n d').evaluate s context clock = d.evaluate s context clock := by
  cases hw : Pass.walk s 0 d.nodes ⟨.empty, ⟨context, clock, [], []⟩, 0⟩ with
  | ok q =>
    rw [evaluate_of_walk hw] at hhalt
    exact absurd rfl hhalt
  | error stopped =>
    have hw' := Pass.walk_append_of_error (d'.nodes.map (Node.shift n d.nodes.length)) hw
    rw [evaluate_of_walk_error hw, evaluate_of_walk_error (d := d.append n d') hw']

end Document

/-- **One text behind another.**  The first one is empty or ends with a marker, and none of its
markers is cut short; and no closing tag that is left in the second has the name of an opening tag
that is left in the first.  Then the run over both goes on, behind the run over the first, as the
run over the second from the context that the first has left.  Under a watch the second run starts
at the time at which the first has ended; a first run that ends early is all there is. -/
theorem evaluate_append (s : Setting) (a b : Text) (context : Context) (clock clock' : Clock)
    (hsealed : IsSealed (scan a)) (hapart : (Document.parse a).Apart (Document.parse b))
    (hclock : s.watch = {} ∨ (evaluate s a context clock).clock = clock') :
    let ra := evaluate s a context clock
    let rb := evaluate s b ra.context clock'
    let r := evaluate s (a ++ b) context clock
    (ra.halt = none →
      r.halt = rb.halt ∧ r.output = ra.output ++ rb.output ∧ r.context = rb.context ∧
      r.diagnostics = ra.diagnostics ++ rb.diagnostics.map (Diagnostic.shift (byteLength a)) ∧
      r.calls = ra.calls ++ rb.calls.map (Call.shift (byteLength a))) ∧
    (ra.halt ≠ none → r = ra) := by
  intro ra rb r
  have hr : r = ((Document.parse a).append (byteLength a) (Document.parse b)).evaluate s context
      clock := by
    rw [← Document.parse_append hsealed hapart]
    rfl
  rw [hr]
  constructor
  · intro hhalt
    have h := Document.follows_append (Document.matched_parse a) (Document.parse b) (byteLength a)
      hhalt hclock
    exact ⟨h.halt, h.output, h.context, h.diagnostics, h.calls⟩
  · exact Document.evaluate_append_of_halt _ _

/-- An opening tag is left in the first text, a closing tag of another name and a marker that is cut
short in the second; and the second counts on from the first. -/
theorem evaluate_append_counted :
    let count : Descriptor := ⟨"n".toList, .code, {}, .immediate fun _ content c =>
      (.ok (c.textOf "n".toList ['0'] ++ content), c.increment "n".toList)⟩
    let s : Setting := ⟨Table.empty.insertAll [count], {}, {}⟩
    let a := "é[u]x[n/]".toList
    let b := "[n]y[/n][/v][q".toList
    let ra := evaluate s a .empty
    IsSealed (scan a) ∧ (Document.parse a).Apart (Document.parse b) ∧ ra.halt = none ∧
      ra.output = "é[u]x0".toList ∧
      (evaluate s (a ++ b) .empty).output = ra.output ++ "1y[/v][q".toList ∧
      (evaluate s (a ++ b) .empty).diagnostics =
        ra.diagnostics ++ [.parse (.unterminatedTag 22)] := by
  intro count s a b ra
  have hsealed : IsSealed (scan a) := by decide +kernel
  have hapart : (Document.parse a).Apart (Document.parse b) := by decide +kernel
  have hhalt : ra.halt = none := by decide +kernel
  have houtput : (evaluate s b ra.context).output = "1y[/v][q".toList := by decide +kernel
  have hdiagnostics : (evaluate s b ra.context).diagnostics =
      [.parse (.unterminatedTag 12)] := by decide +kernel
  obtain ⟨happend, _⟩ := evaluate_append s a b .empty {} {} hsealed hapart (Or.inl rfl)
  obtain ⟨_, hout, _, hdiag, _⟩ := happend hhalt
  refine ⟨hsealed, hapart, hhalt, by decide +kernel, ?_, ?_⟩
  · rw [hout, houtput]
  · rw [hdiag, hdiagnostics]
    rfl

end Tagtext
