import Tagtext.Proofs.Halted

/-!
# How far a run comes

A run comes to node `k` as the pass that the walk over the nodes in front of `k`
ends with (`Document.Reaches`).  It comes to the end of the document, or to one
node whose step stops it (`evaluate_cases`).

For the context, the time and the calls it matters only which handler a step
calls, if any, and how that ends.  `Pass.Does` lists the four ways:

    quiet       nothing is called, and time stands still
    refused     the run is over before the handler starts
    abandoned   the handler starts, and the run is over before it ends
    finished    the handler ends, and its output is put out

and every step does one of them (`does_step`).
-/

namespace Tagtext

/-- The work that a call begins. -/
def Table.work? (t : Table) (c : Call) : Option Work :=
  (t.get? c.name).map fun d => d.handler c.arguments c.content c.context

theorem Table.work?_callOf {t : Table} {tag : Tag} {d : Descriptor} (h : t.get? tag.name = some d)
    (content : Text) (e : Effects) :
    t.work? (e.callOf tag content) = some (d.handler tag.arguments content e.context) :=
  congrArg (Option.map _) h

/-- Whether a node is a closing tag. -/
def Node.endsPair (n : Node) : Bool := n.tag?.any (·.kind == .closing)

/-- The text that a result is put out as. -/
def Config.written (config : Config) : Except HandlerError Text → Text
  | .ok out => out
  | .error _ => config.failure.replacement

/-! ## What a step does -/

namespace Pass

/-- The content that a call at node `n` is given: where a pair ends, what it holds. -/
def contentAt (n : Node) (p : Pass) : Text :=
  if n.endsPair then (p.stack.frames.head?.map (·.buffer)).getD [] else []

/-- The stack on which the result of a call at node `n` is put out: where a pair ends, that around
the pair. -/
def stackAround (n : Node) (p : Pass) : Stack := if n.endsPair then p.stack.pop else p.stack

/-- Taking node `n`, which has this index, at `p` needs this call of a handler. -/
def Needs (s : Setting) (index : Nat) (p : Pass) (n : Node) (c : Call) : Prop :=
  ∃ tag, Calls s index p n tag ∧ s.table.contains tag.name = true ∧
    c = p.effects.callOf tag (p.contentAt n)

/-- What taking node `n`, which has this index, at `p` does beside putting out text. -/
inductive Does (s : Setting) (index : Nat) (p : Pass) (n : Node) : Except (Halt × Pass) Pass → Prop
  | quiet {q : Pass} (hn : ∀ c, ¬ Needs s index p n c) (hcontext : q.effects.context = p.effects.context)
      (hclock : q.effects.clock = p.effects.clock) (hcalls : q.effects.calls = p.effects.calls) :
      Does s index p n (.ok q)
  | refused {q : Pass} (c : Call) (cause : Halt) (t : Nat) (hc : Needs s index p n c)
      (hw : s.watch.haltBy? p.effects.clock p.effects.clock.now = some (cause, t))
      (hcontext : q.effects.context = p.effects.context) (hclock : q.effects.clock = p.effects.clock)
      (hcalls : q.effects.calls = p.effects.calls) : Does s index p n (.error (cause, q))
  | abandoned {q : Pass} (c : Call) (work : Work) (cause : Halt) (hc : Needs s index p n c)
      (hwork : s.table.work? c = some work)
      (hw : s.watch.haltBy? p.effects.clock p.effects.clock.now = none)
      (hp : work.proceed s.watch p.effects.clock =
        .abandoned cause q.effects.context q.effects.clock)
      (hcalls : q.effects.calls = p.effects.calls ++ [c]) : Does s index p n (.error (cause, q))
  | finished {q : Pass} (c : Call) (work : Work) (result : Except HandlerError Text)
      (hc : Needs s index p n c) (hwork : s.table.work? c = some work)
      (hw : s.watch.haltBy? p.effects.clock p.effects.clock.now = none)
      (hp : work.proceed s.watch p.effects.clock =
        .finished result q.effects.context q.effects.clock)
      (hcalls : q.effects.calls = p.effects.calls ++ [c])
      (hstack : q.stack = (p.stackAround n).emit (s.config.written result)) :
      Does s index p n (.ok q)

section
variable {s : Setting} {index : Nat} {p : Pass} {n : Node}

/-- What is called is the tag of the node, or the opener of the innermost pair where that ends. -/
theorem Calls.tag?_or_frames {tag : Tag} (h : Calls s index p n tag) :
    n.tag? = some tag ∧ n.endsPair = false ∨
      n.endsPair = true ∧ ∃ f fs, p.stack.frames = f :: fs ∧ tag = f.opener := by
  cases h with
  | alone tag partner hle hk => exact Or.inl ⟨rfl, by simp [Node.endsPair, Node.tag?, hk]⟩
  | unclosed tag hle hk hu => exact Or.inl ⟨rfl, by simp [Node.endsPair, Node.tag?, hk]⟩
  | closed tag f fs hle hk hf =>
    exact Or.inr ⟨by simp [Node.endsPair, Node.tag?, hk], f, fs, hf, rfl⟩

/-- Which tags call: one that stands alone, an opening one without partner, and the closing one of the
innermost pair. -/
theorem Calls.kind {tag t : Tag} {partner : Option Nat} (h : Calls s index p (.tag tag partner) t) :
    tag.kind = .selfClosing ∨
      (tag.kind = .opening ∧ partner = none ∧ s.config.unclosed = .standalone) ∨
      (tag.kind = .closing ∧ ∃ f fs, p.stack.frames = f :: fs ∧ partner = some f.node) := by
  cases h with
  | alone _ _ hle hk => exact Or.inl hk
  | unclosed _ hle hk hu => exact Or.inr (Or.inl ⟨hk, rfl, hu⟩)
  | closed _ f fs hle hk hf => exact Or.inr (Or.inr ⟨hk, f, fs, hf, rfl⟩)

/-- A tag that is no closing one is called without content. -/
theorem contentAt_of_ne_closing {tag : Tag} {partner : Option Nat} (hk : tag.kind ≠ .closing)
    (p : Pass) : p.contentAt (.tag tag partner) = [] := by
  simp [contentAt, Node.endsPair, Node.tag?, hk]

theorem stackAround_of_ne_closing {tag : Tag} {partner : Option Nat} (hk : tag.kind ≠ .closing)
    (p : Pass) : p.stackAround (.tag tag partner) = p.stack := by
  simp [stackAround, Node.endsPair, Node.tag?, hk]

theorem contentAt_of_closing {tag : Tag} {partner : Option Nat} (hk : tag.kind = .closing)
    {f : Frame} {fs : List Frame} (hf : p.stack.frames = f :: fs) :
    p.contentAt (.tag tag partner) = f.buffer := by
  simp [contentAt, Node.endsPair, Node.tag?, hk, hf]

theorem stackAround_of_closing {tag : Tag} {partner : Option Nat} (hk : tag.kind = .closing)
    (p : Pass) : p.stackAround (.tag tag partner) = p.stack.pop := by
  simp [stackAround, Node.endsPair, Node.tag?, hk]

/-- At most one tag is called. -/
theorem Calls.unique {tag tag' : Tag} (h : Calls s index p n tag) (h' : Calls s index p n tag') :
    tag = tag' := by
  rcases h.tag?_or_frames with ⟨ht, hn⟩ | ⟨hn, f, fs, hf, rfl⟩
  · rcases h'.tag?_or_frames with ⟨ht', _⟩ | ⟨hn', _⟩
    · rw [ht] at ht'
      exact Option.some.inj ht'
    · rw [hn] at hn'
      cases hn'
  · rcases h'.tag?_or_frames with ⟨_, hn'⟩ | ⟨_, f', fs', hf', rfl⟩
    · rw [hn] at hn'
      cases hn'
    · rw [hf] at hf'
      exact congrArg Frame.opener (List.cons.inj hf').1

theorem Needs.unique {c c' : Call} (h : Needs s index p n c) (h' : Needs s index p n c') :
    c = c' := by
  obtain ⟨tag, hcalls, _, rfl⟩ := h
  obtain ⟨tag', hcalls', _, rfl⟩ := h'
  rw [hcalls.unique hcalls']

/-- What a step does that calls a tag is what the call comes to. -/
theorem does_of_invoke {tag : Tag} (fallback : Text) {e : Effects}
    {o : Except (Halt × Pass) Pass} (hcalls : Calls s index p n tag)
    (hcontext : e.context = p.effects.context) (hclock : e.clock = p.effects.clock)
    (hbefore : e.calls = p.effects.calls)
    (hok : ∀ out e', e.invoke s tag (p.contentAt n) fallback = (.ok out, e') →
      ∃ q, o = .ok q ∧ q.effects = e' ∧ q.stack = (p.stackAround n).emit out)
    (herror : ∀ cause e', e.invoke s tag (p.contentAt n) fallback = (.error cause, e') →
      ∃ q, o = .error (cause, q) ∧ q.effects = e') : Does s index p n o := by
  have hcomes := Effects.comes_invoke s tag (p.contentAt n) fallback e
  generalize hi : e.invoke s tag (p.contentAt n) fallback = r at hcomes hok herror
  have hneeds : ∀ d, s.table.get? tag.name = some d →
      Needs s index p n (e.callOf tag (p.contentAt n)) := by
    intro d hd
    refine ⟨tag, hcalls, by simp [Table.contains, hd], ?_⟩
    simp [Effects.callOf, hcontext]
  cases hcomes with
  | unknown h =>
    obtain ⟨q, rfl, he, _⟩ := hok _ _ rfl
    refine .quiet ?_ ?_ ?_ ?_
    · rintro c ⟨tag', hcalls', hknown, _⟩
      rw [← hcalls.unique hcalls', Table.contains, h] at hknown
      cases hknown
    · rw [he]
      exact hcontext
    · rw [he]
      exact hclock
    · rw [he]
      exact hbefore
  | refused d cause t h hw =>
    obtain ⟨q, rfl, rfl⟩ := herror _ _ rfl
    rw [hclock] at hw
    exact .refused _ cause t (hneeds d h) hw hcontext hclock hbefore
  | abandoned d cause context clock h hw hp =>
    obtain ⟨q, rfl, he⟩ := herror _ _ rfl
    rw [hclock] at hw hp
    refine .abandoned _ _ cause (hneeds d h) (Table.work?_callOf h _ e) hw ?_ ?_
    · rw [he]
      exact hp
    · rw [he, hbefore]
  | answered d out context clock h hw hp =>
    obtain ⟨q, rfl, he, hstack⟩ := hok _ _ rfl
    rw [hclock] at hw hp
    refine .finished _ _ (.ok out) (hneeds d h) (Table.work?_callOf h _ e) hw ?_ ?_ hstack
    · rw [he]
      exact hp
    · rw [he, hbefore]
  | failed d err context clock h hw hp =>
    obtain ⟨q, rfl, he, hstack⟩ := hok _ _ rfl
    rw [hclock] at hw hp
    refine .finished _ _ (.error err) (hneeds d h) (Table.work?_callOf h _ e) hw ?_ ?_ hstack
    · rw [he]
      exact hp
    · rw [he, hbefore]

theorem exists_standalone_of_invoke {tag : Tag} {p : Pass} {e : Effects} {out : Text}
    (h : p.effects.invoke s tag [] tag.raw = (.ok out, e)) :
    ∃ q, p.standalone s tag = .ok q ∧ q.effects = e ∧ q.stack = p.stack.emit out := by
  simp only [standalone, h]
  exact ⟨_, rfl, rfl, rfl⟩

theorem exists_standalone_of_invoke_error {tag : Tag} {p : Pass} {e : Effects} {cause : Halt}
    (h : p.effects.invoke s tag [] tag.raw = (.error cause, e)) :
    ∃ q, p.standalone s tag = .error (cause, q) ∧ q.effects = e := by
  simp only [standalone, h]
  exact ⟨_, rfl, rfl⟩

theorem not_needs (h : ∀ tag, ¬ Calls s index p n tag) (c : Call) : ¬ Needs s index p n c :=
  fun ⟨tag, hcalls, _⟩ => h tag hcalls

/-- **Every step does one of the listed things.** -/
theorem does_step (s : Setting) (index : Nat) (n : Node) (p : Pass) :
    Does s index p n (p.step s index n) := by
  have ht := takes_step s index n p
  generalize p.step s index n = o at ht
  cases ht with
  | kept n hlt =>
    refine .quiet (not_needs fun tag h => ?_) rfl rfl rfl
    cases h <;> omega
  | text t hle => exact .quiet (not_needs fun tag h => by cases h) rfl rfl rfl
  | malformed raw e hle => exact .quiet (not_needs fun tag h => by cases h) rfl rfl rfl
  | alone tag partner hle hk =>
    have hne : tag.kind ≠ .closing := by simp [hk]
    refine does_of_invoke tag.raw (.alone tag partner hle hk) rfl rfl rfl ?_ ?_
    · rw [contentAt_of_ne_closing hne, stackAround_of_ne_closing hne]
      exact fun out e h => exists_standalone_of_invoke h
    · rw [contentAt_of_ne_closing hne]
      exact fun cause e h => exists_standalone_of_invoke_error h
  | deep tag close hle hk hd =>
    exact .quiet (not_needs fun t h => by simpa [hk] using h.kind) rfl rfl rfl
  | opened tag close hle hk hd =>
    exact .quiet (not_needs fun t h => by simpa [hk] using h.kind) rfl rfl rfl
  | unclosed tag hle hk hu =>
    have hne : tag.kind ≠ .closing := by simp [hk]
    refine does_of_invoke tag.raw (.unclosed tag hle hk hu)
      (e := (p.report (.parse (.unclosedTag tag.name tag.start))).effects) rfl rfl rfl ?_ ?_
    · rw [contentAt_of_ne_closing hne, stackAround_of_ne_closing hne]
      exact fun out e h => exists_standalone_of_invoke h
    · rw [contentAt_of_ne_closing hne]
      exact fun cause e h => exists_standalone_of_invoke_error h
  | stays tag hle hk hu =>
    exact .quiet (not_needs fun t h => by simpa [hk, hu] using h.kind) rfl rfl rfl
  | closed tag f fs hle hk hf =>
    refine does_of_invoke (f.opener.raw ++ f.buffer ++ tag.raw) (.closed tag f fs hle hk hf)
      rfl rfl rfl ?_ ?_
    · rw [contentAt_of_closing hk hf, stackAround_of_closing hk]
      intro out e h
      simp only [close, h]
      exact ⟨_, rfl, rfl, rfl⟩
    · rw [contentAt_of_closing hk hf]
      intro cause e h
      simp only [close, h]
      exact ⟨_, rfl, rfl⟩
  | orphan tag partner hle hk hf =>
    refine .quiet (not_needs fun t h => ?_) rfl rfl rfl
    obtain ⟨f, fs, hfs, hpartner⟩ : ∃ f fs, p.stack.frames = f :: fs ∧ partner = some f.node := by
      simpa [hk] using h.kind
    exact hf f fs hfs hpartner

end

end Pass

/-! ## What a step adds -/

namespace Effects

/-- A call takes back nothing that was reported or called. -/
theorem grows_invoke (s : Setting) (tag : Tag) (content fallback : Text) (e : Effects) :
    e.diagnostics <+: (e.invoke s tag content fallback).2.diagnostics ∧
      e.calls <+: (e.invoke s tag content fallback).2.calls := by
  have hcomes := comes_invoke s tag content fallback e
  generalize e.invoke s tag content fallback = r at hcomes
  cases hcomes with
  | unknown h => exact ⟨List.prefix_append _ _, List.prefix_rfl⟩
  | refused d cause t h hw => exact ⟨List.prefix_rfl, List.prefix_rfl⟩
  | abandoned d cause context clock h hw hp => exact ⟨List.prefix_rfl, List.prefix_append _ _⟩
  | answered d out context clock h hw hp => exact ⟨List.prefix_rfl, List.prefix_append _ _⟩
  | failed d err context clock h hw hp => exact ⟨List.prefix_append _ _, List.prefix_append _ _⟩

end Effects

namespace Pass

section
variable {s : Setting} {k : Nat} {n : Node} {p q : Pass}

/-- A step takes back nothing that was reported or called. -/
theorem grows_step (hs : p.step s k n = .ok q) :
    p.effects.diagnostics <+: q.effects.diagnostics ∧ p.effects.calls <+: q.effects.calls := by
  have hreport : ∀ e : Diagnostic, p.effects.diagnostics <+: (p.report e).effects.diagnostics ∧
      p.effects.calls <+: (p.report e).effects.calls :=
    fun e => ⟨List.prefix_append _ _, List.prefix_rfl⟩
  have ht := takes_step s k n p
  generalize p.step s k n = r at ht hs
  cases ht with
  | alone tag partner hle hk =>
    obtain ⟨out, e, hi, rfl⟩ := exists_of_standalone_ok hs
    have hgrows := Effects.grows_invoke s tag [] tag.raw p.effects
    rwa [hi] at hgrows
  | unclosed tag hle hk hu =>
    obtain ⟨out, e, hi, rfl⟩ := exists_of_standalone_ok hs
    obtain ⟨hd, hc⟩ := Effects.grows_invoke s tag [] tag.raw
      (p.report (.parse (.unclosedTag tag.name tag.start))).effects
    rw [hi] at hd hc
    exact ⟨(hreport _).1.trans hd, hc⟩
  | closed tag f fs hle hk hf =>
    obtain ⟨out, e, hi, rfl⟩ := exists_of_close_ok hs
    have hgrows := Effects.grows_invoke s f.opener f.buffer
      (f.opener.raw ++ f.buffer ++ tag.raw) p.effects
    rwa [hi] at hgrows
  | malformed raw e hle =>
    cases hs
    exact hreport _
  | deep tag close hle hk hd =>
    cases hs
    exact hreport _
  | stays tag hle hk hu =>
    cases hs
    exact hreport _
  | _ =>
    cases hs
    exact ⟨List.prefix_rfl, List.prefix_rfl⟩

end

end Pass

/-! ## Runs -/

namespace Document

/-- A run over `d` comes to node `k` as `p`. -/
structure Reaches (d : Document) (s : Setting) (start : Effects) (k : Nat) (p : Pass) : Prop where
  le : k ≤ d.nodes.length
  walk : Pass.walk s 0 (d.nodes.take k) ⟨.empty, start, 0⟩ = .ok p

/-- A run over `d` comes to node `k` as `p`, and has to make this call there. -/
structure Requires (d : Document) (s : Setting) (start : Effects) (k : Nat) (p : Pass) (c : Call) :
    Prop where
  reaches : d.Reaches s start k p
  needs : ∃ n, d.nodes[k]? = some n ∧ p.Needs s k n c

/-- A run over `d` comes to node `k` as `p`, is stopped there, and is left as `q`. -/
structure Stops (d : Document) (s : Setting) (start : Effects) (k : Nat) (p : Pass) (cause : Halt)
    (q : Pass) : Prop where
  reaches : d.Reaches s start k p
  step : ∃ n, d.nodes[k]? = some n ∧ p.step s k n = .error (cause, q)

section
variable {d : Document} {s : Setting} {start : Effects} {k : Nat} {p q : Pass} {n : Node}

theorem reaches_zero (d : Document) (s : Setting) (start : Effects) :
    d.Reaches s start 0 ⟨.empty, start, 0⟩ :=
  ⟨Nat.zero_le _, rfl⟩

namespace Reaches

/-- A run comes to a node in one way. -/
theorem unique (h : d.Reaches s start k p) (h' : d.Reaches s start k q) : p = q :=
  Except.ok.inj (h.walk.symm.trans h'.walk)

theorem length_take (h : d.Reaches s start k p) : 0 + (d.nodes.take k).length = k := by
  rw [Nat.zero_add, List.length_take, Nat.min_eq_left h.le]

theorem succ (h : d.Reaches s start k p) (hn : d.nodes[k]? = some n) (hs : p.step s k n = .ok q) :
    d.Reaches s start (k + 1) q := by
  obtain ⟨hlt, rfl⟩ := List.getElem?_eq_some_iff.1 hn
  refine ⟨hlt, ?_⟩
  rw [List.take_succ_eq_append_getElem hlt, Pass.walk_append_of_ok _ h.walk, h.length_take,
    Pass.walk_cons_of_ok hs]
  rfl

/-- A run comes to a node through the one in front of it. -/
theorem exists_of_succ (h : d.Reaches s start (k + 1) q) :
    ∃ n p, d.nodes[k]? = some n ∧ d.Reaches s start k p ∧ p.step s k n = .ok q := by
  have hlt : k < d.nodes.length := h.le
  have hwalk := h.walk
  rw [List.take_succ_eq_append_getElem hlt] at hwalk
  cases hp : Pass.walk s 0 (d.nodes.take k) ⟨.empty, start, 0⟩ with
  | error stopped =>
    rw [Pass.walk_append_of_error _ hp] at hwalk
    cases hwalk
  | ok p =>
    have hreach : d.Reaches s start k p := ⟨Nat.le_of_lt hlt, hp⟩
    refine ⟨_, p, List.getElem?_eq_getElem hlt, hreach, ?_⟩
    rw [Pass.walk_append_of_ok _ hp, hreach.length_take] at hwalk
    cases hs : p.step s k d.nodes[k] with
    | error stopped =>
      rw [Pass.walk_cons_of_error hs] at hwalk
      cases hwalk
    | ok q' =>
      rw [Pass.walk_cons_of_ok hs] at hwalk
      cases hwalk
      rfl

/-- What holds where a run has come to, and is kept by each step from there on, holds wherever it
comes later. -/
theorem induct {I : Nat → Pass → Prop} (h : d.Reaches s start k p) (hp : I k p)
    (hstep : ∀ j n q q', k ≤ j → d.Reaches s start j q → d.nodes[j]? = some n → I j q →
      q.step s j n = .ok q' → I (j + 1) q')
    {j : Nat} (hkj : k ≤ j) : ∀ {q : Pass}, d.Reaches s start j q → I j q := by
  induction j, hkj using Nat.le_induction with
  | base =>
    intro q hq
    rw [hq.unique h]
    exact hp
  | succ j hkj ih =>
    intro q' hq'
    obtain ⟨n, q, hn, hq, hs⟩ := hq'.exists_of_succ
    exact hstep j n q q' hkj hq hn (ih hq) hs

/-- A run that comes to a node comes to all in front of it. -/
theorem exists_of_le {j : Nat} (h : d.Reaches s start j q) (hkj : k ≤ j) :
    ∃ p, d.Reaches s start k p := by
  induction j, hkj using Nat.le_induction generalizing q with
  | base => exact ⟨q, h⟩
  | succ j hkj ih =>
    obtain ⟨n, p, _, hp, _⟩ := h.exists_of_succ
    exact ih hp

/-- What has been reported and called where a run comes stays. -/
theorem grows (h : d.Reaches s start k p) {j : Nat} (hkj : k ≤ j) (hq : d.Reaches s start j q) :
    p.effects.diagnostics <+: q.effects.diagnostics ∧ p.effects.calls <+: q.effects.calls :=
  h.induct (I := fun _ q => p.effects.diagnostics <+: q.effects.diagnostics ∧
      p.effects.calls <+: q.effects.calls)
    ⟨List.prefix_rfl, List.prefix_rfl⟩
    (fun _ _ _ _ _ _ _ hI hs => ⟨hI.1.trans (Pass.grows_step hs).1, hI.2.trans (Pass.grows_step hs).2⟩)
    hkj hq

/-- The stack is balanced wherever a run comes. -/
theorem stands (hm : d.Matched) (h : d.Reaches s start k p) :
    p.Stands d s.config.maxNestingDepth k :=
  Pass.stands_walk hm h.le h.walk

end Reaches

/-- What is needed is what the document calls, if the table knows it. -/
theorem Reaches.callsKnown_iff (hm : d.Matched) (h : d.Reaches s start k p) :
    d.CallsKnown s k ↔ ∃ c, d.Requires s start k p c := by
  constructor
  · rintro ⟨tag, hcalls, hknown⟩
    obtain ⟨t, ht⟩ := hcalls.exists_tagAt hm
    obtain ⟨n, hn, _⟩ := Option.bind_eq_some_iff.1 ht
    exact ⟨_, h, n, hn, tag, ((h.stands hm).calls_iff hm hn tag).2 hcalls, hknown, rfl⟩
  · rintro ⟨c, _, n, hn, tag, hcalls, hknown, _⟩
    exact ⟨tag, ((h.stands hm).calls_iff hm hn tag).1 hcalls, hknown⟩

/-! ## How a run ends -/

section
variable {context : Context} {clock : Clock}

theorem evaluate_of_reaches (h : d.Reaches s ⟨context, clock, [], []⟩ d.nodes.length q) :
    d.evaluate s context clock = q.toReport none := by
  refine evaluate_of_walk ?_
  have hwalk := h.walk
  rwa [List.take_length] at hwalk

theorem Stops.evaluate {cause : Halt} (h : d.Stops s ⟨context, clock, [], []⟩ k p cause q) :
    d.evaluate s context clock = q.toReport (some cause) := by
  obtain ⟨n, hn, hs⟩ := h.step
  obtain ⟨hlt, rfl⟩ := List.getElem?_eq_some_iff.1 hn
  have hsplit : d.nodes = d.nodes.take k ++ d.nodes[k] :: d.nodes.drop (k + 1) := by
    rw [← List.drop_eq_getElem_cons hlt, List.take_append_drop]
  refine evaluate_of_walk_error ?_
  rw [hsplit, Pass.walk_append_of_ok _ h.reaches.walk, h.reaches.length_take,
    Pass.walk_cons_of_error hs]

/-- **A run comes to the end, or is stopped at one node.** -/
theorem evaluate_cases (d : Document) (s : Setting) (context : Context) (clock : Clock) :
    (∃ q, d.Reaches s ⟨context, clock, [], []⟩ d.nodes.length q ∧
      d.evaluate s context clock = q.toReport none) ∨
    ∃ k p cause q, d.Stops s ⟨context, clock, [], []⟩ k p cause q ∧
      d.evaluate s context clock = q.toReport (some cause) := by
  cases hw : Pass.walk s 0 d.nodes ⟨.empty, ⟨context, clock, [], []⟩, 0⟩ with
  | ok q =>
    have hreach : d.Reaches s ⟨context, clock, [], []⟩ d.nodes.length q :=
      ⟨Nat.le_refl _, by rwa [List.take_length]⟩
    exact Or.inl ⟨q, hreach, evaluate_of_reaches hreach⟩
  | error stopped =>
    obtain ⟨cause, q⟩ := stopped
    obtain ⟨k, n, p, hn, hwalk, hs⟩ := Pass.exists_of_walk_error hw
    rw [Nat.zero_add] at hs
    have hlt := (List.getElem?_eq_some_iff.1 hn).1
    have hstops : d.Stops s ⟨context, clock, [], []⟩ k p cause q :=
      ⟨⟨Nat.le_of_lt hlt, hwalk⟩, n, hn, hs⟩
    exact Or.inr ⟨k, p, cause, q, hstops, hstops.evaluate⟩

/-- A run that is completed comes to the end. -/
theorem exists_reaches_of_completed (h : (d.evaluate s context clock).halt = none) :
    ∃ q, d.Reaches s ⟨context, clock, [], []⟩ d.nodes.length q ∧
      d.evaluate s context clock = q.toReport none := by
  rcases d.evaluate_cases s context clock with hend | ⟨k, p, cause, q, _, hr⟩
  · exact hend
  · rw [hr] at h
    cases h

/-- A run goes on behind a node that it comes to, or is stopped there. -/
theorem Reaches.cases (h : d.Reaches s start k p) (hn : d.nodes[k]? = some n) :
    (∃ q, p.step s k n = .ok q ∧ d.Reaches s start (k + 1) q) ∨
      ∃ cause q, p.step s k n = .error (cause, q) ∧ d.Stops s start k p cause q := by
  cases hs : p.step s k n with
  | ok q => exact Or.inl ⟨q, rfl, h.succ hn hs⟩
  | error stopped => exact Or.inr ⟨stopped.1, stopped.2, rfl, h, n, hn, hs⟩

end

end

end Document

end Tagtext
