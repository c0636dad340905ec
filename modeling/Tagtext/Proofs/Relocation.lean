import Tagtext.Proofs.Account
import Tagtext.Proofs.Isolation

/-!
# A pass over moved nodes

What a pass does with an offset is to hand it on: to a call, and to what it
reports.  So if the nodes of a document are moved by any function `f` on offsets,
the pass over them puts out the same, and its calls and reports are moved by `f`:

    (p.moved f t).step s i (n.mapOffset f) = the outcome of p.step s i n, moved    (step_moved)

One opening tag `t` without partner may have become a tag that stands alone: it
is then called in the same way, and what is missing is the report that it is
never closed (`step_moved_unclosed`).  `Pass.moved f t` leaves this report out.
-/

namespace Tagtext

/-! ## Moved offsets -/

/-- The same fault at the offset that `f` takes its offset to. -/
def ParseError.mapOffset (f : Nat → Nat) : ParseError → ParseError
  | unterminatedTag o => unterminatedTag (f o)
  | unterminatedQuote o => unterminatedQuote (f o)
  | unexpectedBracket o => unexpectedBracket (f o)
  | invalidTagName name o => invalidTagName name (f o)
  | invalidCloseTag raw o => invalidCloseTag raw (f o)
  | emptyArgumentName o => emptyArgumentName (f o)
  | unclosedTag name o => unclosedTag name (f o)
  | nestingTooDeep name o limit => nestingTooDeep name (f o) limit

/-- The same diagnostic at the offset that `f` takes its offset to. -/
def Diagnostic.mapOffset (f : Nat → Nat) : Diagnostic → Diagnostic
  | parse e => parse (e.mapOffset f)
  | unresolved name o => unresolved name (f o)
  | handlerFailed name o e => handlerFailed name (f o) e

/-- The same call for a tag at the offset that `f` takes its offset to. -/
def Call.mapOffset (f : Nat → Nat) (c : Call) : Call := { c with offset := f c.offset }

/-- The same tag at the offset that `f` takes its offset to. -/
def Tag.mapOffset (f : Nat → Nat) (t : Tag) : Tag := { t with start := f t.start }

/-- The same node at the offset that `f` takes its offset to. -/
def Node.mapOffset (f : Nat → Nat) : Node → Node
  | text t => text t
  | malformed raw e => malformed raw (e.mapOffset f)
  | tag t partner => tag (t.mapOffset f) partner

/-- The same frame, opened by a tag at the offset that `f` takes its offset to. -/
def Frame.mapOffset (f : Nat → Nat) (fr : Frame) : Frame :=
  { fr with opener := fr.opener.mapOffset f }

/-- The same stack, opened by tags at the offsets that `f` takes their offsets to. -/
def Stack.mapOffset (f : Nat → Nat) (s : Stack) : Stack :=
  { s with frames := s.frames.map (Frame.mapOffset f) }

/-- What is reported of an opening tag without partner. -/
def Tag.unclosed (t : Tag) : Diagnostic := .parse (.unclosedTag t.name t.start)

/-- What is left of some diagnostics, moved by `f`, when `t` is no opening tag. -/
def Diagnostic.moved (f : Nat → Nat) (t : Tag) (ds : List Diagnostic) : List Diagnostic :=
  (ds.filter (· ≠ t.unclosed)).map (mapOffset f)

/-- The same effects, moved by `f`, when `t` is no opening tag. -/
def Effects.moved (f : Nat → Nat) (t : Tag) (e : Effects) : Effects :=
  { e with diagnostics := Diagnostic.moved f t e.diagnostics, calls := e.calls.map (Call.mapOffset f) }

/-- The same pass, moved by `f`, when `t` is no opening tag. -/
def Pass.moved (f : Nat → Nat) (t : Tag) (p : Pass) : Pass :=
  { p with stack := p.stack.mapOffset f, effects := p.effects.moved f t }

/-! ## Lemmas -/

section
variable (f : Nat → Nat)

@[simp] theorem Tag.raw_mapOffset (t : Tag) : (t.mapOffset f).raw = t.raw := rfl

@[simp] theorem Node.raw_mapOffset (n : Node) : (n.mapOffset f).raw = n.raw := by
  cases n <;> rfl

@[simp] theorem Node.tag?_mapOffset (n : Node) :
    (n.mapOffset f).tag? = n.tag?.map (Tag.mapOffset f) := by
  cases n <;> rfl

@[simp] theorem Node.partner?_mapOffset (n : Node) : (n.mapOffset f).partner? = n.partner? := by
  cases n <;> rfl

namespace Stack

@[simp] theorem mapOffset_emit (s : Stack) (t : Text) :
    (s.emit t).mapOffset f = (s.mapOffset f).emit t := by
  obtain ⟨root, _ | ⟨fr, frs⟩⟩ := s
  · rfl
  · rfl

@[simp] theorem mapOffset_pop (s : Stack) : s.pop.mapOffset f = (s.mapOffset f).pop := by
  simp [pop, mapOffset]

@[simp] theorem unwind_mapOffset (s : Stack) : (s.mapOffset f).unwind = s.unwind := by
  simp [unwind, mapOffset, List.foldr_map, Frame.mapOffset]

end Stack

variable (t : Tag)

namespace Effects

theorem moved_report {d : Diagnostic} (hd : d ≠ t.unclosed) (e : Effects) :
    (e.report d).moved f t = (e.moved f t).report (d.mapOffset f) := by
  simp [moved, report, Diagnostic.moved, hd]

theorem moved_report_unclosed (e : Effects) : (e.report t.unclosed).moved f t = e.moved f t := by
  simp [moved, report, Diagnostic.moved]

/-- **A call for a moved tag** comes to the same, moved. -/
theorem invoke_moved (s : Setting) (tag : Tag) (content fallback : Text) (e : Effects) :
    (e.moved f t).invoke s (tag.mapOffset f) content fallback =
      ((e.invoke s tag content fallback).1, (e.invoke s tag content fallback).2.moved f t) := by
  have hcomes := comes_invoke s tag content fallback e
  generalize e.invoke s tag content fallback = r at hcomes ⊢
  have hcalls : ∀ context clock, moved f t ⟨context, clock, e.diagnostics,
      e.calls ++ [callOf tag content e]⟩ = ⟨context, clock, Diagnostic.moved f t e.diagnostics,
        e.calls.map (Call.mapOffset f) ++
          [callOf (tag.mapOffset f) content (e.moved f t)]⟩ := by
    intro context clock
    simp only [moved, List.map_append, List.map_singleton]
    rfl
  apply Comes.invoke_eq
  cases hcomes with
  | unknown h =>
    rw [moved_report f t (by simp [Tag.unclosed])]
    exact .unknown h
  | refused d cause time h hw => exact .refused d cause time h hw
  | abandoned d cause context clock h hw hp =>
    rw [hcalls]
    exact .abandoned d cause context clock h hw hp
  | answered d out context clock h hw hp =>
    rw [hcalls]
    exact .answered d out context clock h hw hp
  | failed d err context clock h hw hp =>
    have hfailed : Diagnostic.handlerFailed tag.name tag.start err ≠ t.unclosed := by
      simp [Tag.unclosed]
    have hreport := moved_report f t hfailed
      ⟨context, clock, e.diagnostics, e.calls ++ [callOf tag content e]⟩
    rw [hcalls] at hreport
    have hcomes' : Comes s (tag.mapOffset f) content fallback (e.moved f t) _ :=
      .failed d err context clock h hw hp
    exact hreport ▸ hcomes'

end Effects

namespace Pass

theorem moved_report {d : Diagnostic} (hd : d ≠ t.unclosed) (p : Pass) :
    (p.report d).moved f t = (p.moved f t).report (d.mapOffset f) :=
  congrArg (fun e => { p with stack := p.stack.mapOffset f, effects := e })
    (p.effects.moved_report f t hd)

theorem moved_report_unclosed (p : Pass) : (p.report t.unclosed).moved f t = p.moved f t :=
  congrArg (fun e => { p with stack := p.stack.mapOffset f, effects := e })
    (p.effects.moved_report_unclosed f t)

theorem moved_emit (p : Pass) (u : Text) : (p.emit u).moved f t = (p.moved f t).emit u := by
  simp [moved, emit]

theorem standalone_moved (s : Setting) (tag : Tag) (p : Pass) :
    (p.moved f t).standalone s (tag.mapOffset f) = mapOutcome (moved f t) (p.standalone s tag) := by
  have hinvoke := Effects.invoke_moved f t s tag [] tag.raw p.effects
  unfold standalone
  rw [show (p.moved f t).effects = p.effects.moved f t from rfl, Tag.raw_mapOffset, hinvoke]
  generalize p.effects.invoke s tag [] tag.raw = r
  obtain ⟨out | out, e⟩ := r
  · rfl
  · exact congrArg Except.ok (moved_emit f t { p with effects := e } out).symm

theorem close_moved (s : Setting) (fr : Frame) (closer : Tag) (p : Pass) :
    (p.moved f t).close s (fr.mapOffset f) (closer.mapOffset f) =
      mapOutcome (moved f t) (p.close s fr closer) := by
  have hinvoke := Effects.invoke_moved f t s fr.opener fr.buffer
    (fr.opener.raw ++ fr.buffer ++ closer.raw) p.effects
  unfold close
  simp only [show (p.moved f t).effects = p.effects.moved f t from rfl, Frame.mapOffset,
    Tag.raw_mapOffset, hinvoke]
  generalize p.effects.invoke s fr.opener fr.buffer (fr.opener.raw ++ fr.buffer ++ closer.raw) = r
  obtain ⟨out | out, e⟩ := r
  · rfl
  · have hstack : (p.moved f t).stack.pop = p.stack.pop.mapOffset f :=
      (p.stack.mapOffset_pop f).symm
    rw [hstack]
    exact congrArg Except.ok (moved_emit f t { p with effects := e, stack := p.stack.pop } out).symm

/-- **A step at a moved node** ends as the other step, moved. -/
theorem step_moved (s : Setting) (i : Nat) {n : Node} (hn : ∀ e, n.fault? = some e →
    .parse e ≠ t.unclosed) (p : Pass) :
    (p.moved f t).step s i (n.mapOffset f) = mapOutcome (moved f t) (p.step s i n) := by
  -- the other pass has as many frames and keeps the same nodes
  let p' := p.moved f t
  have hlen : p'.stack.frames.length = p.stack.frames.length := List.length_map _
  have ht := takes_step s i n p
  generalize p.step s i n = o at ht ⊢
  cases ht with
  | kept n hlt =>
    rw [step_kept (p := p') hlt, Node.raw_mapOffset]
    exact congrArg Except.ok (moved_emit f t p n.raw).symm
  | text u hle =>
    refine (step_text (p := p') hle u).trans ?_
    exact congrArg Except.ok (moved_emit f t p u).symm
  | malformed raw e hle =>
    refine (step_malformed (p := p') hle raw (e.mapOffset f)).trans ?_
    have hreport := moved_report f t (hn e rfl) p
    rw [mapOutcome, moved_emit, hreport]
    rfl
  | alone tag partner hle hk =>
    have hk' : (tag.mapOffset f).kind = .selfClosing := hk
    refine (step_alone (p := p') hle hk' partner).trans ?_
    exact standalone_moved f t s tag p
  | deep tag close hle hk hd =>
    have hk' : (tag.mapOffset f).kind = .opening := hk
    refine (step_deep (p := p') hle hk' (by rwa [hlen]) close).trans ?_
    have hreport := moved_report f t
      (d := .parse (.nestingTooDeep tag.name tag.start s.config.maxNestingDepth))
      (by simp [Tag.unclosed]) p
    have hemit := congrArg (Pass.emit tag.raw) hreport
    rw [← moved_emit] at hemit
    exact congrArg (fun q : Pass => Except.ok { q with keepUntil := close + 1 }) hemit.symm
  | opened tag close hle hk hd =>
    have hk' : (tag.mapOffset f).kind = .opening := hk
    exact step_opened (p := p') hle hk' (by rwa [hlen]) close
  | unclosed tag hle hk hu =>
    have hk' : (tag.mapOffset f).kind = .opening := hk
    refine (step_unclosed (p := p') hle hk' hu).trans ?_
    have hreport := moved_report f t
      (hn (.unclosedTag tag.name tag.start) (by simp [Node.fault?, hk])) p
    rw [← standalone_moved, hreport]
    rfl
  | stays tag hle hk hu =>
    have hk' : (tag.mapOffset f).kind = .opening := hk
    refine (step_stays (p := p') hle hk' hu).trans ?_
    have hreport := moved_report f t
      (hn (.unclosedTag tag.name tag.start) (by simp [Node.fault?, hk])) p
    rw [mapOutcome, moved_emit, hreport]
    rfl
  | closed tag fr frs hle hk hf =>
    have hk' : (tag.mapOffset f).kind = .closing := hk
    have hf' : p'.stack.frames = fr.mapOffset f :: frs.map (Frame.mapOffset f) := by
      rw [← List.map_cons, ← hf]
      rfl
    refine (step_closed (p := p') hle hk' hf').trans ?_
    exact close_moved f t s fr tag p
  | orphan tag partner hle hk hf =>
    have hk' : (tag.mapOffset f).kind = .closing := hk
    have hf' : ∀ fr' frs', p'.stack.frames = fr' :: frs' → partner ≠ some fr'.node := by
      intro fr' frs' hfr
      obtain ⟨fr, frs, hfs, rfl, _⟩ := List.map_eq_cons_iff.1 hfr
      exact hf fr frs hfs
    refine (step_orphan (p := p') hle hk' partner hf').trans ?_
    exact congrArg Except.ok (moved_emit f t p tag.raw).symm

end Pass

end

/-! ## A tag that stands alone -/

section
variable {s : Setting} {f : Nat → Nat} {t : Tag}

/-- A call for a known tag has no use for how the tag is written. -/
theorem Effects.invoke_of_known (h : s.table.contains t.name = true)
    (content fallback fallback' : Text) (e : Effects) :
    e.invoke s t content fallback = e.invoke s t content fallback' := by
  unfold invoke
  cases hd : s.table.get? t.name with
  | none =>
    rw [Table.contains, hd] at h
    cases h
  | some d => rfl

theorem Pass.standalone_of_known (h : s.table.contains t.name = true) (kind : TagKind) (raw : Text)
    (p : Pass) : p.standalone s { t with kind, raw } = p.standalone s t := by
  have hinvoke : p.effects.invoke s { t with kind, raw } [] raw =
      p.effects.invoke s t [] t.raw := Effects.invoke_of_known h [] raw t.raw p.effects
  unfold standalone
  rw [hinvoke]

/-- **Where the tag stands alone** it is called as when it is never closed, and not reported. -/
theorem Pass.step_moved_unclosed {i : Nat} {p : Pass} (hle : p.keepUntil ≤ i)
    (hk : t.kind = .opening) (hu : s.config.unclosed = .standalone)
    (hknown : s.table.contains t.name = true) (hf : f t.start = t.start) (raw : Text) :
    (p.moved f t).step s i (.tag { t with kind := .selfClosing, raw } none) =
      mapOutcome (moved f t) (p.step s i (.tag t none)) := by
  have hsame : t.mapOffset f = t := by rw [Tag.mapOffset, hf]
  have halone : (p.moved f t).step s i (.tag { t with kind := .selfClosing, raw } none) =
      (p.moved f t).standalone s { t with kind := .selfClosing, raw } :=
    step_alone (p := p.moved f t) hle rfl none
  have hmoved := standalone_moved f t s t (p.report t.unclosed)
  rw [moved_report_unclosed, hsame] at hmoved
  rw [halone, standalone_of_known hknown, hmoved, step_unclosed hle hk hu]
  rfl

end

/-! ## Runs -/

/-- The same report, moved by `f`, when `t` is no opening tag. -/
def Report.moved (f : Nat → Nat) (t : Tag) (r : Report) : Report :=
  { r with diagnostics := Diagnostic.moved f t r.diagnostics, calls := r.calls.map (Call.mapOffset f) }

theorem Pass.toReport_moved (f : Nat → Nat) (t : Tag) (halt : Option Halt) (p : Pass) :
    (p.moved f t).toReport halt = (p.toReport halt).moved f t := by
  simp [toReport, Report.moved, moved, Effects.moved]

namespace Document

/-- `d'` is `d` moved by `f`, but for the opening tag `t` without partner at node `i`, which stands
alone in `d'`. -/
structure StandsAlone (f : Nat → Nat) (t : Tag) (i : Nat) (d d' : Document) : Prop where
  length : d'.nodes.length = d.nodes.length
  unclosed : d.nodes[i]? = some (.tag t none)
  kind : t.kind = .opening
  start : f t.start = t.start
  alone : ∃ raw, d'.nodes[i]? = some (.tag { t with kind := .selfClosing, raw } none)
  others : ∀ k, k ≠ i → d'.nodes[k]? = d.nodes[k]?.map (Node.mapOffset f)
  /-- No other node has the fault that `t` is never closed. -/
  distinct : ∀ k n e, k ≠ i → d.nodes[k]? = some n → n.fault? = some e → .parse e ≠ t.unclosed

namespace StandsAlone

variable {f : Nat → Nat} {t : Tag} {i : Nat} {d d' : Document} {s : Setting} {start : Effects}
  (h : StandsAlone f t i d d') (hm : d.Matched) (hu : s.config.unclosed = .standalone)
  (hknown : s.table.contains t.name = true) (hecho : ¬ d.Echoed s.config.maxNestingDepth i)
include h hm hu hknown hecho

/-- Wherever a run comes, the other step ends as its step, moved. -/
theorem exists_step {k : Nat} {p : Pass} {n : Node} (hp : d.Reaches s start k p)
    (hn : d.nodes[k]? = some n) : ∃ n', d'.nodes[k]? = some n' ∧
      (p.moved f t).step s k n' = Pass.mapOutcome (Pass.moved f t) (p.step s k n) := by
  by_cases hk : k = i
  · subst hk
    obtain ⟨raw, halone⟩ := h.alone
    rw [h.unclosed] at hn
    cases hn
    have hle := (hp.stands hm).keepUntil_le hecho
    exact ⟨_, halone, Pass.step_moved_unclosed hle h.kind hu hknown h.start raw⟩
  · have hn' := h.others k hk
    rw [hn, Option.map_some] at hn'
    exact ⟨_, hn', Pass.step_moved f t s k (fun e he => h.distinct k n e hk hn he) p⟩

/-- **Wherever a run comes**, the other run comes, moved. -/
theorem reaches {k : Nat} : ∀ {p : Pass}, d.Reaches s start k p →
    d'.Reaches s (start.moved f t) k (p.moved f t) := by
  induction k with
  | zero =>
    intro p hp
    rw [hp.unique (reaches_zero d s start)]
    exact reaches_zero d' s (start.moved f t)
  | succ k ih =>
    intro q hq
    obtain ⟨n, p, hn, hp, hs⟩ := hq.exists_of_succ
    obtain ⟨n', hn', hstep⟩ := h.exists_step hm hu hknown hecho hp hn
    rw [hs] at hstep
    exact (ih hp).succ hn' hstep

/-- **The other run** ends as the run, moved. -/
theorem evaluate_eq (context : Context) (clock : Clock) :
    d'.evaluate s context clock = (d.evaluate s context clock).moved f t := by
  rcases d.evaluate_cases s context clock with ⟨q, hq, hr⟩ | ⟨k, p, cause, q, hstops, hr⟩
  · have hq' := h.reaches hm hu hknown hecho hq
    rw [← h.length] at hq'
    rw [hr, evaluate_of_reaches hq', Pass.toReport_moved]
  · obtain ⟨n, hn, hs⟩ := hstops.step
    obtain ⟨n', hn', hstep⟩ := h.exists_step hm hu hknown hecho hstops.reaches hn
    rw [hs] at hstep
    have hstops' : d'.Stops s ⟨context, clock, [], []⟩ k (p.moved f t) cause (q.moved f t) :=
      ⟨h.reaches hm hu hknown hecho hstops.reaches, n', hn', hstep⟩
    rw [hr, hstops'.evaluate, Pass.toReport_moved]

end StandsAlone

end Document

end Tagtext
