import Tagtext.Proofs.Depth
import Tagtext.Proofs.Slicing

/-!
# The pass by index

A pass that remembers less: it has the index of the node to be taken next, jumps
over a pair that stays as it is written, and a frame has the index of an opening
tag, not the tag.  So more can go wrong.  A closing tag may have a partner and
another frame on top of the stack, or find no tag where its frame says; the pair
that is jumped over may have no end, or not be a slice of the source.  Each of
these has a branch of its own, or a step without result, and none is ever taken:

    a step by index is one of the pass, or takes a pair as a whole
                                                      (step_ofPass, step_ofPass_deep)
    where it comes, a pass comes with the same stack         (Visits.exists_reaches)
    and `Balanced` holds of it                                     (Visits.balanced)
    it comes to an end, with the report of the pass                       (ends_iff)
-/

namespace Tagtext

/-! ## Algorithm -/

/-- An open pair: the index of its opening tag, and its content so far. -/
structure OpenPair where
  node : Nat
  buffer : Text

/-- How far an indexed pass has come: the index of the node to be taken next, the text put out
outside all pairs, and the pairs that are open, the innermost first. -/
structure IndexedPass where
  index : Nat
  root : Text
  frames : List OpenPair
  effects : Effects

namespace IndexedPass

/-- Nothing is taken. -/
def start (e : Effects) : IndexedPass := ⟨0, [], [], e⟩

/-- Puts out text in the innermost open pair. -/
def emit (t : Text) (c : IndexedPass) : IndexedPass :=
  match c.frames with
  | [] => { c with root := c.root ++ t }
  | f :: fs => { c with frames := { f with buffer := f.buffer ++ t } :: fs }

/-- Reports a diagnostic. -/
def report (d : Diagnostic) (c : IndexedPass) : IndexedPass :=
  { c with effects := c.effects.report d }

/-- Goes on to the next node. -/
def advance (c : IndexedPass) : IndexedPass := { c with index := c.index + 1 }

/-- The indices of the opening tags of the open pairs, the outermost first. -/
def opened (c : IndexedPass) : List Nat := (c.frames.map (·.node)).reverse

/-- All text put out.  In front of what an open pair holds goes its opening tag, if it is found. -/
def unwind (d : Document) (c : IndexedPass) : Text :=
  c.frames.foldr (fun f t => t ++ ((tagAt d.nodes f.node).map (·.raw)).getD [] ++ f.buffer) c.root

/-- The report of a pass that has come this far. -/
def toReport (d : Document) (halt : Option Halt) (c : IndexedPass) : Report where
  halt
  output := c.unwind d
  diagnostics := c.effects.diagnostics
  context := c.effects.context
  calls := c.effects.calls
  clock := c.effects.clock

/-- What is done with a node. -/
inductive Branch where
  | text (t : Text)
  | malformed (raw : Text) (error : ParseError)
  /-- A tag that stands alone. -/
  | alone (tag : Tag)
  /-- A pair inside too many others, up to the node at `close`. -/
  | deep (tag : Tag) (close : Nat)
  /-- A pair begins. -/
  | opened (tag : Tag)
  /-- An opening tag without partner. -/
  | unclosed (tag : Tag)
  /-- The innermost pair ends. -/
  | closed (f : OpenPair) (outer : List OpenPair) (opener closer : Tag)
  /-- The innermost pair ends, and at the index it began at no tag is found. -/
  | missing (f : OpenPair) (outer : List OpenPair)
  /-- A closing tag that does not end the innermost pair. -/
  | orphan (closer : Tag)

/-- Which branch a node takes. -/
def branch (s : Setting) (d : Document) (c : IndexedPass) : Node → Branch
  | .text t => .text t
  | .malformed raw e => .malformed raw e
  | .tag tag partner =>
    match tag.kind, partner with
    | .selfClosing, _ => .alone tag
    | .opening, some close =>
      if s.config.maxNestingDepth ≤ c.frames.length then .deep tag close else .opened tag
    | .opening, none => .unclosed tag
    | .closing, some opener =>
      match c.frames with
      | f :: outer =>
        if f.node = opener then
          match tagAt d.nodes opener with
          | some t => .closed f outer t tag
          | none => .missing f outer
        else .orphan tag
      | [] => .orphan tag
    | .closing, none => .orphan tag

/-- Puts out what the handler of a tag without content returns. -/
def standalone (s : Setting) (tag : Tag) (c : IndexedPass) :
    Except (Halt × IndexedPass) IndexedPass :=
  match c.effects.invoke s tag [] tag.raw with
  | (.ok out, e) => .ok ({ c with effects := e }.emit out).advance
  | (.error cause, e) => .error (cause, { c with effects := e })

/-- Takes the innermost pair off the stack and puts out what its handler returns.  If the call is
interrupted the pair is put back. -/
def close (s : Setting) (f : OpenPair) (outer : List OpenPair) (opener closer : Tag)
    (c : IndexedPass) : Except (Halt × IndexedPass) IndexedPass :=
  let popped := { c with frames := outer }
  match c.effects.invoke s opener f.buffer (opener.raw ++ f.buffer ++ closer.raw) with
  | (.ok out, e) => .ok ({ popped with effects := e }.emit out).advance
  | (.error cause, e) => .error (cause, { popped with effects := e, frames := f :: outer })

/-- Takes the node at the index.  There is no result where a slice fails. -/
def step (s : Setting) (d : Document) (n : Node) (c : IndexedPass) :
    Option (Except (Halt × IndexedPass) IndexedPass) :=
  match c.branch s d n with
  | .text t => some (.ok (c.emit t).advance)
  | .malformed raw e => some (.ok ((c.report (.parse e)).emit raw).advance)
  | .alone tag => some (c.standalone s tag)
  | .deep tag close => do
    -- without a tag at `close` the slice would end with the opening tag
    let stop := ((tagAt d.nodes close).map (·.stop)).getD tag.stop
    let raw ← slice? d.source tag.start stop
    let e := .nestingTooDeep tag.name tag.start s.config.maxNestingDepth
    return .ok { (c.report (.parse e)).emit raw with index := close + 1 }
  | .opened _ => some (.ok { c with frames := ⟨c.index, []⟩ :: c.frames }.advance)
  | .unclosed tag =>
    let c := c.report (.parse (.unclosedTag tag.name tag.start))
    match s.config.unclosed with
    | .standalone => some (c.standalone s tag)
    | .literal => some (.ok (c.emit tag.raw).advance)
  | .closed f outer opener closer => some (c.close s f outer opener closer)
  | .missing f outer => some (.ok ({ c with frames := outer }.emit f.buffer).advance)
  | .orphan closer => some (.ok (c.emit closer.raw).advance)

/-- Where an indexed pass comes. -/
inductive Visits (d : Document) (s : Setting) (e : Effects) : IndexedPass → Prop
  | start : Visits d s e (start e)
  | step {c c' : IndexedPass} {n : Node} (h : Visits d s e c) (hn : d.nodes[c.index]? = some n)
      (hs : c.step s d n = some (.ok c')) : Visits d s e c'

/-- How an indexed pass ends: behind the last node, or where it is interrupted. -/
inductive Ends (d : Document) (s : Setting) (e : Effects) : Report → Prop
  | completed {c : IndexedPass} (h : Visits d s e c) (hc : d.nodes.length ≤ c.index) :
      Ends d s e (c.toReport d none)
  | stopped {c c' : IndexedPass} {n : Node} {cause : Halt} (h : Visits d s e c)
      (hn : d.nodes[c.index]? = some n) (hs : c.step s d n = some (.error (cause, c'))) :
      Ends d s e (c'.toReport d (some cause))

/-- What holds of an indexed pass wherever it comes. -/
structure Balanced (d : Document) (s : Setting) (c : IndexedPass) : Prop where
  increasing : c.opened.Pairwise (· < ·)
  /-- What is open is what was opened around the node. -/
  mem_opened : ∀ i, i ∈ c.opened ↔
    ∃ j, d.Pair i j ∧ d.enclosing i j < s.config.maxNestingDepth ∧ i < c.index ∧ c.index ≤ j
  /-- The tag of a frame is found. -/
  found : ∀ i ∈ c.opened, ∃ t, tagAt d.nodes i = some t ∧ t.kind = .opening
  /-- A pair inside too many others is passed over as a whole. -/
  outside : ∀ i j, d.Pair i j → s.config.maxNestingDepth ≤ d.enclosing i j → i < c.index →
    j < c.index
  /-- A closing tag with a partner ends the pair on top of the stack. -/
  closes : ∀ closer i, d.nodes[c.index]? = some (.tag closer (some i)) → closer.kind = .closing →
    ∃ content outer opener, c.frames = ⟨i, content⟩ :: outer ∧ tagAt d.nodes i = some opener ∧
      c.branch s d (.tag closer (some i)) = .closed ⟨i, content⟩ outer opener closer
  /-- No branch is taken that is there for what cannot be. -/
  taken : ∀ n, d.nodes[c.index]? = some n → (∃ r, c.step s d n = some r) ∧
    (∀ f outer, c.branch s d n ≠ .missing f outer) ∧
    (∀ closer, c.branch s d n = .orphan closer → n.partner? = none) ∧
    ∀ tag close, c.branch s d n = .deep tag close → ∃ t, tagAt d.nodes close = some t
  /-- An interruption leaves the stack as it was. -/
  kept : ∀ n cause c', d.nodes[c.index]? = some n → c.step s d n = some (.error (cause, c')) →
    c'.index = c.index ∧ c'.root = c.root ∧ c'.frames = c.frames
  /-- Behind the last node nothing is open. -/
  ended : d.nodes.length ≤ c.index →
    c.index = d.nodes.length ∧ c.frames = [] ∧ c.unwind d = c.root

/-! ## The two passes -/

/-- What an indexed pass has where a pass has come to node `k`. -/
def ofPass (k : Nat) (p : Pass) : IndexedPass :=
  ⟨k, p.stack.root, p.stack.frames.map fun f => ⟨f.node, f.buffer⟩, p.effects⟩

/-- What a step by index comes to where a step comes to this. -/
def along (k : Nat) : Except (Halt × Pass) Pass → Except (Halt × IndexedPass) IndexedPass
  | .ok q => .ok (ofPass (k + 1) q)
  | .error (cause, q) => .error (cause, ofPass k q)

section
variable {k : Nat} {p : Pass}

theorem emit_ofPass (t : Text) : (ofPass k p).emit t = ofPass k (p.emit t) := by
  obtain ⟨⟨root, _ | ⟨f, fs⟩⟩, e, keep⟩ := p <;> rfl

theorem report_ofPass (d : Diagnostic) : (ofPass k p).report d = ofPass k (p.report d) := rfl

theorem advance_emit_ofPass (t : Text) :
    ((ofPass k p).emit t).advance = ofPass (k + 1) (p.emit t) :=
  congrArg advance (emit_ofPass t)

theorem opened_ofPass : (ofPass k p).opened = p.stack.nodes.reverse := by
  simp [opened, ofPass, Stack.nodes, Function.comp_def]

theorem length_frames_ofPass : (ofPass k p).frames.length = p.stack.frames.length := by
  simp [ofPass]

/-- The tags that the frames name are those that the pass has. -/
theorem unwind_ofPass {d : Document}
    (h : p.stack.nodes.map (tagAt d.nodes) = p.stack.openers.map some) :
    (ofPass k p).unwind d = p.stack.unwind := by
  obtain ⟨⟨root, frames⟩, e, keep⟩ := p
  simp only [unwind, ofPass, Stack.unwind, Stack.nodes, Stack.openers] at h ⊢
  induction frames with
  | nil => rfl
  | cons f fs ih =>
    simp only [List.map_cons, List.cons.injEq] at h
    simp only [List.map_cons, List.foldr_cons, ih h.2, h.1]
    rfl

theorem toReport_ofPass {d : Document} (halt : Option Halt)
    (h : p.stack.nodes.map (tagAt d.nodes) = p.stack.openers.map some) :
    (ofPass k p).toReport d halt = p.toReport halt := by
  unfold toReport Pass.toReport
  rw [unwind_ofPass h]
  rfl

theorem standalone_ofPass (s : Setting) (tag : Tag) :
    (ofPass k p).standalone s tag = along k (p.standalone s tag) := by
  unfold standalone Pass.standalone
  rw [show (ofPass k p).effects = p.effects from rfl]
  rcases p.effects.invoke s tag [] tag.raw with ⟨_ | out, e⟩
  · rfl
  · exact congrArg Except.ok (advance_emit_ofPass (p := { p with effects := e }) out)

theorem close_ofPass (s : Setting) {f : Frame} {fs : List Frame} (hf : p.stack.frames = f :: fs)
    (closer : Tag) :
    (ofPass k p).close s ⟨f.node, f.buffer⟩ (fs.map fun f => ⟨f.node, f.buffer⟩) f.opener closer =
      along k (p.close s f closer) := by
  obtain ⟨⟨root, frames⟩, e, keep⟩ := p
  cases hf
  unfold close Pass.close
  simp only [ofPass]
  rcases e.invoke s f.opener f.buffer (f.opener.raw ++ f.buffer ++ closer.raw) with ⟨_ | out, e'⟩
  · rfl
  · exact congrArg Except.ok (advance_emit_ofPass (p := ⟨⟨root, fs⟩, e', keep⟩) out)

end

/-! ## Steps -/

section
variable {d : Document} {s : Setting} {k : Nat} {n : Node} {p : Pass}

/-- A closing tag without partner ends nothing. -/
theorem branch_closing_none {c : IndexedPass} {closer : Tag} (hk : closer.kind = .closing) :
    c.branch s d (.tag closer none) = .orphan closer := by
  simp only [branch, hk]

theorem branch_opening {c : IndexedPass} {tag : Tag} (hk : tag.kind = .opening) (close : Nat) :
    c.branch s d (.tag tag (some close)) =
      if s.config.maxNestingDepth ≤ c.frames.length then .deep tag close else .opened tag := by
  simp only [branch, hk]

variable (hm : d.Matched) (hn : d.nodes[k]? = some n) (hp : p.Stands d s.config.maxNestingDepth k)
  (hle : p.keepUntil ≤ k)
include hm hn hp hle

/-- **A closing tag with a partner ends the innermost pair**, and the tag of that pair is found. -/
theorem exists_closed {closer : Tag} {i : Nat} (htag : n = .tag closer (some i))
    (hk : closer.kind = .closing) : ∃ f fs, p.stack.frames = f :: fs ∧ f.node = i ∧
      tagAt d.nodes i = some f.opener ∧ (ofPass k p).branch s d n =
        .closed ⟨i, f.buffer⟩ (fs.map fun f => ⟨f.node, f.buffer⟩) f.opener closer := by
  subst htag
  have hpair : d.Pair i k :=
    hm.pair_of_closing (by simp [Document.partnerAt, hn, Node.partner?])
      (by simp [tagAt, hn, Node.tag?]) hk
  obtain ⟨f, fs, hf, rfl, hopener⟩ := hp.exists_frame hm hle hpair
  refine ⟨f, fs, hf, rfl, hopener, ?_⟩
  simp only [branch, hk, ofPass, hf, List.map_cons, if_true, hopener]

/-- A step by index is that of the pass, unless a pair inside too many others begins. -/
theorem step_ofPass (hshallow : ∀ tag close, (ofPass k p).branch s d n ≠ .deep tag close) :
    (ofPass k p).step s d n = some (along k (p.step s k n)) := by
  have ht := Pass.takes_step s k n p
  generalize p.step s k n = r at ht
  cases ht with
  | kept n hlt => omega
  | text t _ => simp only [step, branch, advance_emit_ofPass, along]
  | malformed raw e _ => simp only [step, branch, report_ofPass, advance_emit_ofPass, along]
  | alone tag partner _ hk => simp only [step, branch, hk, standalone_ofPass]
  | deep tag close _ hk hd =>
    refine absurd ?_ (hshallow tag close)
    rw [branch_opening hk, length_frames_ofPass, if_pos hd]
  | opened tag close _ hk hd =>
    rw [step, branch_opening hk, length_frames_ofPass, if_neg (by omega)]
    rfl
  | unclosed tag _ hk hu =>
    simp only [step, branch, hk, hu, report_ofPass, standalone_ofPass]
  | stays tag _ hk hu =>
    simp only [step, branch, hk, hu, report_ofPass, advance_emit_ofPass, along]
  | closed tag f fs _ hk hf =>
    obtain ⟨f', fs', hf', _, _, hbranch⟩ := exists_closed hm hn hp hle rfl hk
    rw [hf] at hf'
    cases hf'
    rw [step, hbranch]
    exact congrArg some (close_ofPass s hf tag)
  | orphan tag partner _ hk hf =>
    cases partner with
    | none =>
      simp only [step, branch_closing_none hk, advance_emit_ofPass, along]
    | some i =>
      obtain ⟨f, fs, hf', rfl, _⟩ := exists_closed hm hn hp hle rfl hk
      exact absurd rfl (hf f fs hf')

end

/-- A pair is taken as a whole where it begins inside too many others, and nowhere else. -/
theorem branch_eq_deep_iff {s : Setting} {d : Document} {c : IndexedPass} {n : Node} {tag : Tag}
    {close : Nat} : c.branch s d n = .deep tag close ↔
      n = .tag tag (some close) ∧ tag.kind = .opening ∧
        s.config.maxNestingDepth ≤ c.frames.length := by
  constructor
  · intro h
    unfold branch at h
    split at h
    · cases h
    · cases h
    · split at h
      · cases h
      · next hk =>
        split at h
        · next hd =>
          cases h
          exact ⟨rfl, hk, hd⟩
        · cases h
      · cases h
      · split at h
        · split at h
          · split at h <;> cases h
          · cases h
        · cases h
      · cases h
  · rintro ⟨rfl, hk, hd⟩
    rw [branch_opening hk, if_pos hd]

/-- Only a closing tag can miss the tag that it closes, or end nothing. -/
theorem exists_closing_of_branch {s : Setting} {d : Document} {c : IndexedPass} {n : Node}
    (h : (∃ f outer, c.branch s d n = .missing f outer) ∨
      ∃ closer, c.branch s d n = .orphan closer) :
    ∃ closer partner, n = .tag closer partner ∧ closer.kind = .closing := by
  cases n with
  | text t => simp [branch] at h
  | malformed raw e => simp [branch] at h
  | tag tag partner =>
    cases hk : tag.kind with
    | closing => exact ⟨tag, partner, rfl, hk⟩
    | selfClosing => simp [branch, hk] at h
    | opening =>
      cases partner with
      | none => simp [branch, hk] at h
      | some close =>
        rw [branch_opening hk] at h
        split at h <;> simp at h

/-- A step behind the kept nodes keeps nothing from the next node on, unless a pair inside too many
others begins. -/
theorem keepUntil_of_step {s : Setting} {k : Nat} {n : Node} {p q : Pass} (hle : p.keepUntil ≤ k)
    (hshallow : ∀ tag close, n = .tag tag (some close) → tag.kind = .opening →
      p.stack.frames.length < s.config.maxNestingDepth)
    (hs : p.step s k n = .ok q) : q.keepUntil ≤ k := by
  have ht := Pass.takes_step s k n p
  generalize p.step s k n = r at ht hs
  cases ht with
  | alone tag partner _ hk =>
    obtain ⟨out, e, _, rfl⟩ := Pass.exists_of_standalone_ok hs
    exact hle
  | deep tag close _ hk hd =>
    have := hshallow tag close rfl hk
    omega
  | unclosed tag _ hk hu =>
    obtain ⟨out, e, _, rfl⟩ := Pass.exists_of_standalone_ok hs
    exact hle
  | closed tag f fs _ hk hf =>
    obtain ⟨out, e, _, rfl⟩ := Pass.exists_of_close_ok hs
    exact hle
  | _ =>
    cases hs
    exact hle

/-! ## Where an indexed pass comes -/

section
variable {input : Text} {s : Setting} {e : Effects}

/-- **A pair inside too many others is taken as a whole.**  Its end is found, it is a slice of the
source, and behind it a pass comes with the same stack. -/
theorem step_ofPass_deep {k close : Nat} {tag : Tag} {p : Pass}
    (h : (Document.parse input).Reaches s e k p) (hle : p.keepUntil ≤ k)
    (hn : (Document.parse input).nodes[k]? = some (.tag tag (some close)))
    (hk : tag.kind = .opening) (hd : s.config.maxNestingDepth ≤ p.stack.frames.length) :
    k < close ∧ (∃ t, tagAt (Document.parse input).nodes close = some t) ∧
      ∃ q, (Document.parse input).Reaches s e (close + 1) q ∧ q.keepUntil = close + 1 ∧
        (ofPass k p).step s (Document.parse input) (.tag tag (some close)) =
          some (.ok (ofPass (close + 1) q)) := by
  have hm := Document.matched_parse input
  have htag : tagAt (Document.parse input).nodes k = some tag := by simp [tagAt, hn, Node.tag?]
  have hpair : (Document.parse input).Pair k close :=
    hm.pair_of_opening (by simp [Document.partnerAt, hn, Node.partner?]) htag hk
  have hframes := (h.stands hm).length_frames hm hle hpair
  have hlimit := h.frames_le
  obtain ⟨q, hq, hstack, heffects, hkeep⟩ :=
    h.exists_reaches_behind hm hpair (by omega) htag
  obtain ⟨_, closer, _, hcloser, _⟩ := hm.isMatching.tags hpair
  obtain ⟨before, after, hinput, hbefore, hstop⟩ :=
    Document.exists_written (Nat.le_of_lt hpair.1) htag hcloser
  rw [byteLength_append, hbefore] at hstop
  have hslice := slice?_eq_some_iff.2 ⟨before, after, hinput, hbefore, hstop⟩
  refine ⟨hpair.1, ⟨closer, hcloser⟩, q, hq, hkeep, ?_⟩
  have hbranch : (ofPass k p).branch s (Document.parse input) (.tag tag (some close)) =
      .deep tag close := branch_eq_deep_iff.2 ⟨rfl, hk, by rwa [length_frames_ofPass]⟩
  rw [step, hbranch]
  simp only [hcloser, Option.map_some, Option.getD_some, Document.source_parse, hslice,
    Option.bind_eq_bind, Option.bind_some, report_ofPass, emit_ofPass]
  simp only [ofPass, hstack, heffects]
  rfl

/-- **What a step by index comes to**: a node further behind that a pass comes to as well, or the
interruption of that pass. -/
theorem step_ofPass_cases {k : Nat} {n : Node} {p : Pass}
    (h : (Document.parse input).Reaches s e k p) (hle : p.keepUntil ≤ k)
    (hn : (Document.parse input).nodes[k]? = some n) :
    (∃ m q, k < m ∧ (Document.parse input).Reaches s e m q ∧ q.keepUntil ≤ m ∧
      (ofPass k p).step s (Document.parse input) n = some (.ok (ofPass m q))) ∨
    ∃ cause q, p.step s k n = .error (cause, q) ∧
      (ofPass k p).step s (Document.parse input) n = some (.error (cause, ofPass k q)) := by
  have hm := Document.matched_parse input
  by_cases hdeep : ∃ tag close, (ofPass k p).branch s (Document.parse input) n = .deep tag close
  · obtain ⟨tag, close, hbranch⟩ := hdeep
    obtain ⟨rfl, hk, hd⟩ := branch_eq_deep_iff.1 hbranch
    rw [length_frames_ofPass] at hd
    obtain ⟨hlt, _, q, hq, hkeep, hstep⟩ := step_ofPass_deep h hle hn hk hd
    exact Or.inl ⟨close + 1, q, Nat.lt_succ_of_lt hlt, hq, Nat.le_of_eq hkeep, hstep⟩
  · simp only [not_exists] at hdeep
    have hshallow : ∀ tag close, n = .tag tag (some close) → tag.kind = .opening →
        p.stack.frames.length < s.config.maxNestingDepth := by
      intro tag close htag hk
      by_contra hd
      refine hdeep tag close (branch_eq_deep_iff.2 ⟨htag, hk, ?_⟩)
      rw [length_frames_ofPass]
      omega
    rw [step_ofPass hm hn (h.stands hm) hle hdeep]
    cases hq : p.step s k n with
    | ok q =>
      exact Or.inl ⟨k + 1, q, Nat.lt_succ_self k, h.succ hn hq,
        Nat.le_succ_of_le (keepUntil_of_step hle hshallow hq), rfl⟩
    | error stopped => exact Or.inr ⟨stopped.1, stopped.2, rfl, rfl⟩

/-- **Where an indexed pass comes, a pass comes with the same stack**, and keeps nothing there. -/
theorem Visits.exists_reaches {c : IndexedPass} (h : Visits (Document.parse input) s e c) :
    ∃ p, (Document.parse input).Reaches s e c.index p ∧ p.keepUntil ≤ c.index ∧
      c = ofPass c.index p := by
  induction h with
  | start => exact ⟨_, (Document.parse input).reaches_zero s e, Nat.le_refl 0, rfl⟩
  | @step c c' n h hn hs ih =>
    obtain ⟨p, hp, hle, hc⟩ := ih
    generalize c.index = k at hp hle hc hn
    subst hc
    rcases step_ofPass_cases hp hle hn with ⟨m, q, _, hq, hkeep, hs'⟩ | ⟨cause, q, _, hs'⟩
    · rw [hs] at hs'
      cases hs'
      exact ⟨q, hq, hkeep, rfl⟩
    · rw [hs] at hs'
      cases hs'

/-- **Every step has a result**: the pass goes on further behind, or is interrupted and leaves the
stack as it was. -/
theorem Visits.step_cases {c : IndexedPass} {n : Node} (h : Visits (Document.parse input) s e c)
    (hn : (Document.parse input).nodes[c.index]? = some n) :
    (∃ c', c.step s (Document.parse input) n = some (.ok c') ∧ c.index < c'.index) ∨
      ∃ cause c', c.step s (Document.parse input) n = some (.error (cause, c')) ∧
        c'.index = c.index ∧ c'.root = c.root ∧ c'.frames = c.frames := by
  obtain ⟨p, hp, hle, hc⟩ := h.exists_reaches
  generalize c.index = k at hp hle hc hn
  subst hc
  rcases step_ofPass_cases hp hle hn with ⟨m, q, hlt, _, _, hs⟩ | ⟨cause, q, hq, hs⟩
  · exact Or.inl ⟨_, hs, hlt⟩
  · have hstack := Pass.stack_of_step_error hq
    refine Or.inr ⟨cause, _, hs, rfl, ?_, ?_⟩
    · simp only [ofPass, hstack]
    · simp only [ofPass, hstack]

theorem Visits.index_le {c : IndexedPass} (h : Visits (Document.parse input) s e c) :
    c.index ≤ (Document.parse input).nodes.length := by
  obtain ⟨p, hp, _⟩ := h.exists_reaches
  exact hp.le

/-- What is open is what was opened around the node. -/
theorem Visits.mem_opened {c : IndexedPass} (h : Visits (Document.parse input) s e c) (i : Nat) :
    i ∈ c.opened ↔ ∃ j, (Document.parse input).Pair i j ∧
      (Document.parse input).enclosing i j < s.config.maxNestingDepth ∧
      i < c.index ∧ c.index ≤ j := by
  obtain ⟨p, hp, _, hc⟩ := h.exists_reaches
  rw [hc, opened_ofPass, List.mem_reverse, (hp.stands (Document.matched_parse input)).nodes,
    Document.mem_expandedAt]
  rfl

theorem Visits.increasing {c : IndexedPass} (h : Visits (Document.parse input) s e c) :
    c.opened.Pairwise (· < ·) := by
  obtain ⟨p, hp, _, hc⟩ := h.exists_reaches
  rw [hc, opened_ofPass, (hp.stands (Document.matched_parse input)).nodes]
  exact List.pairwise_reverse.2 ((Document.descending_openAt _ _).filter _)

theorem Visits.exists_closed {c : IndexedPass} (h : Visits (Document.parse input) s e c)
    {closer : Tag} {i : Nat}
    (hn : (Document.parse input).nodes[c.index]? = some (.tag closer (some i)))
    (hk : closer.kind = .closing) :
    ∃ content outer opener, c.frames = ⟨i, content⟩ :: outer ∧
      tagAt (Document.parse input).nodes i = some opener ∧
      c.branch s (Document.parse input) (.tag closer (some i)) =
        .closed ⟨i, content⟩ outer opener closer := by
  have hm := Document.matched_parse input
  obtain ⟨p, hp, hle, hc⟩ := h.exists_reaches
  obtain ⟨f, fs, hf, rfl, hopener, hbranch⟩ :=
    IndexedPass.exists_closed hm hn (hp.stands hm) hle rfl hk
  rw [hc]
  exact ⟨f.buffer, _, f.opener, by simp [ofPass, hf], hopener, hbranch⟩

/-- **No closing tag misses what it closes, and none with a partner ends nothing.** -/
theorem Visits.branch_closing {c : IndexedPass} (h : Visits (Document.parse input) s e c) {n : Node}
    (hn : (Document.parse input).nodes[c.index]? = some n) :
    (∀ f outer, c.branch s (Document.parse input) n ≠ .missing f outer) ∧
      ∀ closer, c.branch s (Document.parse input) n = .orphan closer → n.partner? = none := by
  constructor
  · intro f outer hbranch
    obtain ⟨closer, partner, rfl, hk⟩ := exists_closing_of_branch (Or.inl ⟨f, outer, hbranch⟩)
    cases partner with
    | none =>
      rw [branch_closing_none hk] at hbranch
      cases hbranch
    | some i =>
      obtain ⟨_, _, _, _, _, hclosed⟩ := h.exists_closed hn hk
      rw [hbranch] at hclosed
      cases hclosed
  · intro closer hbranch
    obtain ⟨closer', partner, rfl, hk⟩ := exists_closing_of_branch (Or.inr ⟨closer, hbranch⟩)
    cases partner with
    | none => rfl
    | some i =>
      obtain ⟨_, _, _, _, _, hclosed⟩ := h.exists_closed hn hk
      rw [hbranch] at hclosed
      cases hclosed

/-- **The stack is balanced wherever an indexed pass comes**, and no branch is taken that is there
for what cannot be. -/
theorem Visits.balanced {c : IndexedPass} (h : Visits (Document.parse input) s e c) :
    c.Balanced (Document.parse input) s := by
  have hm := Document.matched_parse input
  have hindex := h.index_le
  obtain ⟨p, hp, hle, hc⟩ := h.exists_reaches
  have hstands := hp.stands hm
  refine ⟨h.increasing, h.mem_opened, fun i hi => ?_, fun i j hij hdeep hi => ?_,
    fun closer i hn hk => h.exists_closed hn hk, fun n hn => ⟨?_, (h.branch_closing hn).1,
      (h.branch_closing hn).2, fun tag close hbranch => ?_⟩,
    fun n cause c' hn hs => ?_, fun hend => ?_⟩
  · obtain ⟨j, hij, _⟩ := (h.mem_opened i).1 hi
    obtain ⟨t, _, ht, _, hk, _⟩ := hm.isMatching.tags hij
    exact ⟨t, ht, hk⟩
  · by_contra hlt
    exact hstands.outside hle i j ⟨hij, hdeep⟩ hi (by omega)
  · rcases h.step_cases hn with ⟨_, hs, _⟩ | ⟨_, _, hs, _⟩
    · exact ⟨_, hs⟩
    · exact ⟨_, hs⟩
  · obtain ⟨rfl, hk, hd⟩ := branch_eq_deep_iff.1 hbranch
    rw [hc, length_frames_ofPass] at hd
    exact (step_ofPass_deep hp hle hn hk hd).2.1
  · rcases h.step_cases hn with ⟨_, hs', _⟩ | ⟨_, _, hs', hkept⟩
    · rw [hs] at hs'
      cases hs'
    · rw [hs] at hs'
      cases hs'
      exact hkept
  · have hlast : c.index = (Document.parse input).nodes.length := Nat.le_antisymm hindex hend
    have hnone : c.frames = [] := by
      rw [hlast] at hstands
      rw [hc, ofPass, (hstands.end_of_nodes hm).1]
      rfl
    refine ⟨hlast, hnone, ?_⟩
    rw [unwind, hnone]
    rfl

/-! ## How an indexed pass ends -/

/-- An indexed pass comes to an end: each step moves it on. -/
theorem Visits.exists_ends {c : IndexedPass} (h : Visits (Document.parse input) s e c) :
    ∃ r, Ends (Document.parse input) s e r := by
  induction hleft : (Document.parse input).nodes.length - c.index using Nat.strongRecOn
    generalizing c with
  | ind left ih =>
    by_cases hc : (Document.parse input).nodes.length ≤ c.index
    · exact ⟨_, .completed h hc⟩
    · have hn := List.getElem?_eq_getElem (Nat.lt_of_not_le hc)
      rcases h.step_cases hn with ⟨c', hs, hlt⟩ | ⟨cause, c', hs, _⟩
      · exact ih _ (by omega) (h.step hn hs) rfl
      · exact ⟨_, .stopped h hn hs⟩

/-- An indexed pass ends with what the pass reports. -/
theorem Ends.eq_evaluate {context : Context} {clock : Clock} {r : Report}
    (h : Ends (Document.parse input) s ⟨context, clock, [], []⟩ r) :
    r = evaluate s input context clock := by
  have hm := Document.matched_parse input
  cases h with
  | completed h hc =>
    obtain ⟨hindex, _⟩ := h.balanced.ended hc
    obtain ⟨p, hp, _, heq⟩ := h.exists_reaches
    rw [hindex] at hp
    rw [heq, toReport_ofPass _ (hp.stands hm).openers]
    exact (Document.evaluate_of_reaches hp).symm
  | @stopped c c' n cause h hn hs =>
    obtain ⟨p, hp, hle, heq⟩ := h.exists_reaches
    generalize c.index = k at hp hle heq hn
    subst heq
    rcases step_ofPass_cases hp hle hn with ⟨m, q, _, _, _, hs'⟩ | ⟨cause', q, hq, hs'⟩
    · rw [hs] at hs'
      cases hs'
    · rw [hs] at hs'
      cases hs'
      have hopeners := (hp.stands hm).openers
      rw [← Pass.stack_of_step_error hq] at hopeners
      rw [toReport_ofPass _ hopeners]
      exact (Document.Stops.evaluate ⟨hp, n, hn, hq⟩).symm

/-- **An indexed pass ends in one way, with what the pass reports.** -/
theorem ends_iff {context : Context} {clock : Clock} {r : Report} :
    Ends (Document.parse input) s ⟨context, clock, [], []⟩ r ↔
      r = evaluate s input context clock := by
  refine ⟨Ends.eq_evaluate, ?_⟩
  rintro rfl
  obtain ⟨r, hr⟩ := Visits.exists_ends (.start (d := Document.parse input) (s := s)
    (e := ⟨context, clock, [], []⟩))
  rwa [← hr.eq_evaluate]

end

end IndexedPass

/-- **The stack of a run is balanced.**  A pass that goes by indices and looks tags up again comes
to an end on every document and ends with the report of the run, whatever interrupts it.  Wherever
it comes, a pass of the run comes with the same stack; the frames are the opening tags of the opened
pairs around the node, in their order; a closing tag with a partner finds its own frame on top and
the tag it closes where the frame says, so it is never put out as one without partner; and no step
lacks a result.  An interruption leaves the stack as it was, and behind the last node nothing is
open, so no opening tag is put out at the end. -/
theorem evaluate_balanced (s : Setting) (input : Text) (context : Context) (clock : Clock) :
    let d := Document.parse input
    let start : Effects := ⟨context, clock, [], []⟩
    (∀ r, IndexedPass.Ends d s start r ↔ r = evaluate s input context clock) ∧
    ∀ c, IndexedPass.Visits d s start c → c.Balanced d s ∧
      ∃ p, d.Reaches s start c.index p ∧ c = IndexedPass.ofPass c.index p := by
  intro d start
  refine ⟨fun r => IndexedPass.ends_iff, fun c h => ⟨h.balanced, ?_⟩⟩
  obtain ⟨p, hp, _, hc⟩ := h.exists_reaches
  exact ⟨p, hp, hc⟩

end Tagtext
