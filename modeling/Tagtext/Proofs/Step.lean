import Tagtext.Evaluation

/-!
# What a step can do

`Effects.Comes s tag content fallback e r` lists what a call can come to, and
`Pass.Takes s index p n r` the ways in which a pass takes a node, one constructor
for each; every call and every step is one of those listed (`comes_invoke`,
`takes_step`).  A walk is its steps one after the other:

    a walk that ends early has come to the node it ends at         (exists_of_walk_error)
    what each step keeps, a walk keeps                              (walk_keeps)
    what each step keeps between two passes, two walks keep        (walks_keep)
-/

namespace Tagtext

/-! ## Work -/

/-- Work that ends under a watch ends with its own result. -/
theorem Work.result_of_proceed {w : Watch} {work : Work} {r : Except HandlerError Text}
    {c : Context} {k' : Clock} : ∀ {k : Clock}, work.proceed w k = .finished r c k' →
    work.result = some (r, c) := by
  induction work with
  | finish result context cancels =>
    intro k h
    cases h
    rfl
  | pause ms context cancels next ih =>
    intro k h
    simp only [proceed] at h
    split at h
    · cases h
    · exact ih h
  | hang context cancels =>
    intro k h
    simp only [proceed] at h
    split at h <;> cases h

/-- Work that has a result comes to it when nothing is watched. -/
theorem Work.exists_proceed_of_result {work : Work} {r : Except HandlerError Text} {c : Context}
    (h : work.result = some (r, c)) : ∀ k, ∃ k', work.proceed {} k = .finished r c k' := by
  induction work with
  | finish result context cancels =>
    intro k
    cases h
    exact ⟨_, rfl⟩
  | pause ms context cancels next ih =>
    intro k
    exact ih h _
  | hang context cancels => cases h

/-! ## Calls -/

/-- The same run without token and deadline. -/
def Setting.unwatched (s : Setting) : Setting := { s with watch := {} }

namespace Effects

/-- The call of a tag at `e`. -/
def callOf (tag : Tag) (content : Text) (e : Effects) : Call :=
  ⟨tag.name, tag.arguments, content, e.context, tag.start⟩

/-- What calling the handler for a tag comes to at `e`. -/
inductive Comes (s : Setting) (tag : Tag) (content fallback : Text) (e : Effects) :
    Except Halt Text × Effects → Prop
  /-- No descriptor answers to the name. -/
  | unknown (h : s.table.get? tag.name = none) :
      Comes s tag content fallback e (.ok fallback, e.report (.unresolved tag.name tag.start))
  /-- The run is out of time or cancelled before the handler starts. -/
  | refused (d : Descriptor) (cause : Halt) (t : Nat) (h : s.table.get? tag.name = some d)
      (hw : s.watch.haltBy? e.clock e.clock.now = some (cause, t)) :
      Comes s tag content fallback e (.error cause, e)
  | abandoned (d : Descriptor) (cause : Halt) (context : Context) (clock : Clock)
      (h : s.table.get? tag.name = some d) (hw : s.watch.haltBy? e.clock e.clock.now = none)
      (hp : (d.handler tag.arguments content e.context).proceed s.watch e.clock =
        .abandoned cause context clock) :
      Comes s tag content fallback e
        (.error cause, ⟨context, clock, e.diagnostics, e.calls ++ [callOf tag content e]⟩)
  | answered (d : Descriptor) (out : Text) (context : Context) (clock : Clock)
      (h : s.table.get? tag.name = some d) (hw : s.watch.haltBy? e.clock e.clock.now = none)
      (hp : (d.handler tag.arguments content e.context).proceed s.watch e.clock =
        .finished (.ok out) context clock) :
      Comes s tag content fallback e
        (.ok out, ⟨context, clock, e.diagnostics, e.calls ++ [callOf tag content e]⟩)
  | failed (d : Descriptor) (err : HandlerError) (context : Context) (clock : Clock)
      (h : s.table.get? tag.name = some d) (hw : s.watch.haltBy? e.clock e.clock.now = none)
      (hp : (d.handler tag.arguments content e.context).proceed s.watch e.clock =
        .finished (.error err) context clock) :
      Comes s tag content fallback e
        (.ok s.config.failure.replacement,
          ⟨context, clock, e.diagnostics ++ [.handlerFailed tag.name tag.start err],
            e.calls ++ [callOf tag content e]⟩)

/-- Every call comes to one of the listed things. -/
theorem comes_invoke (s : Setting) (tag : Tag) (content fallback : Text) (e : Effects) :
    Comes s tag content fallback e (e.invoke s tag content fallback) := by
  unfold invoke
  cases h : s.table.get? tag.name with
  | none => exact .unknown h
  | some d =>
    simp only
    cases hw : s.watch.haltBy? e.clock e.clock.now with
    | some halt =>
      obtain ⟨cause, t⟩ := halt
      exact .refused d cause t h hw
    | none =>
      simp only
      cases hp : (d.handler tag.arguments content e.context).proceed s.watch e.clock with
      | abandoned cause context clock => exact .abandoned d cause context clock h hw hp
      | finished result context clock =>
        cases result with
        | ok out => exact .answered d out context clock h hw hp
        | error err => exact .failed d err context clock h hw hp

/-- A call comes to one thing only. -/
theorem Comes.invoke_eq {s : Setting} {tag : Tag} {content fallback : Text} {e : Effects}
    {r : Except Halt Text × Effects} (h : Comes s tag content fallback e r) :
    e.invoke s tag content fallback = r := by
  unfold invoke
  cases h with
  | unknown h => simp only [h]
  | refused d cause t h hw => simp only [h, hw]
  | abandoned d cause context clock h hw hp =>
    simp only [h, hw, hp]
    rfl
  | answered d out context clock h hw hp =>
    simp only [h, hw, hp]
    rfl
  | failed d err context clock h hw hp =>
    simp only [h, hw, hp]
    rfl

/-- A call that comes to an end under a watch comes to the same without one, where it is given the same
context. -/
theorem exists_invoke_unwatched {s : Setting} {tag : Tag} {content fallback out : Text}
    {e e₁ e' : Effects} (h : e.invoke s tag content fallback = (.ok out, e₁))
    (he : e'.context = e.context) :
    ∃ clock reported made, e₁.diagnostics = e.diagnostics ++ reported ∧ e₁.calls = e.calls ++ made ∧
      e'.invoke s.unwatched tag content fallback =
        (.ok out, ⟨e₁.context, clock, e'.diagnostics ++ reported, e'.calls ++ made⟩) := by
  have hcomes := comes_invoke s tag content fallback e
  rw [h] at hcomes
  have hw : s.unwatched.watch.haltBy? e'.clock e'.clock.now = none := rfl
  have hcall : e'.callOf tag content = e.callOf tag content := by rw [callOf, callOf, he]
  cases hcomes with
  | unknown hd =>
    refine ⟨e'.clock, [.unresolved tag.name tag.start], [], rfl, (List.append_nil _).symm, ?_⟩
    rw [List.append_nil, show (e.report _).context = e'.context from he.symm]
    exact (Comes.unknown (s := s.unwatched) hd).invoke_eq
  | answered d out context clock hd _ hp =>
    rw [← he] at hp
    obtain ⟨k, hk⟩ := Work.exists_proceed_of_result (Work.result_of_proceed hp) e'.clock
    refine ⟨k, [], [e.callOf tag content], (List.append_nil _).symm, rfl, ?_⟩
    rw [List.append_nil, ← hcall]
    exact (Comes.answered (s := s.unwatched) d out context k hd hw hk).invoke_eq
  | failed d err context clock hd _ hp =>
    rw [← he] at hp
    obtain ⟨k, hk⟩ := Work.exists_proceed_of_result (Work.result_of_proceed hp) e'.clock
    refine ⟨k, [.handlerFailed tag.name tag.start err], [e.callOf tag content], rfl, rfl, ?_⟩
    rw [← hcall]
    exact (Comes.failed (s := s.unwatched) d err context k hd hw hk).invoke_eq

/-- A name that the table does not know leaves the fallback. -/
theorem invoke_of_unknown {s : Setting} {tag : Tag} (h : s.table.get? tag.name = none)
    (content fallback : Text) (e : Effects) :
    e.invoke s tag content fallback =
      (.ok fallback, e.report (.unresolved tag.name tag.start)) := by
  simp [invoke, h]

end Effects

namespace Pass

theorem exists_of_standalone_ok {s : Setting} {tag : Tag} {p q : Pass}
    (h : p.standalone s tag = .ok q) :
    ∃ out e, p.effects.invoke s tag [] tag.raw = (.ok out, e) ∧
      q = { p with effects := e }.emit out := by
  unfold standalone at h
  split at h
  · next out e hi =>
    cases h
    exact ⟨out, e, hi, rfl⟩
  · cases h

theorem exists_of_close_ok {s : Setting} {f : Frame} {closer : Tag} {p q : Pass}
    (h : p.close s f closer = .ok q) :
    ∃ out e, p.effects.invoke s f.opener f.buffer (f.opener.raw ++ f.buffer ++ closer.raw) =
        (.ok out, e) ∧ q = { p with effects := e, stack := p.stack.pop }.emit out := by
  unfold close at h
  split at h
  · next out e hi =>
    cases h
    exact ⟨out, e, hi, rfl⟩
  · cases h

/-- A call that is stopped leaves the stack as it was. -/
theorem stack_of_standalone_error {s : Setting} {tag : Tag} {p q : Pass} {cause : Halt}
    (h : p.standalone s tag = .error (cause, q)) : q.stack = p.stack := by
  unfold standalone at h
  split at h
  · cases h
  · cases h
    rfl

theorem stack_of_close_error {s : Setting} {f : Frame} {closer : Tag} {p q : Pass} {cause : Halt}
    (h : p.close s f closer = .error (cause, q)) : q.stack = p.stack := by
  unfold close at h
  split at h
  · cases h
  · cases h
    rfl

/-! ## Steps -/

/-- The outcome of taking node `n`, which has this index, at `p`. -/
inductive Takes (s : Setting) (index : Nat) (p : Pass) : Node → Except (Halt × Pass) Pass → Prop
  /-- The node lies in a pair that is kept as it is written. -/
  | kept (n : Node) (h : index < p.keepUntil) : Takes s index p n (.ok (p.emit n.raw))
  | text (t : Text) (h : p.keepUntil ≤ index) : Takes s index p (.text t) (.ok (p.emit t))
  | malformed (raw : Text) (e : ParseError) (h : p.keepUntil ≤ index) :
      Takes s index p (.malformed raw e) (.ok ((p.report (.parse e)).emit raw))
  /-- A tag that stands alone is called. -/
  | alone (tag : Tag) (partner : Option Nat) (h : p.keepUntil ≤ index)
      (hk : tag.kind = .selfClosing) : Takes s index p (.tag tag partner) (p.standalone s tag)
  /-- A pair inside too many others begins. -/
  | deep (tag : Tag) (close : Nat) (h : p.keepUntil ≤ index) (hk : tag.kind = .opening)
      (hd : s.config.maxNestingDepth ≤ p.stack.frames.length) :
      Takes s index p (.tag tag (some close))
        (.ok { (p.report
          (.parse (.nestingTooDeep tag.name tag.start s.config.maxNestingDepth))).emit tag.raw with
            keepUntil := close + 1 })
  /-- A pair begins. -/
  | opened (tag : Tag) (close : Nat) (h : p.keepUntil ≤ index) (hk : tag.kind = .opening)
      (hd : p.stack.frames.length < s.config.maxNestingDepth) :
      Takes s index p (.tag tag (some close)) (.ok { p with stack := p.stack.push index tag })
  /-- An opening tag without partner is called. -/
  | unclosed (tag : Tag) (h : p.keepUntil ≤ index) (hk : tag.kind = .opening)
      (hu : s.config.unclosed = .standalone) :
      Takes s index p (.tag tag none)
        ((p.report (.parse (.unclosedTag tag.name tag.start))).standalone s tag)
  /-- An opening tag without partner stays. -/
  | stays (tag : Tag) (h : p.keepUntil ≤ index) (hk : tag.kind = .opening)
      (hu : s.config.unclosed = .literal) :
      Takes s index p (.tag tag none)
        (.ok ((p.report (.parse (.unclosedTag tag.name tag.start))).emit tag.raw))
  /-- The innermost pair ends. -/
  | closed (tag : Tag) (f : Frame) (fs : List Frame) (h : p.keepUntil ≤ index)
      (hk : tag.kind = .closing) (hf : p.stack.frames = f :: fs) :
      Takes s index p (.tag tag (some f.node)) (p.close s f tag)
  /-- A closing tag that does not end the innermost pair stays. -/
  | orphan (tag : Tag) (partner : Option Nat) (h : p.keepUntil ≤ index) (hk : tag.kind = .closing)
      (hf : ∀ f fs, p.stack.frames = f :: fs → partner ≠ some f.node) :
      Takes s index p (.tag tag partner) (.ok (p.emit tag.raw))

/-- Taking node `n`, which has this index, at `p` calls the handler for a tag. -/
inductive Calls (s : Setting) (index : Nat) (p : Pass) : Node → Tag → Prop
  | alone (tag : Tag) (partner : Option Nat) (h : p.keepUntil ≤ index)
      (hk : tag.kind = .selfClosing) : Calls s index p (.tag tag partner) tag
  | unclosed (tag : Tag) (h : p.keepUntil ≤ index) (hk : tag.kind = .opening)
      (hu : s.config.unclosed = .standalone) : Calls s index p (.tag tag none) tag
  /-- The closing tag of a pair calls the handler for the opening one. -/
  | closed (tag : Tag) (f : Frame) (fs : List Frame) (h : p.keepUntil ≤ index)
      (hk : tag.kind = .closing) (hf : p.stack.frames = f :: fs) :
      Calls s index p (.tag tag (some f.node)) f.opener

/-- Every step is one of the listed ones. -/
theorem takes_step (s : Setting) (index : Nat) (n : Node) (p : Pass) :
    Takes s index p n (p.step s index n) := by
  unfold step
  by_cases hkeep : index < p.keepUntil
  · rw [if_pos hkeep]
    exact .kept n hkeep
  · rw [if_neg hkeep]
    have h : p.keepUntil ≤ index := by omega
    cases n with
    | text t => exact .text t h
    | malformed raw e => exact .malformed raw e h
    | tag tag partner =>
      simp only
      cases hk : tag.kind with
      | selfClosing => exact .alone tag partner h hk
      | opening =>
        cases partner with
        | some close =>
          simp only
          by_cases hd : s.config.maxNestingDepth ≤ p.stack.frames.length
          · rw [if_pos hd]
            exact .deep tag close h hk hd
          · rw [if_neg hd]
            exact .opened tag close h hk (by omega)
        | none =>
          simp only
          cases hu : s.config.unclosed with
          | standalone => exact .unclosed tag h hk hu
          | literal => exact .stays tag h hk hu
      | closing =>
        cases partner with
        | none => exact .orphan tag none h hk (by simp)
        | some opener =>
          simp only
          split
          · next f fs hf =>
            by_cases ho : f.node = opener
            · rw [if_pos ho]
              subst ho
              exact .closed tag f fs h hk hf
            · rw [if_neg ho]
              refine .orphan tag (some opener) h hk fun f' fs' hf' => ?_
              rw [hf] at hf'
              cases hf'
              simpa using Ne.symm ho
          · next hf =>
            refine .orphan tag (some opener) h hk fun f' fs' hf' => ?_
            rw [hf] at hf'
            cases hf'

/-- A step that is interrupted leaves the stack as it was. -/
theorem stack_of_step_error {s : Setting} {k : Nat} {n : Node} {p q : Pass} {cause : Halt}
    (hs : p.step s k n = .error (cause, q)) : q.stack = p.stack := by
  have ht := takes_step s k n p
  generalize p.step s k n = r at ht hs
  cases ht with
  | alone tag partner _ hk => exact stack_of_standalone_error hs
  | unclosed tag _ hk hu => exact stack_of_standalone_error (p := p.report _) hs
  | closed tag f fs _ hk hf => exact stack_of_close_error hs
  | _ => cases hs

section
variable {s : Setting} {i : Nat} {p : Pass} {tag : Tag}

theorem step_kept (h : i < p.keepUntil) (n : Node) : p.step s i n = .ok (p.emit n.raw) := by
  unfold step
  rw [if_pos h]

variable (h : p.keepUntil ≤ i)
include h

theorem step_text (t : Text) : p.step s i (.text t) = .ok (p.emit t) := by
  unfold step
  rw [if_neg (by omega)]

theorem step_malformed (raw : Text) (e : ParseError) :
    p.step s i (.malformed raw e) = .ok ((p.report (.parse e)).emit raw) := by
  unfold step
  rw [if_neg (by omega)]

theorem step_alone (hk : tag.kind = .selfClosing) (partner : Option Nat) :
    p.step s i (.tag tag partner) = p.standalone s tag := by
  unfold step
  rw [if_neg (by omega)]
  simp only [hk]

theorem step_deep (hk : tag.kind = .opening)
    (hd : s.config.maxNestingDepth ≤ p.stack.frames.length) (close : Nat) :
    p.step s i (.tag tag (some close)) =
      .ok { (p.report (.parse (.nestingTooDeep tag.name tag.start s.config.maxNestingDepth))).emit
        tag.raw with keepUntil := close + 1 } := by
  unfold step
  rw [if_neg (by omega)]
  simp only [hk]
  rw [if_pos hd]

theorem step_opened (hk : tag.kind = .opening)
    (hd : p.stack.frames.length < s.config.maxNestingDepth) (close : Nat) :
    p.step s i (.tag tag (some close)) = .ok { p with stack := p.stack.push i tag } := by
  unfold step
  rw [if_neg (by omega)]
  simp only [hk]
  rw [if_neg (by omega)]

theorem step_unclosed (hk : tag.kind = .opening) (hu : s.config.unclosed = .standalone) :
    p.step s i (.tag tag none) =
      (p.report (.parse (.unclosedTag tag.name tag.start))).standalone s tag := by
  unfold step
  rw [if_neg (by omega)]
  simp only [hk, hu]

theorem step_stays (hk : tag.kind = .opening) (hu : s.config.unclosed = .literal) :
    p.step s i (.tag tag none) =
      .ok ((p.report (.parse (.unclosedTag tag.name tag.start))).emit tag.raw) := by
  unfold step
  rw [if_neg (by omega)]
  simp only [hk, hu]

theorem step_closed (hk : tag.kind = .closing) {f : Frame} {fs : List Frame}
    (hf : p.stack.frames = f :: fs) :
    p.step s i (.tag tag (some f.node)) = p.close s f tag := by
  unfold step
  rw [if_neg (by omega)]
  simp only [hk, hf, if_true]

theorem step_orphan (hk : tag.kind = .closing) (partner : Option Nat)
    (hf : ∀ f fs, p.stack.frames = f :: fs → partner ≠ some f.node) :
    p.step s i (.tag tag partner) = .ok (p.emit tag.raw) := by
  unfold step
  rw [if_neg (by omega)]
  cases partner with
  | none => simp only [hk]
  | some opener =>
    simp only [hk]
    split
    · next f fs hfs =>
      rw [if_neg]
      rintro rfl
      exact hf f fs hfs rfl
    · rfl

end

/-! ## Walks -/

theorem of_drop_eq_cons {nodes rest : List Node} {n : Node} {k : Nat}
    (h : nodes.drop k = n :: rest) :
    k < nodes.length ∧ nodes[k]? = some n ∧ nodes.drop (k + 1) = rest := by
  have hn : nodes[k]? = some n := by
    rw [← List.head?_drop, h]
    rfl
  refine ⟨(List.getElem?_eq_some_iff.1 hn).1, hn, ?_⟩
  rw [← List.tail_drop, h, List.tail_cons]

theorem walk_cons_of_error {s : Setting} {i : Nat} {n : Node} {p : Pass} {stopped : Halt × Pass}
    (h : p.step s i n = .error stopped) (rest : List Node) :
    walk s i (n :: rest) p = .error stopped := by
  simp [walk, h]

/-- A walk that ends early has come to some node and ends there. -/
theorem exists_of_walk_error {s : Setting} {cause : Halt} {q : Pass} {nodes : List Node} :
    ∀ {i : Nat} {p : Pass}, walk s i nodes p = .error (cause, q) →
    ∃ t n mid, nodes[t]? = some n ∧ walk s i (nodes.take t) p = .ok mid ∧
      mid.step s (i + t) n = .error (cause, q) := by
  induction nodes with
  | nil =>
    intro i p h
    cases h
  | cons n rest ih =>
    intro i p h
    cases hs : p.step s i n with
    | error stopped =>
      simp only [walk, hs] at h
      cases h
      exact ⟨0, n, p, rfl, rfl, hs⟩
    | ok p' =>
      rw [walk_cons_of_ok hs] at h
      obtain ⟨t, m, mid, hm, hw, he⟩ := ih h
      refine ⟨t + 1, m, mid, hm, ?_, ?_⟩
      · rw [List.take_succ_cons, walk_cons_of_ok hs, hw]
      · rwa [show i + (t + 1) = i + 1 + t by omega]

/-- What each step keeps between two passes, two walks keep; and the second is completed if the
first is. -/
theorem walks_keep {s s' : Setting} {nodes nodes' : List Node} (R : Nat → Pass → Pass → Prop)
    (hlen : nodes.length = nodes'.length)
    (hstep : ∀ i n n' p p' q, nodes[i]? = some n → nodes'[i]? = some n' → R i p p' →
      p.step s i n = .ok q → ∃ q', p'.step s' i n' = .ok q' ∧ R (i + 1) q q')
    {k : Nat} {p p' q : Pass} (h : walk s k (nodes.drop k) p = .ok q) (hk : k ≤ nodes.length)
    (hp : R k p p') :
    ∃ q', walk s' k (nodes'.drop k) p' = .ok q' ∧ R nodes.length q q' := by
  generalize hr : nodes.drop k = rest at h
  induction rest generalizing k p p' with
  | nil =>
    cases h
    have hle : nodes.length ≤ k := List.drop_eq_nil_iff.1 hr
    have hnil : nodes'.drop k = [] := List.drop_eq_nil_iff.2 (by omega)
    refine ⟨p', by rw [hnil]; rfl, ?_⟩
    rwa [show nodes.length = k by omega]
  | cons n rest ih =>
    obtain ⟨hlt, hn, hrest⟩ := of_drop_eq_cons hr
    have hlt' : k < nodes'.length := by omega
    cases hs : p.step s k n with
    | error stopped =>
      simp only [walk, hs] at h
      cases h
    | ok p₁ =>
      rw [walk_cons_of_ok hs] at h
      obtain ⟨p₁', hs', hp₁⟩ :=
        hstep k n _ p p' p₁ hn (List.getElem?_eq_getElem hlt') hp hs
      obtain ⟨q', hw, hq⟩ := ih hlt hp₁ hrest h
      refine ⟨q', ?_, hq⟩
      rw [List.drop_eq_getElem_cons hlt', walk_cons_of_ok hs', hw]

/-- What each step keeps, a walk keeps. -/
theorem walk_keeps {s : Setting} {nodes : List Node} (I : Nat → Pass → Prop)
    (hstep : ∀ i n p q, nodes[i]? = some n → I i p → p.step s i n = .ok q → I (i + 1) q)
    {p q : Pass} (h : walk s 0 nodes p = .ok q) (hp : I 0 p) : I nodes.length q := by
  have hstep' : ∀ i n n' p p' q, nodes[i]? = some n → nodes[i]? = some n' → p = p' ∧ I i p →
      p.step s i n = .ok q → ∃ q', p'.step s i n' = .ok q' ∧ q = q' ∧ I (i + 1) q := by
    rintro i n n' p _ q hn hn' ⟨rfl, hp⟩ hs
    rw [hn] at hn'
    cases hn'
    exact ⟨q, hs, rfl, hstep i n p q hn hp hs⟩
  obtain ⟨_, _, _, hq⟩ := walks_keep (fun i p p' => p = p' ∧ I i p) rfl hstep' (k := 0) h
    (Nat.zero_le _) ⟨rfl, hp⟩
  exact hq

/-- A walk goes on where another has come to. -/
theorem walk_append_of_ok {s : Setting} {nodes : List Node} (rest : List Node) :
    ∀ {i : Nat} {p q : Pass}, walk s i nodes p = .ok q →
    walk s i (nodes ++ rest) p = walk s (i + nodes.length) rest q := by
  induction nodes with
  | nil =>
    intro i p q h
    cases h
    rfl
  | cons n nodes ih =>
    intro i p q h
    cases hs : p.step s i n with
    | error stopped =>
      simp only [walk, hs] at h
      cases h
    | ok p' =>
      rw [walk_cons_of_ok hs] at h
      rw [List.cons_append, walk_cons_of_ok hs, ih h, List.length_cons, Nat.add_assoc,
        Nat.add_comm 1]

/-- A walk that is stopped is stopped there in a longer one too. -/
theorem walk_append_of_error {s : Setting} {nodes : List Node} {stopped : Halt × Pass}
    (rest : List Node) : ∀ {i : Nat} {p : Pass}, walk s i nodes p = .error stopped →
    walk s i (nodes ++ rest) p = .error stopped := by
  induction nodes with
  | nil =>
    intro i p h
    cases h
  | cons n nodes ih =>
    intro i p h
    cases hs : p.step s i n with
    | error stopped' =>
      rw [walk_cons_of_error hs] at h
      cases h
      exact walk_cons_of_error hs _
    | ok p' =>
      rw [walk_cons_of_ok hs] at h
      rw [List.cons_append, walk_cons_of_ok hs, ih h]

end Pass

end Tagtext
