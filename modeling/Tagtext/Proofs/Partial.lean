import Tagtext.Proofs.Cut
import Tagtext.Proofs.Nesting
import Tagtext.Proofs.Step

/-!
# What an interrupted run leaves

A run that is stopped at a tag has put out what a run over the text in front of
that tag puts out, if opening tags without partner stay and no pair stands
inside too many others (`evaluate_of_halt`).

In front of the cut the two runs go side by side.  A pair whose closing tag is
cut off is a frame in the first run and text in the second; all such pairs
stand outside those that are closed in front of the cut.  So the second run's
stack is the first one's with the outer frames written out (`Stack.settled`):

    p'.stack = p.stack.settled keep,  keep i ↔ the partner of i stands in front of the cut
    (s.settled keep).unwind = s.unwind                              (unwind_settled)
-/

namespace Tagtext

/-! ## The stack in front of a cut -/

namespace Stack

/-- The stack with all frames written out from the first one on that is not kept. -/
def settled (keep : Nat → Bool) (s : Stack) : Stack where
  root := unwind ⟨s.root, s.frames.dropWhile (keep ·.node)⟩
  frames := s.frames.takeWhile (keep ·.node)

/-- Writing frames out puts out nothing new. -/
@[simp] theorem unwind_settled (keep : Nat → Bool) (s : Stack) :
    (s.settled keep).unwind = s.unwind := by
  rw [settled, unwind, unwind, unwind, ← List.foldr_append, List.takeWhile_append_dropWhile]

variable {keep : Nat → Bool} {s : Stack}

theorem length_frames_settled : (s.settled keep).frames.length ≤ s.frames.length :=
  (List.takeWhile_prefix _).length_le

theorem settled_emit (t : Text) : (s.emit t).settled keep = (s.settled keep).emit t := by
  obtain ⟨root, _ | ⟨f, fs⟩⟩ := s
  · rfl
  · by_cases hf : keep f.node = true
    · simp [settled, emit, hf]
    · simp [settled, emit, hf, unwind]

theorem settled_push {i : Nat} (hi : keep i = true) (o : Tag) :
    (s.push i o).settled keep = (s.settled keep).push i o := by
  simp [settled, push, hi]

/-- When nothing is kept, all is written out. -/
theorem settled_of_frames (hs : (s.settled keep).frames = []) :
    s.settled keep = ⟨s.unwind, []⟩ := by
  have hroot := s.unwind_settled keep
  rw [unwind, hs, List.foldr_nil] at hroot
  rw [← hroot, ← hs]

/-- A pair that is not kept goes straight to the text. -/
theorem settled_push_of_not {i : Nat} (hi : keep i = false) (hs : (s.settled keep).frames = [])
    (o : Tag) : (s.push i o).settled keep = (s.settled keep).emit o.raw := by
  have hpush : ((s.push i o).settled keep).frames = [] := by
    simp [settled, push, hi]
  rw [settled_of_frames hpush, settled_of_frames hs, unwind_push]
  rfl

/-- The innermost frame is kept, and is forgotten. -/
theorem settled_cons {f : Frame} {fs : List Frame} (hf : s.frames = f :: fs)
    (hk : keep f.node = true) :
    (∃ fs', (s.settled keep).frames = f :: fs') ∧
      s.pop.settled keep = (s.settled keep).pop := by
  simp [settled, pop, hf, hk]

end Stack

/-! ## The documents in front of a cut -/

/-- `n'` is what becomes of node `n` when the document is cut off in front of node `t`. -/
structure Node.CutTo (t : Nat) (n n' : Node) : Prop where
  face : n'.face = n.face
  partner : n'.partner? = n.partner?.filter (· < t)

namespace Node.CutTo

variable {t : Nat} {n n' : Node}

theorem raw (h : n.CutTo t n') : n'.raw = n.raw := congrArg Prod.fst h.face

theorem tag? (h : n.CutTo t n') : n'.tag? = n.tag? := congrArg Prod.snd h.face

theorem eq_tag {tag : Tag} {partner : Option Nat} (h : CutTo t (.tag tag partner) n') :
    n' = .tag tag (partner.filter (· < t)) := by
  have htag := h.tag?
  have hpartner := h.partner
  cases n' with
  | text u => cases htag
  | malformed u e => cases htag
  | tag tag' partner' =>
    cases htag
    cases hpartner
    rfl

end Node.CutTo

namespace Document

theorem tagAt_eq_face (nodes : List Node) (i : Nat) :
    tagAt nodes i = (nodes.map Node.face)[i]?.bind (·.2) := by
  rw [tagAt, List.getElem?_map, Option.bind_map]
  rfl

/-- Whether the node at an index has a partner in front of node `t`. -/
def endsBefore (d : Document) (t i : Nat) : Bool := (d.partnerAt i).any (· < t)

/-- The partners in front of a cut are the same; those behind it are lost. -/
theorem partnerAt_of_face {d d' : Document} (h : d.Matched) (h' : d'.Matched) {t : Nat}
    (hface : d'.nodes.map Node.face = (d.nodes.take t).map Node.face) {i : Nat} (hi : i < t) :
    d'.partnerAt i = (d.partnerAt i).filter (· < t) := by
  have htag : ∀ k, k < t → tagAt d.nodes k = tagAt d'.nodes k := by
    intro k hk
    rw [tagAt_eq_face, tagAt_eq_face, hface, List.map_take, List.getElem?_take_of_lt hk]
  have hpair := h.isMatching.agree h'.isMatching htag
  have hlen : d'.nodes.length ≤ t := by
    have := congrArg List.length hface
    simp only [List.length_map, List.length_take] at this
    omega
  ext m
  rw [Option.filter_eq_some_iff, decide_eq_true_eq, h.partnerAt_iff, h'.partnerAt_iff]
  constructor
  · intro hm
    have hmt : m < t := by
      have := (h'.lt_length ((h'.partnerAt_iff i m).2 hm)).2
      omega
    exact ⟨hm.imp (hpair m hmt i).2 (hpair i hi m).2, hmt⟩
  · rintro ⟨hm, hmt⟩
    exact hm.imp (hpair m hmt i).1 (hpair i hi m).1

/-- Every node in front of a cut is there when the text is cut off, but for its partner if that
stands behind the cut. -/
theorem cutTo_parse {input : Text} {t i : Nat} {n n' : Node} (hi : i < t)
    (hn : (parse input).nodes[i]? = some n)
    (hn' : (parse (((parse input).nodes.take t).map Node.raw).flatten).nodes[i]? = some n') :
    n.CutTo t n' := by
  have hface := face_parse_cut input t
  refine ⟨?_, ?_⟩
  · have := congrArg (·[i]?) hface
    simp only [List.getElem?_map, List.getElem?_take_of_lt hi, hn, hn'] at this
    exact Option.some.inj this
  · have := partnerAt_of_face (matched_parse input) (matched_parse _) hface hi
    simpa only [partnerAt, hn, hn', Option.bind_some] using this

end Document

/-! ## Two passes side by side -/

namespace Pass

/-- A node without tag is put out as it is written. -/
theorem exists_step_of_untagged (s : Setting) {i : Nat} {n : Node} {p : Pass} (hn : n.tag? = none) :
    ∃ q, p.step s i n = .ok q ∧ q.stack = p.stack.emit n.raw ∧
      q.effects.context = p.effects.context ∧ q.keepUntil = p.keepUntil := by
  have ht := takes_step s i n p
  generalize p.step s i n = r at ht
  cases ht with
  | kept n hlt => exact ⟨_, rfl, rfl, rfl, rfl⟩
  | text t hle => exact ⟨_, rfl, rfl, rfl, rfl⟩
  | malformed raw e hle => exact ⟨_, rfl, rfl, rfl, rfl⟩
  | _ => cases hn

/-- In front of node `k`, `p'` has come as far over the document cut off in front of node `t` as `p`
has over the whole. -/
structure Shadows (d : Document) (t k : Nat) (p p' : Pass) : Prop where
  stack : p'.stack = p.stack.settled (d.endsBefore t)
  nodes : p.stack.nodes = d.openAt k
  context : p'.effects.context = p.effects.context
  keepUntil : p.keepUntil = 0
  keepUntil' : p'.keepUntil = 0

namespace Shadows

variable {d : Document} {t i : Nat} {p p' q q' : Pass}

/-- Both passes put out the same, and nothing begins or ends. -/
theorem emit (hp : Shadows d t i p p') (hopen : d.openAt (i + 1) = d.openAt i) {u : Text}
    (hq : q.stack = p.stack.emit u) (hq' : q'.stack = p'.stack.emit u)
    (hc : q'.effects.context = q.effects.context) (hk : q.keepUntil = p.keepUntil)
    (hk' : q'.keepUntil = p'.keepUntil) : Shadows d t (i + 1) q q' := by
  refine ⟨?_, ?_, hc, hk.trans hp.keepUntil, hk'.trans hp.keepUntil'⟩
  · rw [hq', hp.stack, hq, Stack.settled_emit]
  · rw [hq, Stack.nodes_emit, hp.nodes, hopen]

/-- The frames of the first pass are the pairs open there. -/
theorem length_frames (h : d.Matched) (hp : Shadows d t i p p') {j : Nat} (hij : d.Pair i j) :
    p.stack.frames.length = d.enclosing i j := by
  rw [← Stack.length_nodes, hp.nodes, Document.length_openAt h hij]

/-- A tag that stands alone is called in both passes. -/
theorem alone {s : Setting} {tag : Tag} (hp : Shadows d t i p p')
    (hopen : d.openAt (i + 1) = d.openAt i) (hs : p.standalone s tag = .ok q) :
    ∃ q', p'.standalone s.unwatched tag = .ok q' ∧ Shadows d t (i + 1) q q' := by
  obtain ⟨out, e, hi, rfl⟩ := exists_of_standalone_ok hs
  obtain ⟨clock, reported, made, _, _, hi'⟩ := Effects.exists_invoke_unwatched hi hp.context
  unfold standalone
  rw [hi']
  exact ⟨_, rfl, hp.emit hopen rfl rfl rfl rfl rfl⟩

/-- A pair that ends in front of the cut begins in both passes. -/
theorem opened (h : d.Matched) (hp : Shadows d t i p p') {j : Nat} (hij : d.Pair i j) (hjt : j < t)
    (tag : Tag) : Shadows d t (i + 1) { p with stack := p.stack.push i tag }
      { p' with stack := p'.stack.push i tag } := by
  have hends : d.endsBefore t i = true := by simp [Document.endsBefore, hij.2, hjt]
  refine ⟨?_, ?_, hp.context, hp.keepUntil, hp.keepUntil'⟩
  · rw [Stack.settled_push hends, ← hp.stack]
  · rw [Stack.nodes_push, hp.nodes, Document.openAt_succ_of_opening h hij]

/-- Where a pair begins that ends behind the cut, no pair is open that ends in front of it. -/
theorem frames_eq_nil (h : d.Matched) (hp : Shadows d t i p p') {j : Nat} (hij : d.Pair i j)
    (hjt : t ≤ j) : (p.stack.settled (d.endsBefore t)).frames = [] := by
  cases hf : p.stack.frames with
  | nil => simp [Stack.settled, hf]
  | cons f fs =>
    have hmem : f.node ∈ d.openAt i := by
      rw [← hp.nodes, Stack.nodes, hf]
      exact List.mem_cons_self
    obtain ⟨l, hl, hjl⟩ := Document.lt_of_mem_openAt h hij hmem
    have hends : d.endsBefore t f.node = false := by
      simp only [Document.endsBefore, hl, Option.any_some, decide_eq_false_iff_not]
      omega
    simp [Stack.settled, hf, hends]

/-- A pair that ends behind the cut begins in the first pass, and its tag stays in the second. -/
theorem opened_cut (h : d.Matched) (hp : Shadows d t i p p') {j : Nat} (hij : d.Pair i j)
    (hjt : t ≤ j) (tag : Tag) (diagnostic : Diagnostic) :
    Shadows d t (i + 1) { p with stack := p.stack.push i tag }
      ((p'.report diagnostic).emit tag.raw) := by
  have hends : d.endsBefore t i = false := by
    simp only [Document.endsBefore, hij.2, Option.any_some, decide_eq_false_iff_not]
    omega
  refine ⟨?_, ?_, hp.context, hp.keepUntil, hp.keepUntil'⟩
  · rw [Stack.settled_push_of_not hends (hp.frames_eq_nil h hij hjt), ← hp.stack]
    rfl
  · rw [Stack.nodes_push, hp.nodes, Document.openAt_succ_of_opening h hij]

/-- A pair that ends in front of the cut is closed in both passes, with the same content. -/
theorem closed (h : d.Matched) {s : Setting} {closer : Tag} {f : Frame} {fs : List Frame}
    (hp : Shadows d t i p p') (hf : p.stack.frames = f :: fs) (hfi : d.Pair f.node i) (hit : i < t)
    (hs : p.close s f closer = .ok q) :
    ∃ fs' q', p'.stack.frames = f :: fs' ∧ p'.close s.unwatched f closer = .ok q' ∧
      Shadows d t (i + 1) q q' := by
  have hends : d.endsBefore t f.node = true := by simp [Document.endsBefore, hfi.2, hit]
  obtain ⟨⟨fs', hfs'⟩, hpop⟩ := Stack.settled_cons hf hends
  obtain ⟨out, e, hi, rfl⟩ := exists_of_close_ok hs
  obtain ⟨clock, reported, made, _, _, hi'⟩ := Effects.exists_invoke_unwatched hi hp.context
  rw [← hp.stack] at hfs' hpop
  unfold close
  rw [hi']
  refine ⟨fs', _, hfs', rfl, ?_, ?_, rfl, hp.keepUntil, hp.keepUntil'⟩
  · rw [stack_emit, stack_emit, Stack.settled_emit, hpop]
  · rw [stack_emit, Stack.nodes_emit, Stack.nodes_pop, hp.nodes, Document.openAt_of_closing h hfi,
      List.tail_cons]

end Shadows

section
variable {d : Document} {s : Setting} {t : Nat} (h : d.Matched)
  (hu : s.config.unclosed = .literal)
  (hdepth : ∀ i j, d.Pair i j → d.enclosing i j < s.config.maxNestingDepth)
include h

/-- A node that holds no tag is passed over by both. -/
theorem exists_step_shadows_of_untagged {i : Nat} {p p' q : Pass} {n n' : Node}
    (hn : d.nodes[i]? = some n) (hcut : n.CutTo t n') (htag : n.tag? = none)
    (hp : Shadows d t i p p') (hs : p.step s i n = .ok q) :
    ∃ q', p'.step s.unwatched i n' = .ok q' ∧ Shadows d t (i + 1) q q' := by
  have hnone : d.partnerAt i = none := h.partnerAt_eq_none (by simp [tagAt, hn, htag])
  obtain ⟨q₁, hs₁, hstack, hc, hk⟩ := exists_step_of_untagged s (i := i) (p := p) htag
  obtain ⟨q', hs', hstack', hc', hk'⟩ :=
    exists_step_of_untagged s.unwatched (i := i) (p := p') (hcut.tag?.trans htag)
  rw [hs] at hs₁
  cases hs₁
  rw [hcut.raw] at hstack'
  exact ⟨q', hs', hp.emit (Document.openAt_succ_of_none h hnone) hstack hstack'
    (by rw [hc', hc, hp.context]) hk hk'⟩

include hu hdepth

/-- **Each step keeps the passes side by side.** -/
theorem exists_step_shadows {i : Nat} {p p' q : Pass} {n n' : Node}
    (hn : d.nodes[i]? = some n) (hit : i < t) (hcut : n.CutTo t n') (hp : Shadows d t i p p')
    (hs : p.step s i n = .ok q) :
    ∃ q', p'.step s.unwatched i n' = .ok q' ∧ Shadows d t (i + 1) q q' := by
  have hkeep : p'.keepUntil ≤ i := by
    rw [hp.keepUntil']
    exact Nat.zero_le i
  have hpartner : d.partnerAt i = n.partner? := by simp [Document.partnerAt, hn]
  have htagAt : tagAt d.nodes i = n.tag? := by simp [tagAt, hn]
  have hliteral : s.unwatched.config.unclosed = .literal := hu
  have ht := takes_step s i n p
  have hstep := hs
  generalize p.step s i n = r at ht hs
  cases ht with
  | kept n hlt =>
    rw [hp.keepUntil] at hlt
    omega
  | text u hle => exact exists_step_shadows_of_untagged h hn hcut rfl hp hstep
  | malformed raw e hle => exact exists_step_shadows_of_untagged h hn hcut rfl hp hstep
  | alone tag partner hle hk =>
    have hnone : d.partnerAt i = none := h.partnerAt_eq_none (by simp [htagAt, Node.tag?, hk])
    rw [hcut.eq_tag, step_alone hkeep hk]
    exact hp.alone (Document.openAt_succ_of_none h hnone) hs
  | deep tag close hle hk hd =>
    have hij := h.pair_of_opening hpartner htagAt hk
    rw [hp.length_frames h hij] at hd
    exact absurd hd (Nat.not_le.2 (hdepth i close hij))
  | opened tag close hle hk hd =>
    have hij := h.pair_of_opening hpartner htagAt hk
    cases hs
    rw [hcut.eq_tag]
    by_cases hct : close < t
    · have hd' : p'.stack.frames.length < s.unwatched.config.maxNestingDepth := by
        rw [hp.stack]
        exact Nat.lt_of_le_of_lt Stack.length_frames_settled hd
      rw [Option.filter_some_pos (by simpa using hct), step_opened hkeep hk hd']
      exact ⟨_, rfl, hp.opened h hij hct tag⟩
    · rw [Option.filter_some_neg (by simpa using hct), step_stays hkeep hk hliteral]
      exact ⟨_, rfl, hp.opened_cut h hij (by omega) tag _⟩
  | unclosed tag hle hk hu' =>
    rw [hu] at hu'
    cases hu'
  | stays tag hle hk _ =>
    cases hs
    rw [hcut.eq_tag, Option.filter_none, step_stays hkeep hk hliteral]
    exact ⟨_, rfl, hp.emit (Document.openAt_succ_of_none h hpartner) rfl rfl hp.context rfl rfl⟩
  | closed tag f fs hle hk hf =>
    have hfi := h.pair_of_closing hpartner htagAt hk
    have hft := hfi.1
    obtain ⟨fs', q', hf', hs', hq⟩ := hp.closed h hf hfi hit hs
    rw [hcut.eq_tag, Option.filter_some_pos (by simp; omega), step_closed hkeep hk hf']
    exact ⟨q', hs', hq⟩
  | orphan tag partner hle hk hf =>
    cases hs
    cases partner with
    | none =>
      rw [hcut.eq_tag, Option.filter_none, step_orphan hkeep hk none (by simp)]
      exact ⟨_, rfl, hp.emit (Document.openAt_succ_of_none h hpartner) rfl rfl hp.context rfl rfl⟩
    | some j =>
      -- the innermost open pair is the one that ends here
      have hji := h.pair_of_closing hpartner htagAt hk
      have hnodes := hp.nodes
      rw [Document.openAt_of_closing h hji, Stack.nodes] at hnodes
      obtain ⟨f, fs, hfs, hfj, _⟩ := List.map_eq_cons_iff.1 hnodes
      exact absurd (congrArg some hfj.symm) (hf f fs hfs)

end

/-- If no opening tag is called, only a tag that stands alone and the closing tag of a pair stop a
pass; and the stack is left as it was. -/
theorem of_step_error {s : Setting} (hu : s.config.unclosed = .literal) {i : Nat} {p q : Pass}
    {n : Node} {cause : Halt} (hs : p.step s i n = .error (cause, q)) :
    q.stack = p.stack ∧ ∃ tag partner, n = .tag tag partner ∧
      (tag.kind = .selfClosing ∨ tag.kind = .closing ∧ ∃ j, partner = some j) := by
  have ht := takes_step s i n p
  generalize p.step s i n = r at ht hs
  cases ht with
  | alone tag partner hle hk =>
    exact ⟨stack_of_standalone_error hs, tag, partner, rfl, Or.inl hk⟩
  | closed tag f fs hle hk hf =>
    exact ⟨stack_of_close_error hs, tag, _, rfl, Or.inr ⟨hk, _, rfl⟩⟩
  | unclosed tag hle hk hu' =>
    rw [hu] at hu'
    cases hu'
  | _ => cases hs

end Pass

/-! ## Interrupted runs -/

/-- A run over `d` is stopped by the call at node `t`, which holds `tag`: there the pass has come to
`before`, and it is left at `after`. -/
structure Document.StoppedAt (d : Document) (s : Setting) (context : Context) (clock : Clock)
    (cause : Halt) (t : Nat) (tag : Tag) (before after : Pass) : Prop where
  reached : Pass.walk s 0 (d.nodes.take t) ⟨.empty, ⟨context, clock, [], []⟩, 0⟩ = .ok before
  stopped : before.step s t (.tag tag (d.partnerAt t)) = .error (cause, after)
  tagAt : tagAt d.nodes t = some tag
  /-- A tag that stands alone, or the closing tag of a pair. -/
  calls : tag.kind = .selfClosing ∨ tag.kind = .closing ∧ ∃ i, d.Pair i t
  report : d.evaluate s context clock = after.toReport (some cause)

/-- A run that does not come to its end is stopped at some tag. -/
theorem Document.exists_stoppedAt {d : Document} (h : d.Matched) {s : Setting}
    (hu : s.config.unclosed = .literal) {context : Context} {clock : Clock} {cause : Halt}
    (hhalt : (d.evaluate s context clock).halt = some cause) :
    ∃ t tag before after, d.StoppedAt s context clock cause t tag before after := by
  cases hw : Pass.walk s 0 d.nodes ⟨.empty, ⟨context, clock, [], []⟩, 0⟩ with
  | ok q =>
    rw [evaluate_of_walk hw] at hhalt
    cases hhalt
  | error halted =>
    obtain ⟨cause', after⟩ := halted
    have hreport := evaluate_of_walk_error hw
    rw [hreport] at hhalt
    cases hhalt
    obtain ⟨t, n, before, hn, hreached, hs⟩ := Pass.exists_of_walk_error hw
    rw [Nat.zero_add] at hs
    obtain ⟨_, tag, partner, rfl, hcalls⟩ := Pass.of_step_error hu hs
    have htag : Tagtext.tagAt d.nodes t = some tag := by simp [Tagtext.tagAt, hn, Node.tag?]
    have hpartner : d.partnerAt t = partner := by simp [partnerAt, hn, Node.partner?]
    refine ⟨t, tag, before, after, hreached, by rw [hpartner]; exact hs, htag, ?_, hreport⟩
    rcases hcalls with hk | ⟨hk, j, hj⟩
    · exact Or.inl hk
    · exact Or.inr ⟨hk, j, h.pair_of_closing (hpartner.trans hj) htag hk⟩

/-- The text in front of the tag comes to what the interrupted run had put out. -/
theorem evaluate_cut {s : Setting} {input : Text} {context : Context} {clock : Clock} {cause : Halt}
    {t : Nat} {tag : Tag} {before after : Pass}
    (h : (Document.parse input).StoppedAt s context clock cause t tag before after)
    (hu : s.config.unclosed = .literal)
    (hdepth : ∀ i j, (Document.parse input).Pair i j →
      (Document.parse input).enclosing i j < s.config.maxNestingDepth) (clock' : Clock) :
    ∃ q : Pass, evaluate s.unwatched
        (((Document.parse input).nodes.take t).map Node.raw).flatten context clock' =
        q.toReport none ∧
      q.stack.unwind = before.stack.unwind ∧ q.effects.context = before.effects.context := by
  let d := Document.parse input
  let d' := Document.parse ((d.nodes.take t).map Node.raw).flatten
  have hmatched : d.Matched := Document.matched_parse input
  have hlen : (d.nodes.take t).length = d'.nodes.length := by
    have := congrArg List.length (Document.face_parse_cut input t)
    simpa only [List.length_map] using this.symm
  have hstep : ∀ i n n' p p' q, (d.nodes.take t)[i]? = some n → d'.nodes[i]? = some n' →
      Pass.Shadows d t i p p' → p.step s i n = .ok q →
      ∃ q', p'.step s.unwatched i n' = .ok q' ∧ Pass.Shadows d t (i + 1) q q' := by
    intro i n n' p p' q hn hn' hp hs
    obtain ⟨hit, hn⟩ : i < t ∧ d.nodes[i]? = some n := by
      simpa [List.getElem?_take] using hn
    exact Pass.exists_step_shadows hmatched hu hdepth hn hit (Document.cutTo_parse hit hn hn') hp hs
  have hstart : Pass.Shadows d t 0 ⟨.empty, ⟨context, clock, [], []⟩, 0⟩
      ⟨.empty, ⟨context, clock', [], []⟩, 0⟩ := ⟨rfl, rfl, rfl, rfl, rfl⟩
  obtain ⟨q, hw, hq⟩ :=
    Pass.walks_keep (Pass.Shadows d t) hlen hstep h.reached (Nat.zero_le _) hstart
  refine ⟨q, ?_, ?_, hq.context⟩
  · rw [List.drop_zero] at hw
    exact Document.evaluate_of_walk hw
  · rw [hq.stack, Stack.unwind_settled]

/-- **What an interrupted run has put out is what the text in front of the tag comes to.**  Opening
tags without partner stay, and no pair stands inside too many others.  Then a run that ends early is
stopped by the call at some tag; and the text in front of that tag, evaluated without token and
deadline, yields the partial output, and the context too unless the abandoned call changed it. -/
theorem evaluate_of_halt (s : Setting) (input : Text) (context : Context) (clock clock' : Clock)
    (cause : Halt) (hu : s.config.unclosed = .literal)
    (hdepth : ∀ i j, (Document.parse input).Pair i j →
      (Document.parse input).enclosing i j < s.config.maxNestingDepth)
    (hhalt : (evaluate s input context clock).halt = some cause) :
    ∃ t tag before after cut rest,
      (Document.parse input).StoppedAt s context clock cause t tag before after ∧
      input = cut ++ tag.raw ++ rest ∧ byteLength cut = tag.start ∧
      (evaluate s.unwatched cut context clock').halt = none ∧
      (evaluate s.unwatched cut context clock').output = (evaluate s input context clock).output ∧
      (after.effects.context = before.effects.context →
        (evaluate s.unwatched cut context clock').context =
          (evaluate s input context clock).context) := by
  obtain ⟨t, tag, before, after, h⟩ :=
    Document.exists_stoppedAt (Document.matched_parse input) hu hhalt
  obtain ⟨q, hq, hout, hcontext⟩ := evaluate_cut h hu hdepth clock'
  have hreport : evaluate s input context clock = after.toReport (some cause) := h.report
  have hstack := (Pass.of_step_error hu h.stopped).1
  obtain ⟨n, hn, hnt⟩ := Option.bind_eq_some_iff.1 h.tagAt
  obtain ⟨hlt, hget⟩ := List.getElem?_eq_some_iff.1 hn
  refine ⟨t, tag, before, after, _,
    (((Document.parse input).nodes.drop (t + 1)).map Node.raw).flatten, h, ?_,
    (Document.start_of_tagAt h.tagAt).symm, ?_⟩
  · have hraw : n.raw = tag.raw := by
      cases n with
      | tag t' partner =>
        cases hnt
        rfl
      | text u => cases hnt
      | malformed u e => cases hnt
    have hsource := Document.source_parse input
    rw [Document.source, ← List.take_append_drop t (Document.parse input).nodes,
      List.drop_eq_getElem_cons hlt, hget, List.map_append, List.map_cons, List.flatten_append,
      List.flatten_cons, hraw, ← List.append_assoc] at hsource
    exact hsource.symm
  · rw [hq, hreport]
    refine ⟨rfl, ?_, fun hc => ?_⟩
    · show q.stack.unwind = after.stack.unwind
      rw [hout, hstack]
    · show q.effects.context = after.effects.context
      rw [hcontext, hc]

/-- A run that is cancelled inside two pairs, behind a marker that is cut short. -/
theorem evaluate_of_halt_in_pairs :
    let b : Descriptor := ⟨"b".toList, .code, {}, .immediate fun _ content c =>
      (.ok ('*' :: content), c.increment "n".toList)⟩
    let slow : Descriptor := ⟨"slow".toList, .code, {}, fun _ _ c => .hang c false⟩
    let s : Setting := ⟨Table.empty.insertAll [b, slow],
      { maxNestingDepth := 2, unclosed := .literal }, { hasToken := true, cancelAt := some 5 }⟩
    let input := "[a][b]y[/b][b][q [slow/][/b][/a]".toList
    let d := Document.parse input
    s.config.unclosed = .literal ∧
      (∀ i j, d.Pair i j → d.enclosing i j < s.config.maxNestingDepth) ∧
      (evaluate s input .empty).halt = some .cancelled ∧
      (evaluate s input .empty).output = "[a]*y[b][q ".toList ∧
      ∃ cut rest, input = cut ++ rest ∧ (evaluate s.unwatched cut .empty).halt = none ∧
        (evaluate s.unwatched cut .empty).output = (evaluate s input .empty).output := by
  intro b slow s input d
  have hdepth : ∀ i j, d.Pair i j → d.enclosing i j < s.config.maxNestingDepth := by
    intro i j h
    have hlt := (Document.matched_parse input).lt_length h.2
    have hall : ∀ i < d.nodes.length, ∀ j < d.nodes.length, i < j → d.partnerAt i = some j →
        d.enclosing i j < 2 := by decide +kernel
    exact hall i hlt.1 j hlt.2 h.1 h.2
  have hhalt : (evaluate s input .empty).halt = some .cancelled := by decide +kernel
  obtain ⟨t, tag, before, after, cut, rest, _, hinput, _, hnone, hout, _⟩ :=
    evaluate_of_halt s input .empty {} {} .cancelled rfl hdepth hhalt
  refine ⟨rfl, hdepth, hhalt, by decide +kernel, cut, tag.raw ++ rest, ?_, hnone, hout⟩
  rw [hinput, List.append_assoc]

end Tagtext
