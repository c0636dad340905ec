import Tagtext.Proofs.Forest
import Tagtext.Proofs.Reach

/-!
# The nesting limit

How many pairs stand around a pair decides what becomes of it, whatever the
names of these pairs are:

    fewer than the limit      it is opened, and its handler called where it ends   (expands_iff)
    just the limit            it is put out as it is written, and reported         (exists_reaches_behind)
    more                      it belongs to a pair that is put out so

So no more frames are open at a time than the limit allows (`frames_le`), and the
reports of pairs inside too many others are those of the pairs with just so many
around them, in their order (`filter_isTooDeep`).  A limit that no pair comes up
to might as well be any other such limit                    (evaluate_limitedTo).
-/

namespace Tagtext

/-- Whether a fault is that of a pair inside too many others. -/
def ParseError.isTooDeep : ParseError → Bool
  | nestingTooDeep _ _ _ => true
  | _ => false

/-- Whether a diagnostic reports a pair inside too many others. -/
def Diagnostic.isTooDeep : Diagnostic → Bool
  | parse e => e.isTooDeep
  | _ => false

/-- The report of a pair that begins with this tag inside too many others. -/
def Tag.tooDeep (limit : Nat) (t : Tag) : Diagnostic :=
  .parse (.nestingTooDeep t.name t.start limit)

/-- The same with another nesting limit. -/
def Setting.limitedTo (s : Setting) (limit : Nat) : Setting :=
  { s with config := { s.config with maxNestingDepth := limit } }

namespace Document

/-- The opening tag at node `i`, if just `limit` others stand around the pair that begins there. -/
def openerAt? (d : Document) (limit i : Nat) : Option Tag :=
  if (d.partnerAt i).any fun j => i < j && d.enclosing i j == limit then tagAt d.nodes i else none

/-- The opening tags of the pairs with just `limit` others around them, in their order. -/
def openersAt (d : Document) (limit : Nat) : List Tag :=
  (List.range d.nodes.length).filterMap (d.openerAt? limit)

/-- A run opens the pair from `i` to `j`: where it comes to the closing tag, what has been put out
since the opening tag stands in the innermost frame. -/
def Expands (d : Document) (s : Setting) (start : Effects) (i j : Nat) : Prop :=
  ∃ p f fs, d.Reaches s start j p ∧ p.keepUntil ≤ j ∧ p.stack.frames = f :: fs ∧ f.node = i

end Document

/-! ## Faults of the text -/

theorem isTooDeep_of_cutBody {start : Nat} {v : Bool} {pos : Nat} {s : Text} {e : ParseError}
    (h : (cutBody start v pos s).fault = some e) : e.isTooDeep = false := by
  fun_induction cutBody start v pos s with
  | case1 =>
    cases h
    rfl
  | case2 => cases h
  | case3 =>
    cases h
    rfl
  | case4 _ _ _ _ _ _ _ _ _ _ _ ih => exact ih h
  | case5 =>
    cases h
    rfl
  | case6 _ _ _ _ _ _ _ ih => exact ih h

namespace Arguments

theorem isTooDeep_of_readValue {pos : Nat} {s : Text} {e : ParseError}
    (h : readValue pos s = .error e) : e.isTooDeep = false := by
  unfold readValue at h
  split at h
  · cases h
  · split at h
    · split at h
      · cases h
      · cases h
        rfl
    · cases h

theorem isTooDeep_of_readItem {pos : Nat} {s : Text} {e : ParseError}
    (h : readItem pos s = .error e) : e.isTooDeep = false := by
  unfold readItem at h
  split at h
  · cases h
  · split at h
    · split at h
      · cases h
      · cases h
        rfl
    · simp only at h
      split at h
      · split at h
        · cases h
          rfl
        · split at h
          · cases h
          · next hv =>
            cases h
            exact isTooDeep_of_readValue hv
      · cases h

theorem isTooDeep_of_lex {pos : Nat} {s : Text} {e : ParseError} (h : lex pos s = .error e) :
    e.isTooDeep = false := by
  fun_induction lex pos s with
  | case1 => cases h
  | case2 _ _ _ _ ih => exact ih h
  | case3 _ _ _ _ _ hitem =>
    cases h
    exact isTooDeep_of_readItem hitem
  | case4 _ _ _ _ _ _ _ _ _ hlex ih =>
    cases h
    exact ih hlex
  | case5 => cases h

end Arguments

theorem Tag.isTooDeep_of_parse {raw : Text} {start : Nat} {e : ParseError}
    (h : parse raw start = .error e) : e.isTooDeep = false := by
  unfold parse at h
  split at h
  · cases h
    rfl
  · simp only at h
    split at h
    · cases h
    · cases h
      rfl
  · simp only at h
    split at h
    · split at h
      · cases h
      · next hlex =>
        cases h
        exact Arguments.isTooDeep_of_lex hlex
    · cases h
      rfl

theorem isTooDeep_of_mem_scanFrom {pos : Nat} {s raw : Text} {e : ParseError}
    (h : .malformed raw e ∈ scanFrom pos s) : e.isTooDeep = false := by
  fun_induction scanFrom pos s with
  | case1 => cases h
  | case2 pos c r _ k _ ih =>
    rcases List.mem_cons.1 h with hk | h
    · exact isTooDeep_of_cutBody (Cut.segment_eq_malformed_iff.1 hk.symm).1
    · exact ih h
  | case3 pos c r _ k _ ih =>
    rcases List.mem_cons.1 h with hk | h
    · cases hk
    · exact ih h

/-- What is wrong with the text of a document is never that pairs nest too deep. -/
theorem Document.isTooDeep_of_malformed {input raw : Text} {e : ParseError}
    (h : .malformed raw e ∈ (parse input).nodes) : e.isTooDeep = false := by
  obtain ⟨i, hi, hn⟩ := List.mem_mapIdx.1 h
  have hsegment : (((scan input).map Node.ofSegment)[i]) = .malformed raw e := by
    cases hx : ((scan input).map Node.ofSegment)[i] with
    | text t =>
      rw [hx] at hn
      cases hn
    | malformed raw' e' =>
      rw [hx] at hn
      exact hn
    | tag t partner =>
      rw [hx] at hn
      cases hn
  have hmem : Node.malformed raw e ∈ (scan input).map Node.ofSegment :=
    hsegment ▸ List.getElem_mem hi
  obtain ⟨x, hx, hnode⟩ := List.mem_map.1 hmem
  cases x with
  | literal t => cases hnode
  | malformed raw' e' =>
    cases hnode
    exact isTooDeep_of_mem_scanFrom hx
  | marker raw' start =>
    simp only [Node.ofSegment] at hnode
    split at hnode
    · cases hnode
    · next hparse =>
      cases hnode
      exact Tag.isTooDeep_of_parse hparse

/-! ## Pairs around a pair -/

namespace Document

section
variable {d : Document} (h : d.Matched) {limit i j : Nat}
include h

/-- More pairs stand around what is inside a pair than around that pair. -/
theorem enclosing_lt {a c : Nat} (hac : d.Pair a c) (hij : d.Pair i j) (hai : a < i) (hic : i ≤ c) :
    d.enclosing a c < d.enclosing i j := by
  have hne : i ≠ c := by
    rintro rfl
    exact h.isMatching.not_both hac hij
  have hjc : j < c := h.isMatching.laminar hac hij hai (by omega)
  have hmono : (List.range a).countP (fun k => (d.partnerAt k).any (c < ·)) ≤
      (List.range a).countP fun k => (d.partnerAt k).any (j < ·) := by
    refine List.countP_mono_left fun k _ hk => ?_
    simp only [Option.any_eq_true, decide_eq_true_eq] at hk ⊢
    obtain ⟨l, hl, hlt⟩ := hk
    exact ⟨l, hl, by omega⟩
  -- the pair that begins at `a` is counted on the right only
  have hself : (d.partnerAt a).any (j < ·) = true := by simpa [hac.2] using hjc
  have hsub : (List.range (a + 1)).Sublist (List.range i) := List.range_sublist.2 hai
  calc d.enclosing a c
      < (List.range a).countP (fun k => (d.partnerAt k).any (j < ·)) + 1 := Nat.lt_succ_of_le hmono
    _ = (List.range (a + 1)).countP fun k => (d.partnerAt k).any (j < ·) := by
      rw [List.range_succ, List.countP_append, List.countP_singleton, if_pos hself]
    _ ≤ d.enclosing i j := hsub.countP_le

omit h in
theorem openerAt?_of_pair (hij : d.Pair i j) :
    d.openerAt? limit i = if d.enclosing i j = limit then tagAt d.nodes i else none := by
  simp [openerAt?, hij.1, hij.2]

omit h in
theorem openerAt?_of_unpaired (hi : ∀ j, ¬ d.Pair i j) : d.openerAt? limit i = none := by
  unfold openerAt?
  rw [if_neg]
  simp only [Option.any_eq_true, Bool.and_eq_true, decide_eq_true_eq]
  rintro ⟨j, hj, hlt, _⟩
  exact hi j ⟨hlt, hj⟩

/-- No pair with just `limit` others around it begins inside a kept pair. -/
theorem openerAt?_of_deep {a c : Nat} (hd : d.Deep limit a c) (hai : a < i) (hic : i ≤ c) :
    d.openerAt? limit i = none := by
  cases hp : d.partnerAt i with
  | none => simp [openerAt?, hp]
  | some j =>
    rcases (h.partnerAt_iff i j).1 hp with hij | hji
    · have hlt := enclosing_lt h hd.pair hij hai hic
      have := hd.le
      rw [openerAt?_of_pair hij, if_neg (by omega)]
    · exact openerAt?_of_unpaired fun l hil => h.isMatching.not_both hji hil

end

end Document

/-! ## Steps -/

namespace Effects

/-- A call reports no pair. -/
theorem filter_isTooDeep_invoke (s : Setting) (tag : Tag) (content fallback : Text) (e : Effects) :
    (e.invoke s tag content fallback).2.diagnostics.filter (·.isTooDeep) =
      e.diagnostics.filter (·.isTooDeep) := by
  have hcomes := comes_invoke s tag content fallback e
  generalize e.invoke s tag content fallback = r at hcomes
  cases hcomes with
  | unknown h => simp [report, Diagnostic.isTooDeep]
  | refused d cause t h hw => rfl
  | abandoned d cause context clock h hw hp => rfl
  | answered d out context clock h hw hp => rfl
  | failed d err context clock h hw hp => simp [Diagnostic.isTooDeep]

end Effects

namespace Pass

section
variable {s : Setting} {k : Nat} {n : Node} {p q : Pass}

/-- **No step opens more than the limit allows.** -/
theorem frames_le_step (hs : p.step s k n = .ok q)
    (hp : p.stack.frames.length ≤ s.config.maxNestingDepth) :
    q.stack.frames.length ≤ s.config.maxNestingDepth := by
  have ht := takes_step s k n p
  generalize p.step s k n = r at ht hs
  cases ht with
  | opened tag close hle hk hd =>
    cases hs
    exact hd
  | alone tag partner hle hk =>
    obtain ⟨out, e, _, rfl⟩ := exists_of_standalone_ok hs
    simpa using hp
  | unclosed tag hle hk hu =>
    obtain ⟨out, e, _, rfl⟩ := exists_of_standalone_ok hs
    simpa using hp
  | closed tag f fs hle hk hf =>
    obtain ⟨out, e, _, rfl⟩ := exists_of_close_ok hs
    simp only [stack_emit, Stack.length_frames_emit, Stack.pop, List.length_tail]
    omega
  | _ =>
    cases hs
    simpa using hp

/-- **A step reports a pair inside too many others where one with just so many around it begins.** -/
theorem Stands.filter_isTooDeep_step {d : Document} (h : d.Matched)
    (hmalformed : ∀ raw e, .malformed raw e ∈ d.nodes → e.isTooDeep = false)
    (hn : d.nodes[k]? = some n) (hp : Stands d s.config.maxNestingDepth k p)
    (hframes : p.stack.frames.length ≤ s.config.maxNestingDepth) (hs : p.step s k n = .ok q) :
    q.effects.diagnostics.filter (·.isTooDeep) = p.effects.diagnostics.filter (·.isTooDeep) ++
      ((d.openerAt? s.config.maxNestingDepth k).map
        (Tag.tooDeep s.config.maxNestingDepth)).toList := by
  have hpartner : d.partnerAt k = n.partner? := by simp [Document.partnerAt, hn]
  have htag : tagAt d.nodes k = n.tag? := by simp [tagAt, hn]
  have hmem : n ∈ d.nodes := List.mem_of_getElem? hn
  have hnone : n.partner? = none →
      d.openerAt? s.config.maxNestingDepth k = none := by
    intro hnone
    refine Document.openerAt?_of_unpaired fun j hj => ?_
    rw [hj.2, hnone] at hpartner
    cases hpartner
  have ht := takes_step s k n p
  generalize p.step s k n = r at ht hs
  cases ht with
  | kept n hlt =>
    obtain ⟨a, c, hd, hak, hkeep⟩ := hp.kept hlt
    cases hs
    rw [Document.openerAt?_of_deep h hd hak (by omega)]
    simp
  | text t hle =>
    cases hs
    simp [hnone rfl]
  | malformed raw e hle =>
    cases hs
    simp [hnone rfl, Effects.report, Diagnostic.isTooDeep, hmalformed raw e hmem]
  | alone tag partner hle hk =>
    have hunpaired := h.partnerAt_eq_none (i := k) (by simp [htag, Node.tag?, hk])
    obtain ⟨out, e, hi, rfl⟩ := exists_of_standalone_ok hs
    have hfilter := Effects.filter_isTooDeep_invoke s tag [] tag.raw p.effects
    rw [hi] at hfilter
    simpa [hnone (hpartner.symm.trans hunpaired)] using hfilter
  | deep tag close hle hk hd =>
    have hpair := h.pair_of_opening hpartner htag hk
    have hlen := hp.length_frames h hle hpair
    cases hs
    rw [Document.openerAt?_of_pair hpair, if_pos (by omega), htag]
    simp [Effects.report, Diagnostic.isTooDeep, ParseError.isTooDeep, Tag.tooDeep, Node.tag?]
  | opened tag close hle hk hd =>
    have hpair := h.pair_of_opening hpartner htag hk
    have hlen := hp.length_frames h hle hpair
    cases hs
    rw [Document.openerAt?_of_pair hpair, if_neg (by omega)]
    simp
  | unclosed tag hle hk hu =>
    obtain ⟨out, e, hi, rfl⟩ := exists_of_standalone_ok hs
    have hfilter := Effects.filter_isTooDeep_invoke s tag [] tag.raw
      (p.report (.parse (.unclosedTag tag.name tag.start))).effects
    rw [hi] at hfilter
    simpa [hnone rfl, Effects.report, Diagnostic.isTooDeep, ParseError.isTooDeep] using hfilter
  | stays tag hle hk hu =>
    cases hs
    simp [hnone rfl, Effects.report, Diagnostic.isTooDeep, ParseError.isTooDeep]
  | closed tag f fs hle hk hf =>
    have hpair := h.pair_of_closing hpartner htag hk
    have hunpaired : d.openerAt? s.config.maxNestingDepth k = none :=
      Document.openerAt?_of_unpaired fun l hl => h.isMatching.not_both hpair hl
    obtain ⟨out, e, hi, rfl⟩ := exists_of_close_ok hs
    have hfilter := Effects.filter_isTooDeep_invoke s f.opener f.buffer
      (f.opener.raw ++ f.buffer ++ tag.raw) p.effects
    rw [hi] at hfilter
    simpa [hunpaired] using hfilter
  | orphan tag partner hle hk hf =>
    have hunpaired : d.openerAt? s.config.maxNestingDepth k = none := by
      cases partner with
      | none => exact hnone rfl
      | some i =>
        have hpair := h.pair_of_closing hpartner htag hk
        exact Document.openerAt?_of_unpaired fun l hl => h.isMatching.not_both hpair hl
    cases hs
    simp [hunpaired]

/-- A limit matters only where a pair begins. -/
theorem step_limitedTo {l l' : Nat} (h : ∀ tag close, n = .tag tag (some close) →
      tag.kind = .opening → p.keepUntil ≤ k →
      p.stack.frames.length < l ∧ p.stack.frames.length < l') :
    p.step (s.limitedTo l) k n = p.step (s.limitedTo l') k n := by
  have ht := takes_step (s.limitedTo l) k n p
  generalize p.step (s.limitedTo l) k n = r at ht ⊢
  cases ht with
  | kept n hlt => exact (step_kept hlt n).symm
  | text t hle => exact (step_text hle t).symm
  | malformed raw e hle => exact (step_malformed hle raw e).symm
  | alone tag partner hle hk => exact (step_alone (s := s.limitedTo l') hle hk partner).symm
  | deep tag close hle hk hd => exact absurd (h tag close rfl hk hle).1 (Nat.not_lt.2 hd)
  | opened tag close hle hk hd => exact (step_opened hle hk (h tag close rfl hk hle).2 close).symm
  | unclosed tag hle hk hu => exact (step_unclosed (s := s.limitedTo l') hle hk hu).symm
  | stays tag hle hk hu => exact (step_stays (s := s.limitedTo l') hle hk hu).symm
  | closed tag f fs hle hk hf => exact (step_closed (s := s.limitedTo l') hle hk hf).symm
  | orphan tag partner hle hk hf => exact (step_orphan hle hk partner hf).symm

end

end Pass

/-! ## Runs -/

namespace Document

section
variable {d : Document} {s : Setting} {start : Effects} {k : Nat} {p q : Pass}

namespace Reaches

/-- **No more frames are open at a time than the limit allows.** -/
theorem frames_le (h : d.Reaches s start k p) :
    p.stack.frames.length ≤ s.config.maxNestingDepth :=
  (d.reaches_zero s start).induct
    (I := fun _ p => p.stack.frames.length ≤ s.config.maxNestingDepth) (Nat.zero_le _)
    (fun _ _ _ _ _ _ _ hp hs => Pass.frames_le_step hs hp) (Nat.zero_le k) h

/-- Nodes that are kept are put out as they are written. -/
theorem kept (h : d.Reaches s start k p) {m : Nat} (hkm : k ≤ m) (hm : m ≤ d.nodes.length)
    (hkeep : m ≤ p.keepUntil) :
    d.Reaches s start m (p.emit ((d.slice k m).map Node.raw).flatten) := by
  induction m, hkm using Nat.le_induction with
  | base =>
    rw [show d.slice k k = [] by simp [slice]]
    exact (Pass.emit_nil p).symm ▸ h
  | succ m hkm ih =>
    have hn := List.getElem?_eq_getElem hm
    have hslice : d.slice k (m + 1) = d.slice k m ++ [d.nodes[m]] := by
      rw [slice_append hkm (Nat.le_succ m), slice_cons hn (Nat.lt_succ_self m)]
      simp [slice]
    have hs := Pass.step_kept (s := s) (i := m)
      (p := p.emit ((d.slice k m).map Node.raw).flatten) hkeep d.nodes[m]
    have hnext := (ih (by omega) (by omega)).succ hn hs
    rw [hslice]
    simpa [Pass.emit] using hnext

section
variable (hm : d.Matched)
include hm

/-- **The reports of pairs inside too many others** are those of the pairs with just so many around
them. -/
theorem filter_isTooDeep (hmalformed : ∀ raw e, .malformed raw e ∈ d.nodes → e.isTooDeep = false)
    (hstart : start.diagnostics = []) (h : d.Reaches s start k p) :
    p.effects.diagnostics.filter (·.isTooDeep) =
      ((List.range k).filterMap (d.openerAt? s.config.maxNestingDepth)).map
        (Tag.tooDeep s.config.maxNestingDepth) := by
  refine (d.reaches_zero s start).induct (I := fun k p =>
    p.effects.diagnostics.filter (·.isTooDeep) =
      ((List.range k).filterMap (d.openerAt? s.config.maxNestingDepth)).map
        (Tag.tooDeep s.config.maxNestingDepth)) (by simp [hstart])
    (fun k n p q _ hp hn hI hs => ?_) (Nat.zero_le k) h
  rw [(hp.stands hm).filter_isTooDeep_step hm hmalformed hn hp.frames_le hs, hI, List.range_succ,
    List.filterMap_append, List.map_append]
  cases ho : d.openerAt? s.config.maxNestingDepth k <;> simp [ho]

/-- A pair of tags is opened just when it stands inside fewer others than the limit. -/
theorem expands_iff {i j : Nat} (hij : d.Pair i j) (h : d.Reaches s start j p) :
    d.Expands s start i j ↔ d.enclosing i j < s.config.maxNestingDepth := by
  have hp := h.stands hm
  constructor
  · rintro ⟨p', f, fs, hp', hle, hf, rfl⟩
    obtain rfl := h.unique hp'
    have hmem : f.node ∈ d.expandedAt s.config.maxNestingDepth j := by
      rw [← hp.nodes, Stack.nodes, hf]
      exact List.mem_cons_self
    have hexpanded := (List.mem_filter.1 hmem).2
    rwa [isExpanded_of_pair hij, decide_eq_true_eq] at hexpanded
  · intro hlt
    have hle : p.keepUntil ≤ j := by
      by_contra hgt
      -- a kept pair around the closing tag would be around the whole pair
      obtain ⟨a, c, hd, haj, hkeep⟩ := hp.kept (by omega)
      have hai : a ≤ i := by
        by_contra hia
        have := hm.isMatching.laminar hij hd.pair (by omega) haj
        omega
      have := (hd.inside hij hai (by omega)).le
      omega
    obtain ⟨f, fs, hf, hnode, _⟩ := hp.exists_frame hm hle hij
    exact ⟨p, f, fs, h, hle, hf, hnode⟩

/-- **A pair inside just as many others as the limit allows is passed over.** -/
theorem exists_reaches_behind {i j : Nat} (hij : d.Pair i j)
    (hlimit : d.enclosing i j = s.config.maxNestingDepth) {opener : Tag}
    (ht : tagAt d.nodes i = some opener) (h : d.Reaches s start i p) :
    ∃ q, d.Reaches s start (j + 1) q ∧
      q.stack = p.stack.emit ((d.slice i (j + 1)).map Node.raw).flatten ∧
      q.effects = p.effects.report (opener.tooDeep s.config.maxNestingDepth) ∧
      q.keepUntil = j + 1 := by
  have hp := h.stands hm
  have hlt := (hm.lt_length hij.2).2
  have hle : p.keepUntil ≤ i := by
    by_contra hgt
    -- a kept pair around it has at least `limit` pairs around it, so this one has more
    obtain ⟨a, c, hd, hai, hkeep⟩ := hp.kept (by omega)
    have := enclosing_lt hm hd.pair hij hai (by omega)
    have := hd.le
    omega
  obtain ⟨t, _, ht', _, hkind, _⟩ := hm.isMatching.tags hij
  rw [ht] at ht'
  cases ht'
  obtain ⟨n, hn, htag⟩ := Option.bind_eq_some_iff.1 ht
  have hpartner : n.partner? = some j := by
    rw [← hij.2, partnerAt, hn]
    rfl
  have hnode := Node.eq_tag_of_tag? htag
  rw [hpartner] at hnode
  subst hnode
  have hframes := hp.length_frames hm hle hij
  have hs := Pass.step_deep (s := s) hle hkind (by omega) j
  have hq := (h.succ hn hs).kept (m := j + 1) (by have := hij.1; omega) hlt (Nat.le_refl _)
  refine ⟨_, hq, ?_, rfl, rfl⟩
  rw [slice_cons hn (by have := hij.1; omega)]
  simp [Node.raw]

/-- A tag outside all kept pairs is called where the run comes to it, or reported as unknown. -/
theorem called {tag : Tag} (hcalls : d.Calls s k tag) (hp : d.Reaches s start k p)
    (hq : d.Reaches s start (k + 1) q) :
    (s.table.contains tag.name = true →
      ∃ content, p.effects.callOf tag content ∈ q.effects.calls) ∧
    (s.table.contains tag.name = false →
      .unresolved tag.name tag.start ∈ q.effects.diagnostics) := by
  obtain ⟨n, p', hn, hp', hs⟩ := hq.exists_of_succ
  obtain rfl := hp.unique hp'
  have hcall := ((hp.stands hm).calls_iff hm hn tag).2 hcalls
  constructor
  · intro hknown
    have hneeds : p.Needs s k n (p.effects.callOf tag (p.contentAt n)) := ⟨tag, hcall, hknown, rfl⟩
    have hdoes := Pass.does_step s k n p
    rw [hs] at hdoes
    cases hdoes with
    | quiet hnone => exact absurd hneeds (hnone _)
    | finished c work result hc _ _ _ hcalls =>
      refine ⟨p.contentAt n, ?_⟩
      rw [hcalls, hneeds.unique hc]
      simp
  · intro hunknown
    have hnone : s.table.get? tag.name = none := by simpa [Table.contains] using hunknown
    cases hcall with
    | alone _ _ hle hk =>
      rw [Pass.step_alone hle hk, Pass.standalone_of_unknown hnone] at hs
      cases hs
      simp [Effects.report]
    | unclosed _ hle hk hu =>
      rw [Pass.step_unclosed hle hk hu, Pass.standalone_of_unknown hnone] at hs
      cases hs
      simp [Effects.report]
    | closed _ f fs hle hk hf =>
      rw [Pass.step_closed hle hk hf, Pass.close_of_unknown hnone] at hs
      cases hs
      simp [Effects.report]

variable {l l' : Nat} (hdepth : ∀ i j, d.Pair i j → d.enclosing i j < l ∧ d.enclosing i j < l')
include hdepth

/-- A step is the same under two limits that no pair comes up to. -/
theorem step_limitedTo (h : d.Reaches (s.limitedTo l) start k p) {n : Node}
    (hn : d.nodes[k]? = some n) :
    p.step (s.limitedTo l) k n = p.step (s.limitedTo l') k n := by
  refine Pass.step_limitedTo fun tag close htag hk hle => ?_
  subst htag
  have hpair : d.Pair k close :=
    hm.pair_of_opening (by simp [partnerAt, hn, Node.partner?]) (by simp [tagAt, hn, Node.tag?]) hk
  rw [(h.stands hm).length_frames hm hle hpair]
  exact hdepth k close hpair

theorem limitedTo (h : d.Reaches (s.limitedTo l) start k p) : d.Reaches (s.limitedTo l') start k p := by
  induction k generalizing p with
  | zero =>
    rw [h.unique (d.reaches_zero _ _)]
    exact d.reaches_zero _ _
  | succ k ih =>
    obtain ⟨n, p', hn, hp', hs⟩ := h.exists_of_succ
    rw [hp'.step_limitedTo hm hdepth hn] at hs
    exact (ih hp').succ hn hs

end

end Reaches

/-- **Limits that no pair comes up to** make no difference. -/
theorem evaluate_limitedTo (hm : d.Matched) {l l' : Nat}
    (hdepth : ∀ i j, d.Pair i j → d.enclosing i j < l ∧ d.enclosing i j < l') (context : Context)
    (clock : Clock) :
    d.evaluate (s.limitedTo l) context clock = d.evaluate (s.limitedTo l') context clock := by
  rcases d.evaluate_cases (s.limitedTo l) context clock with ⟨q, hq, hr⟩ | ⟨k, p, cause, q, hstops, hr⟩
  · rw [hr, evaluate_of_reaches (hq.limitedTo hm hdepth)]
  · obtain ⟨n, hn, hs⟩ := hstops.step
    rw [hstops.reaches.step_limitedTo hm hdepth hn] at hs
    have hstops' : d.Stops (s.limitedTo l') ⟨context, clock, [], []⟩ k p cause q :=
      ⟨hstops.reaches.limitedTo hm hdepth, n, hn, hs⟩
    rw [hr, hstops'.evaluate]

/-- What is written from one tag of a pair to the other. -/
theorem exists_written {input : Text} {i j : Nat} (hij : i ≤ j) {opener closer : Tag}
    (ho : tagAt (parse input).nodes i = some opener)
    (hc : tagAt (parse input).nodes j = some closer) :
    ∃ before after, input = before ++ (((parse input).slice i (j + 1)).map Node.raw).flatten ++ after ∧
      byteLength before = opener.start ∧
      byteLength (before ++ (((parse input).slice i (j + 1)).map Node.raw).flatten) =
        closer.stop := by
  have hslice : ∀ k, i ≤ k → (parse input).nodes.take k =
      (parse input).nodes.take i ++ (parse input).slice i k := by
    intro k hik
    rw [slice, ← List.take_add, show i + (k - i) = k by omega]
  have hj : ((parse input).nodes.take (j + 1)).map Node.raw =
      ((parse input).nodes.take j).map Node.raw ++ [closer.raw] := by
    obtain ⟨n, hn, htag⟩ := Option.bind_eq_some_iff.1 hc
    obtain ⟨hlt, hget⟩ := List.getElem?_eq_some_iff.1 hn
    rw [List.take_succ_eq_append_getElem hlt, hget, Node.eq_tag_of_tag? htag]
    simp [Node.raw]
  refine ⟨(((parse input).nodes.take i).map Node.raw).flatten,
    (((parse input).nodes.drop (j + 1)).map Node.raw).flatten, ?_, (start_of_tagAt ho).symm, ?_⟩
  · rw [← List.flatten_append, ← List.map_append, ← hslice (j + 1) (by omega), ← List.flatten_append,
      ← List.map_append, List.take_append_drop]
    exact (source_parse input).symm
  · rw [← List.flatten_append, ← List.map_append, ← hslice (j + 1) (by omega), hj,
      List.flatten_append, byteLength_append, ← start_of_tagAt hc]
    simp [Tag.stop]

end

end Document

/-- **What the nesting limit does.**  No run has more frames open at a time than the limit allows.  A
run that is completed opens the pairs that stand inside fewer others than the limit, whatever their
names.  It reports those that stand inside just so many, one by one in their order, puts each of them
out as it is written, calls and reports nothing from inside, and goes on behind it; every tag that
stands in no such pair is called, or reported if its name is unknown.  Two limits that no pair comes
up to lead to the same report. -/
theorem evaluate_of_limit (s : Setting) (input : Text) (context : Context) (clock : Clock) :
    let d := Document.parse input
    let start : Effects := ⟨context, clock, [], []⟩
    let r := evaluate s input context clock
    let limit := s.config.maxNestingDepth
    (∀ k p, d.Reaches s start k p → p.stack.frames.length ≤ limit) ∧
    (r.halt = none →
      (∀ i j, d.Pair i j → (d.Expands s start i j ↔ d.enclosing i j < limit)) ∧
      r.diagnostics.filter (·.isTooDeep) = (d.openersAt limit).map (Tag.tooDeep limit) ∧
      (∀ i j opener closer, d.Pair i j → d.enclosing i j = limit →
        tagAt d.nodes i = some opener → tagAt d.nodes j = some closer →
        ∃ p q before written after, d.Reaches s start i p ∧ d.Reaches s start (j + 1) q ∧
          q.stack = p.stack.emit written ∧ q.effects = p.effects.report (opener.tooDeep limit) ∧
          q.keepUntil = j + 1 ∧ input = before ++ written ++ after ∧
          byteLength before = opener.start ∧ byteLength (before ++ written) = closer.stop) ∧
      ∀ k tag, d.Calls s k tag →
        (s.table.contains tag.name = true → ∃ c ∈ r.calls,
          c.name = tag.name ∧ c.arguments = tag.arguments ∧ c.offset = tag.start) ∧
        (s.table.contains tag.name = false →
          .unresolved tag.name tag.start ∈ r.diagnostics)) ∧
    ∀ l l', (∀ i j, d.Pair i j → d.enclosing i j < l ∧ d.enclosing i j < l') →
      evaluate (s.limitedTo l) input context clock =
        evaluate (s.limitedTo l') input context clock := by
  intro d start r limit
  have hm : d.Matched := Document.matched_parse input
  refine ⟨fun k p h => h.frames_le, fun hhalt => ?_,
    fun l l' hdepth => Document.evaluate_limitedTo hm hdepth context clock⟩
  obtain ⟨q, hq, hr⟩ := Document.exists_reaches_of_completed hhalt
  rw [show r = q.toReport none from hr]
  refine ⟨fun i j hij => ?_, ?_, fun i j opener closer hij hlimit ho hc => ?_,
    fun k tag hcalls => ?_⟩
  · obtain ⟨p, hp⟩ := hq.exists_of_le (Nat.le_of_lt (hm.lt_length hij.2).2)
    exact hp.expands_iff hm hij
  · exact hq.filter_isTooDeep hm (fun _ _ => Document.isTooDeep_of_malformed) rfl
  · obtain ⟨p, hp⟩ := hq.exists_of_le (Nat.le_of_lt (hm.lt_length hij.2).1)
    obtain ⟨p', hp', hstack, heffects, hkeep⟩ := hp.exists_reaches_behind hm hij hlimit ho
    obtain ⟨before, after, hinput, hbefore, hwritten⟩ :=
      Document.exists_written (Nat.le_of_lt hij.1) ho hc
    exact ⟨p, p', before, _, after, hp, hp', hstack, heffects, hkeep, hinput, hbefore, hwritten⟩
  · obtain ⟨_, ht⟩ := hcalls.exists_tagAt hm
    have hlt := lt_length_of_tagAt ht
    obtain ⟨p, hp⟩ := hq.exists_of_le (Nat.le_of_lt hlt)
    obtain ⟨p', hp'⟩ := hq.exists_of_le hlt
    obtain ⟨hknown, hunknown⟩ := hp.called hm hcalls hp'
    obtain ⟨hdiagnostics, hcallsq⟩ := hp'.grows hlt hq
    refine ⟨fun h => ?_, fun h => hdiagnostics.subset (hunknown h)⟩
    obtain ⟨content, hmem⟩ := hknown h
    exact ⟨_, hcallsq.subset hmem, rfl, rfl, rfl⟩

/-- A pair inside an unknown pair, with room for one, and a tag behind both. -/
theorem evaluate_of_limit_in_unknown :
    let b : Descriptor := ⟨"b".toList, .code, {}, .immediate fun _ _ c => (.ok ['!'], c)⟩
    let s : Setting := ⟨Table.empty.insertAll [b], { maxNestingDepth := 1 }, {}⟩
    let input := "[u]x[w][b/][/w][/u][b/]".toList
    let d := Document.parse input
    let r := evaluate s input .empty {}
    r.halt = none ∧ r.output = "[u]x[w][b/][/w][/u]!".toList ∧ d.Pair 0 5 ∧ d.Pair 2 4 ∧
      d.Expands s ⟨.empty, {}, [], []⟩ 0 5 ∧ ¬ d.Expands s ⟨.empty, {}, [], []⟩ 2 4 ∧
      r.diagnostics.filter (·.isTooDeep) = [.parse (.nestingTooDeep "w".toList 4 1)] := by
  intro b s input d r
  have hhalt : r.halt = none := by decide +kernel
  have hout : d.Pair 0 5 := ⟨by decide, by decide +kernel⟩
  have hin : d.Pair 2 4 := ⟨by decide, by decide +kernel⟩
  obtain ⟨_, hdone, _⟩ := evaluate_of_limit s input .empty {}
  obtain ⟨hexpands, hfilter, _⟩ := hdone hhalt
  have hzero : d.enclosing 0 5 = 0 := by decide +kernel
  have hone : d.enclosing 2 4 = 1 := by decide +kernel
  have hopeners : (d.openersAt 1).map (Tag.tooDeep 1) =
      [.parse (.nestingTooDeep "w".toList 4 1)] := by decide +kernel
  refine ⟨hhalt, by decide +kernel, hout, hin, ?_, ?_, hfilter.trans hopeners⟩
  · exact (hexpands 0 5 hout).2 (by rw [hzero]; decide)
  · intro h
    have := (hexpands 2 4 hin).1 h
    rw [hone] at this
    exact absurd this (Nat.lt_irrefl 1)

end Tagtext
