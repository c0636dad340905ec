import Tagtext.Proofs.Balance
import Tagtext.Proofs.Cut
import Tagtext.Proofs.Echo

/-!
# Runs that are over when they start

A run whose token is cancelled, or whose time is over, from the start goes on
until it would call a handler.  Up to there it puts out what it reads, so the
output is the text in front of the first node that calls a known tag, and all of
the text if there is none:

    the first such node t      output ++ rest = input, output ends where t starts
    no such node               output = input                      (evaluate_of_over)

Which nodes call is said of the document alone (`Document.Calls`), and the pass
agrees wherever it comes (`Pass.Stands.calls_iff`).
-/

namespace Tagtext

/-! ## Watches -/

namespace Watch

/-- Whether the token is cancelled by now. -/
def isCancelled (w : Watch) (c : Clock) : Bool :=
  w.hasToken && (c.cancelled || w.cancelAt.any (· ≤ c.now))

/-- Whether the run is out of time by now. -/
def isExpired (w : Watch) (c : Clock) : Bool := w.deadline.any (· ≤ c.now)

theorem now_le_of_cancellation? {w : Watch} {c : Clock} {t : Nat}
    (h : w.cancellation? c = some t) : c.now ≤ t := by
  unfold cancellation? at h
  split at h
  · cases h
  · split at h
    · cases h
      exact Nat.le_refl _
    · obtain ⟨u, _, rfl⟩ := Option.map_eq_some_iff.1 h
      exact Nat.le_max_left _ _

theorem now_le_of_expiry? {w : Watch} {c : Clock} {t : Nat} (h : w.expiry? c = some t) :
    c.now ≤ t := by
  obtain ⟨u, _, rfl⟩ := Option.map_eq_some_iff.1 h
  exact Nat.le_max_left _ _

theorem isCancelled_eq (w : Watch) (c : Clock) :
    w.isCancelled c = (w.cancellation? c).any (· ≤ c.now) := by
  unfold isCancelled cancellation?
  cases w.hasToken with
  | false => rfl
  | true =>
    cases c.cancelled with
    | true => simp
    | false => cases w.cancelAt <;> simp

theorem isExpired_eq (w : Watch) (c : Clock) :
    w.isExpired c = (w.expiry? c).any (· ≤ c.now) := by
  unfold isExpired expiry?
  cases w.deadline <;> simp

/-- What is due later does not stop a run that does not wait. -/
theorem filter_due {now t : Nat} (h : now ≤ t) (cause : Halt) :
    (some (cause, t)).filter (·.2 ≤ now) = if t ≤ now then some (cause, now) else none := by
  by_cases ht : t ≤ now
  · obtain rfl := Nat.le_antisymm ht h
    simp
  · rw [if_neg ht, Option.filter_some_neg (by simpa using ht)]

/-- What stops a run that does not wait: the token comes before the deadline. -/
theorem haltBy?_now (w : Watch) (c : Clock) :
    w.haltBy? c c.now =
      if w.isCancelled c then some (.cancelled, c.now)
      else if w.isExpired c then some (.timedOut, c.now) else none := by
  rw [isCancelled_eq, isExpired_eq, haltBy?, halt?]
  cases hc : w.cancellation? c with
  | none =>
    cases he : w.expiry? c with
    | none => rfl
    | some u => simpa using filter_due (now_le_of_expiry? he) .timedOut
  | some t =>
    have ht := now_le_of_cancellation? hc
    cases he : w.expiry? c with
    | none => simpa using filter_due ht .cancelled
    | some u =>
      have hu := now_le_of_expiry? he
      by_cases htu : t ≤ u
      · simp only [htu, if_true, filter_due ht, Option.any_some, decide_eq_true_eq]
        by_cases hnow : t ≤ c.now
        · simp [hnow]
        · simp [hnow, show ¬ u ≤ c.now by omega]
      · have hnow : ¬ t ≤ c.now := by omega
        simp [htu, filter_due hu, hnow]

/-- What ends a run that is over: cancellation, if the token is cancelled. -/
def overBy (w : Watch) (c : Clock) : Halt := if w.isCancelled c then .cancelled else .timedOut

theorem haltBy?_of_over {w : Watch} {c : Clock}
    (h : w.isCancelled c = true ∨ w.isExpired c = true) :
    w.haltBy? c c.now = some (w.overBy c, c.now) := by
  rw [haltBy?_now, overBy]
  rcases h with h | h
  · simp [h]
  · by_cases hc : w.isCancelled c = true
    · simp [hc]
    · simp [hc, h]

end Watch

/-! ## Calls -/

namespace Document

/-- Taking node `i`, which is not kept with a pair around it, calls the handler for a tag. -/
inductive Calls (d : Document) (s : Setting) (i : Nat) : Tag → Prop
  | alone {tag : Tag} (h : ¬ d.Echoed s.config.maxNestingDepth i) (ht : tagAt d.nodes i = some tag)
      (hk : tag.kind = .selfClosing) : Calls d s i tag
  /-- An opening tag without partner. -/
  | unclosed {tag : Tag} (h : ¬ d.Echoed s.config.maxNestingDepth i)
      (ht : tagAt d.nodes i = some tag) (hk : tag.kind = .opening) (hp : d.partnerAt i = none)
      (hu : s.config.unclosed = .standalone) : Calls d s i tag
  /-- The closing tag of a pair calls the handler for the opening one. -/
  | closed {k : Nat} {tag : Tag} (h : ¬ d.Echoed s.config.maxNestingDepth i) (hp : d.Pair k i)
      (ht : tagAt d.nodes k = some tag) : Calls d s i tag

theorem Calls.exists_tagAt {d : Document} (h : d.Matched) {s : Setting} {i : Nat} {tag : Tag}
    (hc : d.Calls s i tag) : ∃ t, tagAt d.nodes i = some t := by
  cases hc with
  | alone _ ht _ => exact ⟨_, ht⟩
  | unclosed _ ht _ _ _ => exact ⟨_, ht⟩
  | closed _ hp _ =>
    obtain ⟨_, c, _, hc, _⟩ := h.isMatching.tags hp
    exact ⟨c, hc⟩

/-- What is called stands where it is called, or in front of it. -/
theorem Calls.exists_tagAt_le {d : Document} {s : Setting} {i : Nat} {tag : Tag}
    (hc : d.Calls s i tag) : ∃ k ≤ i, tagAt d.nodes k = some tag := by
  cases hc with
  | alone _ ht _ => exact ⟨i, Nat.le_refl i, ht⟩
  | unclosed _ ht _ _ _ => exact ⟨i, Nat.le_refl i, ht⟩
  | closed _ hp ht => exact ⟨_, Nat.le_of_lt hp.1, ht⟩

/-- Taking node `i` calls a tag that the table knows. -/
def CallsKnown (d : Document) (s : Setting) (i : Nat) : Prop :=
  ∃ tag, d.Calls s i tag ∧ s.table.contains tag.name = true

end Document

namespace Pass

section
variable {d : Document} (h : d.Matched) {s : Setting} {k : Nat} {n : Node} {p : Pass}
  (hn : d.nodes[k]? = some n) (hp : Stands d s.config.maxNestingDepth k p)
include hp

/-- A node at which no pair begins is kept only with a pair around it. -/
theorem Stands.not_echoed (hle : p.keepUntil ≤ k) (hk : ∀ j, ¬ d.Pair k j) :
    ¬ d.Echoed s.config.maxNestingDepth k := by
  rintro ⟨i, j, hd, hik, hkj⟩
  rcases Nat.lt_or_eq_of_le hik with hik | rfl
  · exact hp.outside hle i j hd hik hkj
  · exact hk j hd.pair

theorem Stands.keepUntil_le (hk : ¬ d.Echoed s.config.maxNestingDepth k) : p.keepUntil ≤ k := by
  by_contra hlt
  obtain ⟨i, j, hd, hik, hkeep⟩ := hp.kept (by omega)
  exact hk ⟨i, j, hd, by omega, by omega⟩

include h hn

/-- **A pass calls what its document says.** -/
theorem Stands.calls_iff (tag : Tag) : Calls s k p n tag ↔ d.Calls s k tag := by
  have hpartner : d.partnerAt k = n.partner? := by simp [Document.partnerAt, hn]
  have htag : tagAt d.nodes k = n.tag? := by simp [tagAt, hn]
  constructor
  · intro hc
    cases hc with
    | alone tag partner hle hk =>
      have hnone := h.partnerAt_eq_none (i := k) (by simp [htag, Node.tag?, hk])
      exact .alone (hp.not_echoed hle (by simp [Document.Pair, hnone])) htag hk
    | unclosed tag hle hk hu =>
      have hnone : d.partnerAt k = none := hpartner
      exact .unclosed (hp.not_echoed hle (by simp [Document.Pair, hnone])) htag hk hnone hu
    | closed tag f fs hle hk hf =>
      have hpair := h.pair_of_closing hpartner htag hk
      obtain ⟨f', fs', hf', _, hopener⟩ := hp.exists_frame h hle hpair
      rw [hf] at hf'
      cases hf'
      exact .closed (hp.not_echoed hle fun j hj => h.isMatching.not_both hpair hj) hpair hopener
  · intro hc
    cases hc with
    | alone hecho ht hk =>
      rw [htag] at ht
      rw [Node.eq_tag_of_tag? ht]
      exact .alone tag _ (hp.keepUntil_le hecho) hk
    | unclosed hecho ht hk hnone hu =>
      rw [htag] at ht
      rw [Node.eq_tag_of_tag? ht, ← hpartner, hnone]
      exact .unclosed tag (hp.keepUntil_le hecho) hk hu
    | closed hecho hpair ht =>
      have hle := hp.keepUntil_le hecho
      obtain ⟨f, fs, hf, rfl, hopener⟩ := hp.exists_frame h hle hpair
      obtain ⟨_, c, _, hc, _, hck, _⟩ := h.isMatching.tags hpair
      rw [ht] at hopener
      cases hopener
      rw [htag] at hc
      rw [Node.eq_tag_of_tag? hc, ← hpartner, h.symm hpair.2]
      exact .closed c f fs hle hck hf

end

/-! ## A watch that is over -/

/-- A call of a known tag is refused when the watch is over. -/
theorem exists_refused {s : Setting} {start : Effects} {written : Text} {p : Pass} {n : Node}
    {i : Nat} {tag : Tag} (h : Echoes start written p) (hcall : Calls s i p n tag)
    (hknown : s.table.contains tag.name = true) {cause : Halt} {t : Nat}
    (hw : s.watch.haltBy? start.clock start.clock.now = some (cause, t)) :
    ∃ q, p.step s i n = .error (cause, q) ∧ Echoes start written q := by
  obtain ⟨d, hd⟩ := Option.isSome_iff_exists.1 hknown
  have hinvoke : ∀ (content fallback : Text) (e : Effects), e.clock = start.clock →
      e.invoke s tag content fallback = (.error cause, e) := by
    intro content fallback e he
    rw [← he] at hw
    simp only [Effects.invoke, hd, hw]
  cases hcall with
  | alone tag partner hle hk =>
    rw [step_alone hle hk, standalone, hinvoke _ _ _ h.clock]
    exact ⟨_, rfl, h⟩
  | unclosed tag hle hk hu =>
    have h' := h.report (.parse (.unclosedTag tag.name tag.start))
    rw [step_unclosed hle hk hu, standalone, hinvoke _ _ _ h'.clock]
    exact ⟨_, rfl, h'⟩
  | closed tag f fs hle hk hf =>
    rw [step_closed hle hk hf, close, hinvoke _ _ _ h.clock]
    exact ⟨_, rfl, h⟩

/-- A walk puts out what it reads as long as no known tag is called. -/
theorem exists_walk_of_uncalled {d : Document} (h : d.Matched) {s : Setting} (start : Effects)
    {k : Nat} (hk : k ≤ d.nodes.length) (hnone : ∀ i < k, ¬ d.CallsKnown s i) :
    ∃ q, walk s 0 (d.nodes.take k) ⟨.empty, start, 0⟩ = .ok q ∧
      Echoes start ((d.nodes.take k).map Node.raw).flatten q := by
  induction k with
  | zero => exact ⟨_, rfl, rfl, rfl, rfl, rfl⟩
  | succ k ih =>
    obtain ⟨p, hw, hecho⟩ := ih (by omega) fun i hi => hnone i (by omega)
    have hp := stands_walk h (by omega) hw
    have hn : d.nodes[k]? = some d.nodes[k] := List.getElem?_eq_getElem hk
    obtain ⟨q, hs, hq⟩ := exists_echoes_of_uncalled hecho (n := d.nodes[k]) (i := k)
      (fun tag hcall => by
        cases hknown : s.table.get? tag.name with
        | none => rfl
        | some _ =>
          have hcalls := (hp.calls_iff h hn tag).1 hcall
          exact absurd ⟨tag, hcalls, by simp [Table.contains, hknown]⟩ (hnone k (by omega)))
    have htake : d.nodes.take (k + 1) = d.nodes.take k ++ [d.nodes[k]] :=
      List.take_succ_eq_append_getElem hk
    have hlen : 0 + (d.nodes.take k).length = k := by
      rw [Nat.zero_add, List.length_take]
      omega
    refine ⟨q, ?_, ?_⟩
    · rw [htake, walk_append_of_ok _ hw, hlen, walk_cons_of_ok hs]
      rfl
    · rw [htake, List.map_append, List.flatten_append]
      simpa using hq

/-- A walk under a watch that is over ends at the first node that calls a known tag. -/
theorem exists_walk_of_over {d : Document} (h : d.Matched) {s : Setting} (start : Effects)
    {cause : Halt} {u : Nat}
    (hw : s.watch.haltBy? start.clock start.clock.now = some (cause, u)) {t : Nat}
    (hcall : d.CallsKnown s t) (hfirst : ∀ i < t, ¬ d.CallsKnown s i) :
    ∃ q, walk s 0 d.nodes ⟨.empty, start, 0⟩ = .error (cause, q) ∧
      Echoes start ((d.nodes.take t).map Node.raw).flatten q := by
  obtain ⟨tag, hcalls, hknown⟩ := hcall
  obtain ⟨_, ht⟩ := hcalls.exists_tagAt h
  have hlt := lt_length_of_tagAt ht
  have hn : d.nodes[t]? = some d.nodes[t] := List.getElem?_eq_getElem hlt
  obtain ⟨p, hwalk, hecho⟩ := exists_walk_of_uncalled h start (Nat.le_of_lt hlt) hfirst
  have hp := stands_walk h (Nat.le_of_lt hlt) hwalk
  obtain ⟨q, hs, hq⟩ := exists_refused hecho ((hp.calls_iff h hn tag).2 hcalls) hknown hw
  have hlen : 0 + (d.nodes.take t).length = t := by
    rw [Nat.zero_add, List.length_take]
    omega
  have hsplit : d.nodes = d.nodes.take t ++ d.nodes[t] :: d.nodes.drop (t + 1) := by
    rw [← List.drop_eq_getElem_cons hlt, List.take_append_drop]
  refine ⟨q, ?_, hq⟩
  rw [hsplit, walk_append_of_ok _ hwalk, hlen, walk_cons_of_error hs]

end Pass

namespace Document

section
variable {d : Document} (hm : d.Matched) {s : Setting} (context : Context) {clock : Clock}
include hm

/-- The first call of a known tag ends a run that is over. -/
theorem exists_toReport_of_over
    (h : s.watch.isCancelled clock = true ∨ s.watch.isExpired clock = true) {t : Nat}
    (hcall : d.CallsKnown s t) (hfirst : ∀ i < t, ¬ d.CallsKnown s i) :
    ∃ q : Pass, d.evaluate s context clock = q.toReport (some (s.watch.overBy clock)) ∧
      q.Echoes ⟨context, clock, [], []⟩ ((d.nodes.take t).map Node.raw).flatten := by
  obtain ⟨q, hwalk, hq⟩ := Pass.exists_walk_of_over hm ⟨context, clock, [], []⟩
    (Watch.haltBy?_of_over h) hcall hfirst
  exact ⟨q, evaluate_of_walk_error hwalk, hq⟩

/-- A run that calls no known tag puts out what it reads. -/
theorem exists_toReport_of_uncalled (hnone : ∀ t, ¬ d.CallsKnown s t) :
    ∃ q : Pass, d.evaluate s context clock = q.toReport none ∧
      q.Echoes ⟨context, clock, [], []⟩ d.source := by
  obtain ⟨q, hwalk, hq⟩ := Pass.exists_walk_of_uncalled hm ⟨context, clock, [], []⟩
    (Nat.le_refl _) fun i _ => hnone i
  rw [List.take_length] at hwalk hq
  exact ⟨q, evaluate_of_walk hwalk, hq⟩

/-- In either case the run has left the context and called nothing. -/
theorem exists_echoes_of_over
    (h : s.watch.isCancelled clock = true ∨ s.watch.isExpired clock = true) :
    ∃ halt written, ∃ q : Pass, d.evaluate s context clock = q.toReport halt ∧
      q.Echoes ⟨context, clock, [], []⟩ written := by
  classical
  by_cases hex : ∃ t, d.CallsKnown s t
  · obtain ⟨q, hr⟩ := exists_toReport_of_over hm context h (Nat.find_spec hex)
      fun i hi => Nat.find_min hex hi
    exact ⟨_, _, q, hr⟩
  · obtain ⟨q, hr⟩ := exists_toReport_of_uncalled hm context fun t ht => hex ⟨t, ht⟩
    exact ⟨_, _, q, hr⟩

end

end Document

/-- **A run that is over when it starts comes as far as the first call.**  If the token is cancelled
or the time is over at the start, nothing is called and the context stays.  The first node that
calls a known tag stops the run, and the output is the text in front of that node; without such a
node the run is completed, and the output is all of the text. -/
theorem evaluate_of_over (s : Setting) (input : Text) (context : Context) (clock : Clock)
    (h : s.watch.isCancelled clock = true ∨ s.watch.isExpired clock = true) :
    let d := Document.parse input
    let r := evaluate s input context clock
    r.context = context ∧ r.calls = [] ∧
      (∀ t, d.CallsKnown s t → (∀ i < t, ¬ d.CallsKnown s i) →
        r.halt = some (if s.watch.isCancelled clock then .cancelled else .timedOut) ∧
        ∃ tag rest, tagAt d.nodes t = some tag ∧ input = r.output ++ tag.raw ++ rest ∧
          byteLength r.output = tag.start) ∧
      ((∀ t, ¬ d.CallsKnown s t) → r.halt = none ∧ r.output = input) := by
  intro d r
  have hm : d.Matched := Document.matched_parse input
  obtain ⟨halt, written, q, hr, hq⟩ := Document.exists_echoes_of_over hm context h
  refine ⟨?_, ?_, fun t hcall hfirst => ?_, fun hnone => ?_⟩
  · exact (congrArg Report.context hr).trans hq.context
  · exact (congrArg Report.calls hr).trans hq.calls
  · obtain ⟨q, hr, hq⟩ := Document.exists_toReport_of_over hm context h hcall hfirst
    obtain ⟨_, hcalls, _⟩ := hcall
    obtain ⟨tag, ht⟩ := hcalls.exists_tagAt hm
    have hout : r.output = ((d.nodes.take t).map Node.raw).flatten :=
      (congrArg Report.output hr).trans hq.unwind
    refine ⟨congrArg Report.halt hr, tag, ((d.nodes.drop (t + 1)).map Node.raw).flatten, ht, ?_, ?_⟩
    · rw [hout]
      exact Document.source_of_tagAt ht
    · rw [hout]
      exact (Document.start_of_tagAt ht).symm
  · obtain ⟨q, hr, hq⟩ := Document.exists_toReport_of_uncalled hm context hnone
    rw [Document.source_parse] at hq
    exact ⟨congrArg Report.halt hr, (congrArg Report.output hr).trans hq.unwind⟩

/-- Two unknown pairs, the inner one inside too many others, in front of the first call. -/
theorem evaluate_of_over_behind_unknown :
    let b : Descriptor := ⟨"b".toList, .code, {}, .immediate fun _ _ c =>
      (.ok ['!'], c.increment "n".toList)⟩
    let s : Setting :=
      ⟨Table.empty.insertAll [b], { maxNestingDepth := 1 }, { hasToken := true, deadline := some 0 }⟩
    let input := "[u]y[u]x[/u][/u][b/]z".toList
    let d := Document.parse input
    s.watch.isCancelled ⟨0, true⟩ = true ∧ d.CallsKnown s 6 ∧ (∀ i < 6, ¬ d.CallsKnown s i) ∧
      (evaluate s input .empty ⟨0, true⟩).halt = some .cancelled ∧
      (evaluate s input .empty ⟨0, true⟩).calls = [] ∧
      ∃ rest, input = (evaluate s input .empty ⟨0, true⟩).output ++ "[b/]".toList ++ rest := by
  intro b s input d
  have hover : s.watch.isCancelled ⟨0, true⟩ = true := rfl
  have hcall : d.CallsKnown s 6 := by
    refine ⟨⟨"b".toList, .selfClosing, [], "[b/]".toList, 16⟩, .alone ?_ ?_ rfl, ?_⟩
    · rintro ⟨i, j, ⟨hpair, _⟩, hi, hj⟩
      have hlt := (Document.matched_parse input).lt_length hpair.2
      have hall : ∀ i < d.nodes.length, ∀ j < d.nodes.length, i ≤ 6 → 6 ≤ j →
          d.partnerAt i ≠ some j := by decide +kernel
      exact hall i hlt.1 j hlt.2 hi hj hpair.2
    · decide +kernel
    · decide +kernel
  have hfirst : ∀ i < 6, ¬ d.CallsKnown s i := by
    rintro i hi ⟨tag, hc, hknown⟩
    obtain ⟨k, hk, ht⟩ := hc.exists_tagAt_le
    have hall : ∀ k < 6, ((tagAt d.nodes k).all fun t => !s.table.contains t.name) = true := by
      decide +kernel
    simpa [ht, hknown] using hall k (by omega)
  obtain ⟨_, hcalls, hstop, _⟩ := evaluate_of_over s input .empty ⟨0, true⟩ (Or.inl hover)
  obtain ⟨hhalt, tag, rest, ht, hinput, _⟩ := hstop 6 hcall hfirst
  have hraw : tag.raw = "[b/]".toList := by
    have hat : (tagAt d.nodes 6).map (·.raw) = some "[b/]".toList := by decide +kernel
    rw [ht] at hat
    exact Option.some.inj hat
  rw [hraw] at hinput
  exact ⟨hover, hcall, hfirst, hhalt, hcalls, rest, hinput⟩

end Tagtext
