import Tagtext.Proofs.Nesting
import Tagtext.Proofs.Step

/-!
# The stack of a pass

A pass opens the pairs that stand inside fewer than `limit` others and keeps the
rest as they are written.  In front of node `k` its frames are the opened pairs
around that node, and it is inside a kept pair when the node is:

    p.stack.nodes = d.expandedAt limit k
    k < p.keepUntil ↔ k stands behind the opening tag of a kept pair, and not behind the pair

Every step that is not stopped keeps this (`stands_step`), so it holds wherever
a walk comes (`stands_walk`); and where a pair ends that was opened, its frame
is the innermost one (`exists_frame`).
-/

namespace Tagtext

namespace Document

/-- The pair from `i` to `j` stands inside so many others that it is kept as it is written. -/
structure Deep (d : Document) (limit i j : Nat) : Prop where
  pair : d.Pair i j
  le : limit ≤ d.enclosing i j

/-- Whether the pair that begins at `i` stands inside fewer than `limit` others. -/
def isExpanded (d : Document) (limit i : Nat) : Bool :=
  (d.partnerAt i).any fun j => d.enclosing i j < limit

/-- The opening tags in front of node `k` of the opened pairs around it, the innermost first. -/
def expandedAt (d : Document) (limit k : Nat) : List Nat :=
  (d.openAt k).filter (d.isExpanded limit)

/-- Node `k` belongs to a pair that is kept as it is written. -/
def Echoed (d : Document) (limit k : Nat) : Prop := ∃ i j, d.Deep limit i j ∧ i ≤ k ∧ k ≤ j

end Document

/-- What holds of a pass in front of node `k`. -/
structure Pass.Stands (d : Document) (limit k : Nat) (p : Pass) : Prop where
  nodes : p.stack.nodes = d.expandedAt limit k
  openers : p.stack.nodes.map (tagAt d.nodes) = p.stack.openers.map some
  /-- All of a kept pair behind its opening tag is kept. -/
  keeps : ∀ i j, d.Deep limit i j → i < k → k ≤ j → j < p.keepUntil
  /-- Nothing else is kept. -/
  kept : k < p.keepUntil → ∃ i j, d.Deep limit i j ∧ i < k ∧ p.keepUntil = j + 1

/-! ## Kept pairs -/

namespace Document

variable {d : Document} {limit i j k : Nat}

theorem isExpanded_of_pair (h : d.Pair i j) :
    d.isExpanded limit i = decide (d.enclosing i j < limit) := by
  simp [isExpanded, h.2]

/-- Opened around a node are the pairs that it stands in and that stand inside fewer others than
the limit. -/
theorem mem_expandedAt :
    i ∈ d.expandedAt limit k ↔ ∃ j, d.Pair i j ∧ d.enclosing i j < limit ∧ i < k ∧ k ≤ j := by
  rw [expandedAt, List.mem_filter, mem_openAt]
  constructor
  · rintro ⟨⟨hik, j, hp, hkj⟩, hexpanded⟩
    have hij : d.Pair i j := ⟨by omega, hp⟩
    rw [isExpanded_of_pair hij, decide_eq_true_eq] at hexpanded
    exact ⟨j, hij, hexpanded, hik, hkj⟩
  · rintro ⟨j, hij, hlt, hik, hkj⟩
    refine ⟨⟨hik, j, hij.2, hkj⟩, ?_⟩
    rw [isExpanded_of_pair hij, decide_eq_true_eq]
    exact hlt

/-- A pair inside a kept pair would be kept by itself. -/
theorem Deep.inside {a c : Nat} (h : d.Deep limit a c) (hij : d.Pair i j) (hai : a ≤ i)
    (hjc : j ≤ c) : d.Deep limit i j :=
  ⟨hij, Nat.le_trans h.le (d.enclosing_mono hai hjc)⟩

theorem Deep.isExpanded (h : d.Deep limit i j) : d.isExpanded limit i = false := by
  have := h.le
  rw [isExpanded_of_pair h.pair, decide_eq_false_iff_not]
  omega

section
variable (h : d.Matched)
include h

/-- Inside a kept pair no pair is opened or closed. -/
theorem expandedAt_succ_of_deep {a c : Nat} (hd : d.Deep limit a c) (hak : a < k) (hkc : k ≤ c) :
    d.expandedAt limit (k + 1) = d.expandedAt limit k := by
  unfold expandedAt
  cases hp : d.partnerAt k with
  | none => rw [openAt_succ_of_none h hp]
  | some j =>
    rcases (h.partnerAt_iff k j).1 hp with hkj | hjk
    · have hkc' : k ≠ c := by
        rintro rfl
        exact h.isMatching.not_both hd.pair hkj
      have hjc := h.isMatching.laminar hd.pair hkj hak (by omega)
      have hdeep := hd.inside hkj (by omega) (by omega)
      rw [openAt_succ_of_opening h hkj, List.filter_cons, hdeep.isExpanded]
      rfl
    · have haj : a ≤ j := by
        by_contra hlt
        have := h.isMatching.laminar hjk hd.pair (by omega) hak
        omega
      have hdeep := hd.inside hjk haj hkc
      rw [openAt_of_closing h hjk, List.filter_cons, hdeep.isExpanded]
      rfl

omit h in
/-- Outside all kept pairs every pair is opened. -/
theorem expandedAt_of_outside (hout : ∀ i j, d.Deep limit i j → i < k → ¬ k ≤ j) :
    d.expandedAt limit k = d.openAt k := by
  refine List.filter_eq_self.2 fun i hi => ?_
  obtain ⟨hik, j, hp, hkj⟩ := mem_openAt.1 hi
  have hpair : d.Pair i j := ⟨by omega, hp⟩
  rw [isExpanded_of_pair hpair, decide_eq_true_eq]
  by_contra hle
  exact hout i j ⟨hpair, by omega⟩ hik hkj

end

end Document

/-! ## Steps -/

namespace Pass.Stands

variable {d : Document} {limit k : Nat} {p q : Pass}

/-- Nothing stands open in front of the first node. -/
theorem zero (d : Document) (limit : Nat) (e : Effects) : Stands d limit 0 ⟨.empty, e, 0⟩ :=
  ⟨rfl, rfl, fun i _ _ hi => absurd hi (Nat.not_lt_zero i), fun hlt => absurd hlt (Nat.lt_irrefl 0)⟩

theorem outside (hp : Stands d limit k p) (hle : p.keepUntil ≤ k) :
    ∀ i j, d.Deep limit i j → i < k → ¬ k ≤ j := by
  intro i j hd hik hkj
  have := hp.keeps i j hd hik hkj
  omega

theorem nodes_eq (hp : Stands d limit k p) (hle : p.keepUntil ≤ k) :
    p.stack.nodes = d.openAt k := by
  rw [hp.nodes, Document.expandedAt_of_outside (hp.outside hle)]

section
variable (h : d.Matched)
include h

theorem length_frames (hp : Stands d limit k p) (hle : p.keepUntil ≤ k) {j : Nat}
    (hkj : d.Pair k j) : p.stack.frames.length = d.enclosing k j := by
  rw [← Stack.length_nodes, hp.nodes_eq hle, Document.length_openAt h hkj]

/-- A node of a kept pair is put out. -/
theorem kept_step (hp : Stands d limit k p) (hlt : k < p.keepUntil) (t : Text) :
    Stands d limit (k + 1) (p.emit t) := by
  obtain ⟨a, c, hd, hak, hkeep⟩ := hp.kept hlt
  refine ⟨?_, ?_, fun i j hij hik hkj => ?_, fun hlt' => ⟨a, c, hd, by omega, hkeep⟩⟩
  · rw [stack_emit, Stack.nodes_emit, hp.nodes,
      Document.expandedAt_succ_of_deep h hd hak (by omega)]
  · simpa using hp.openers
  · rcases Nat.lt_succ_iff_lt_or_eq.1 hik with hik | rfl
    · exact hp.keeps i j hij hik (by omega)
    · have hic : i ≠ c := by
        rintro rfl
        exact h.isMatching.not_both hd.pair hij.pair
      have := h.isMatching.laminar hd.pair hij.pair hak (by rw [hkeep] at hlt; omega)
      rw [keepUntil_emit]
      omega

/-- A node without partner opens and closes nothing. -/
theorem single (hp : Stands d limit k p) (hle : p.keepUntil ≤ k) (hk : d.partnerAt k = none)
    {t : Text} (hstack : q.stack = p.stack.emit t) (hkeep : q.keepUntil = p.keepUntil) :
    Stands d limit (k + 1) q := by
  refine ⟨?_, ?_, fun i j hij hik hkj => ?_, by omega⟩
  · rw [hstack, Stack.nodes_emit, hp.nodes, Document.expandedAt, Document.expandedAt,
      Document.openAt_succ_of_none h hk]
  · rw [hstack]
    simpa using hp.openers
  · rcases Nat.lt_succ_iff_lt_or_eq.1 hik with hik | rfl
    · exact absurd (by omega) (hp.outside hle i j hij hik)
    · rw [hij.pair.2] at hk
      cases hk

/-- A pair inside too many others is kept from its opening tag on. -/
theorem deep (hp : Stands d limit k p) (hle : p.keepUntil ≤ k) {j : Nat} (hkj : d.Pair k j)
    (hlimit : limit ≤ p.stack.frames.length) {t : Text} (hstack : q.stack = p.stack.emit t)
    (hkeep : q.keepUntil = j + 1) : Stands d limit (k + 1) q := by
  have hd : d.Deep limit k j := ⟨hkj, by rwa [← hp.length_frames h hle hkj]⟩
  refine ⟨?_, ?_, fun a b hab hak hkb => ?_, fun _ => ⟨k, j, hd, by omega, hkeep⟩⟩
  · rw [hstack, Stack.nodes_emit, hp.nodes, Document.expandedAt, Document.expandedAt,
      Document.openAt_succ_of_opening h hkj, List.filter_cons, hd.isExpanded]
    rfl
  · rw [hstack]
    simpa using hp.openers
  · rcases Nat.lt_succ_iff_lt_or_eq.1 hak with hak | rfl
    · exact absurd (by omega) (hp.outside hle a b hab hak)
    · have := h.isMatching.closer_unique hab.pair hkj
      omega

/-- A pair inside few others is opened. -/
theorem opened (hp : Stands d limit k p) (hle : p.keepUntil ≤ k) {j : Nat} (hkj : d.Pair k j)
    (hlimit : p.stack.frames.length < limit) {tag : Tag} (htag : tagAt d.nodes k = some tag) :
    Stands d limit (k + 1) { p with stack := p.stack.push k tag } := by
  rw [hp.length_frames h hle hkj] at hlimit
  have hexpanded : d.isExpanded limit k = true := by
    rw [Document.isExpanded_of_pair hkj]
    exact decide_eq_true hlimit
  refine ⟨?_, ?_, fun a b hab hak hkb => ?_, fun hlt => absurd hlt (by simp only; omega)⟩
  · rw [Stack.nodes_push, hp.nodes, Document.expandedAt, Document.expandedAt,
      Document.openAt_succ_of_opening h hkj, List.filter_cons, hexpanded]
    rfl
  · simp [htag, hp.openers]
  · rcases Nat.lt_succ_iff_lt_or_eq.1 hak with hak | rfl
    · exact absurd (by omega) (hp.outside hle a b hab hak)
    · have := h.isMatching.closer_unique hab.pair hkj
      have := hab.le
      subst b
      omega

/-- Where a pair ends that is not kept, its frame is the innermost. -/
theorem exists_frame (hp : Stands d limit k p) (hle : p.keepUntil ≤ k) {i : Nat}
    (hik : d.Pair i k) :
    ∃ f fs, p.stack.frames = f :: fs ∧ f.node = i ∧ tagAt d.nodes i = some f.opener := by
  have hnodes := hp.nodes_eq hle
  rw [Document.openAt_of_closing h hik, Stack.nodes] at hnodes
  obtain ⟨f, fs, hfs, rfl, _⟩ := List.map_eq_cons_iff.1 hnodes
  have hopeners := hp.openers
  simp only [Stack.nodes, Stack.openers, hfs, List.map_cons, List.cons.injEq] at hopeners
  exact ⟨f, fs, hfs, rfl, hopeners.1⟩

/-- A pair is closed. -/
theorem closed (hp : Stands d limit k p) (hle : p.keepUntil ≤ k) {i : Nat} (hik : d.Pair i k)
    {t : Text} (hstack : q.stack = p.stack.pop.emit t) (hkeep : q.keepUntil = p.keepUntil) :
    Stands d limit (k + 1) q := by
  have hout : ∀ a b, d.Deep limit a b → a < k + 1 → ¬ k + 1 ≤ b := by
    intro a b hab hak hkb
    rcases Nat.lt_succ_iff_lt_or_eq.1 hak with hak | rfl
    · exact hp.outside hle a b hab hak (by omega)
    · exact h.isMatching.not_both hik hab.pair
  refine ⟨?_, ?_, fun a b hab hak hkb => absurd hkb (hout a b hab hak), by omega⟩
  · rw [hstack, Stack.nodes_emit, Stack.nodes_pop, hp.nodes_eq hle,
      Document.openAt_of_closing h hik, List.tail_cons, Document.expandedAt_of_outside hout]
  · rw [hstack, Stack.nodes_emit, Stack.nodes_pop, Stack.openers_emit, Stack.openers_pop,
      List.map_tail, List.map_tail, hp.openers]

/-- At the end of the document nothing is open and nothing is kept. -/
theorem end_of_nodes (hp : Stands d limit d.nodes.length p) :
    p.stack.frames = [] ∧ p.keepUntil ≤ d.nodes.length := by
  constructor
  · have hnodes := hp.nodes
    rw [Document.expandedAt, Document.openAt_nodes_length h] at hnodes
    exact List.map_eq_nil_iff.1 hnodes
  · by_contra hlt
    obtain ⟨i, j, hd, _, hkeep⟩ := hp.kept (by omega)
    have := (h.lt_length hd.pair.2).2
    omega

end

end Pass.Stands

namespace Pass

variable {d : Document} (h : d.Matched) {s : Setting}
include h

/-- **Each step keeps the stack balanced.** -/
theorem stands_step {k : Nat} {n : Node} {p q : Pass} (hn : d.nodes[k]? = some n)
    (hp : Stands d s.config.maxNestingDepth k p) (hs : p.step s k n = .ok q) :
    Stands d s.config.maxNestingDepth (k + 1) q := by
  have hpartner : d.partnerAt k = n.partner? := by simp [Document.partnerAt, hn]
  have htag : tagAt d.nodes k = n.tag? := by simp [tagAt, hn]
  have ht := takes_step s k n p
  generalize p.step s k n = r at ht hs
  cases ht with
  | kept n hlt =>
    cases hs
    exact hp.kept_step h hlt _
  | text t hle =>
    cases hs
    exact hp.single h hle hpartner rfl rfl
  | malformed raw e hle =>
    cases hs
    exact hp.single h hle hpartner rfl rfl
  | alone tag partner hle hk =>
    have hnone := h.partnerAt_eq_none (i := k) (by simp [htag, Node.tag?, hk])
    obtain ⟨out, e, _, rfl⟩ := exists_of_standalone_ok hs
    exact hp.single h hle hnone rfl rfl
  | deep tag close hle hk hd =>
    cases hs
    exact hp.deep h hle (h.pair_of_opening hpartner htag hk) hd rfl rfl
  | opened tag close hle hk hd =>
    cases hs
    exact hp.opened h hle (h.pair_of_opening hpartner htag hk) hd htag
  | unclosed tag hle hk hu =>
    obtain ⟨out, e, _, rfl⟩ := exists_of_standalone_ok hs
    exact hp.single h hle hpartner rfl rfl
  | stays tag hle hk hu =>
    cases hs
    exact hp.single h hle hpartner rfl rfl
  | closed tag f fs hle hk hf =>
    obtain ⟨out, e, _, rfl⟩ := exists_of_close_ok hs
    exact hp.closed h hle (h.pair_of_closing hpartner htag hk) rfl rfl
  | orphan tag partner hle hk hf =>
    cases hs
    cases partner with
    | none => exact hp.single h hle hpartner rfl rfl
    | some i =>
      obtain ⟨f, fs, hfs, rfl, _⟩ := hp.exists_frame h hle (h.pair_of_closing hpartner htag hk)
      exact absurd rfl (hf f fs hfs)

/-- **Wherever a walk comes, the stack is balanced.** -/
theorem stands_walk {k : Nat} (hk : k ≤ d.nodes.length) {e : Effects} {q : Pass}
    (hw : walk s 0 (d.nodes.take k) ⟨.empty, e, 0⟩ = .ok q) :
    Stands d s.config.maxNestingDepth k q := by
  have hlen : (d.nodes.take k).length = k := by
    rw [List.length_take]
    omega
  rw [← hlen]
  refine walk_keeps (Stands d s.config.maxNestingDepth) (fun i n p q hn hp hs => ?_) hw
    (.zero d _ e)
  have hn' : d.nodes[i]? = some n := by
    rw [List.getElem?_take] at hn
    split at hn
    · exact hn
    · cases hn
  exact stands_step h hn' hp hs

end Pass

end Tagtext
