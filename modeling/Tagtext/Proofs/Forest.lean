import Tagtext.Proofs.Matching

/-!
# The forest of a document

Since pairs nest, the nodes of a document are a forest: a pair of tags has the
nodes between them as its children, and every other node is a leaf.  `forest`
reads it off the partners, and `nodes` lays it out again:

    (Document.parse s).forest.nodes 0 = (Document.parse s).nodes     (Document.nodes_forest)
-/

namespace Tagtext

/-- Trees side by side: a node without partner or a pair of tags with the forest between them, and
the trees that follow. -/
inductive Forest where
  | nil
  | leaf (node : Node) (next : Forest)
  | pair (opener : Tag) (inside : Forest) (closer : Tag) (next : Forest)

namespace Forest

/-- How many nodes a forest has. -/
def size : Forest → Nat
  | nil => 0
  | leaf _ next => next.size + 1
  | pair _ inside _ next => inside.size + next.size + 2

/-- The nodes of a forest that begins at index `i`, each tag of a pair with its partner. -/
def nodes (i : Nat) : Forest → List Node
  | nil => []
  | leaf n next => n :: next.nodes (i + 1)
  | pair opener inside closer next =>
    .tag opener (some (i + 1 + inside.size)) :: (inside.nodes (i + 1) ++
      .tag closer (some i) :: next.nodes (i + 1 + inside.size + 1))

/-- A forest as it is written. -/
def raw : Forest → Text
  | nil => []
  | leaf n next => n.raw ++ next.raw
  | pair opener inside closer next => opener.raw ++ inside.raw ++ closer.raw ++ next.raw

/-- Leaves have no partner, and pairs are an opening and a closing tag. -/
def WellFormed : Forest → Prop
  | nil => True
  | leaf n next => n.partner? = none ∧ next.WellFormed
  | pair opener inside closer next =>
    opener.kind = .opening ∧ closer.kind = .closing ∧ inside.WellFormed ∧ next.WellFormed

end Forest

namespace Document

/-- The forest that the nodes from `lo` up to `hi` are. -/
def forestBetween (d : Document) (lo hi : Nat) : Forest :=
  if lo < hi then
    match d.nodes[lo]? with
    | none => .nil
    | some (.tag opener (some close)) =>
      if lo < close ∧ close < hi then
        match tagAt d.nodes close with
        | none => .nil
        | some closer =>
          .pair opener (d.forestBetween (lo + 1) close) closer (d.forestBetween (close + 1) hi)
      else .leaf (.tag opener (some close)) (d.forestBetween (lo + 1) hi)
    | some n => .leaf n (d.forestBetween (lo + 1) hi)
  else .nil
termination_by hi - lo

/-- The forest of a document. -/
def forest (d : Document) : Forest := d.forestBetween 0 d.nodes.length

end Document

/-! ## Lemmas -/

theorem Forest.length_nodes (F : Forest) : ∀ i, (F.nodes i).length = F.size := by
  induction F with
  | nil => intro i; rfl
  | leaf n next ih =>
    intro i
    simp [nodes, size, ih]
  | pair opener inside closer next ihi ihn =>
    intro i
    simp only [nodes, size, List.length_cons, List.length_append, ihi, ihn]
    omega

theorem Forest.map_raw_nodes (F : Forest) : ∀ i, ((F.nodes i).map Node.raw).flatten = F.raw := by
  induction F with
  | nil => intro i; rfl
  | leaf n next ih =>
    intro i
    simp [nodes, raw, ih]
  | pair opener inside closer next ihi ihn =>
    intro i
    simp [nodes, raw, Node.raw, ihi, ihn]

namespace Document

/-- No pair has one tag among the nodes from `lo` up to `hi` and the other outside. -/
structure Closed (d : Document) (lo hi : Nat) : Prop where
  le : lo ≤ hi
  le_length : hi ≤ d.nodes.length
  partner : ∀ k j, lo ≤ k → k < hi → d.partnerAt k = some j → lo ≤ j ∧ j < hi

theorem closed_all (d : Document) (h : d.Matched) : d.Closed 0 d.nodes.length := by
  exact ⟨Nat.zero_le _, Nat.le_refl _, fun k j _ _ hp => ⟨Nat.zero_le _, (h.lt_length hp).2⟩⟩

namespace Closed

variable {d : Document} {lo hi : Nat}

theorem succ (hc : d.Closed lo hi) (h : d.Matched) (hlt : lo < hi) (hp : d.partnerAt lo = none) :
    d.Closed (lo + 1) hi := by
  refine ⟨hlt, hc.le_length, fun k j hk hkh hj => ?_⟩
  obtain ⟨h1, h2⟩ := hc.partner k j (by omega) hkh hj
  have : j ≠ lo := by
    rintro rfl
    rw [h.symm hj] at hp
    cases hp
  omega

variable {close : Nat}

/-- Pairs that begin inside a pair end inside it. -/
theorem inside (hc : d.Closed lo hi) (h : d.Matched) (hp : d.Pair lo close) (hch : close < hi) :
    d.Closed (lo + 1) close := by
  refine ⟨hp.1, Nat.le_trans (Nat.le_of_lt hch) hc.le_length, fun k j hk hkc hj => ?_⟩
  obtain ⟨h1, _⟩ := hc.partner k j (by omega) (by omega) hj
  have hne : j ≠ lo := by
    rintro rfl
    have := h.symm hj
    rw [hp.2] at this
    cases this
    omega
  rcases (h.partnerAt_iff k j).1 hj with hkj | hjk
  · exact ⟨by omega, h.isMatching.laminar hp hkj (by omega) hkc⟩
  · have := hjk.1
    omega

/-- Pairs that begin behind a pair end behind it. -/
theorem behind (hc : d.Closed lo hi) (h : d.Matched) (hp : d.Pair lo close) (hch : close < hi) :
    d.Closed (close + 1) hi := by
  refine ⟨hch, hc.le_length, fun k j hk hkh hj => ?_⟩
  have hlt := hp.1
  obtain ⟨h1, h2⟩ := hc.partner k j (by omega) hkh hj
  refine ⟨?_, h2⟩
  rcases (h.partnerAt_iff k j).1 hj with hkj | hjk
  · have := hkj.1
    omega
  · -- a pair from inside, or from one of the two tags, does not reach `k`
    have hjlo : j ≠ lo := by
      rintro rfl
      have := h.isMatching.closer_unique hp hjk
      omega
    have hjclose : j ≠ close := by
      rintro rfl
      exact h.isMatching.not_both hp hjk
    by_cases hjc : j < close
    · have := h.isMatching.laminar hp hjk (by omega) hjc
      omega
    · omega

end Closed

/-- The nodes from `lo` up to `hi`. -/
def slice (d : Document) (lo hi : Nat) : List Node := (d.nodes.drop lo).take (hi - lo)

theorem slice_cons {d : Document} {lo hi : Nat} {n : Node} (hn : d.nodes[lo]? = some n)
    (hlt : lo < hi) : d.slice lo hi = n :: d.slice (lo + 1) hi := by
  obtain ⟨hlo, rfl⟩ := List.getElem?_eq_some_iff.1 hn
  unfold slice
  rw [List.drop_eq_getElem_cons hlo, show hi - lo = hi - (lo + 1) + 1 by omega, List.take_succ_cons]

theorem slice_append {d : Document} {lo mid hi : Nat} (h1 : lo ≤ mid) (h2 : mid ≤ hi) :
    d.slice lo hi = d.slice lo mid ++ d.slice mid hi := by
  unfold slice
  rw [show hi - lo = (mid - lo) + (hi - mid) by omega, List.take_add, List.drop_drop,
    show lo + (mid - lo) = mid by omega]

theorem size_of_nodes {d : Document} {F : Forest} {lo hi : Nat} (hle : hi ≤ d.nodes.length)
    (h : F.nodes lo = d.slice lo hi) : F.size = hi - lo := by
  rw [← F.length_nodes lo, h]
  simp only [slice, List.length_take, List.length_drop]
  omega

/-- The forest of closed nodes is laid out as these nodes. -/
theorem nodes_forestBetween {d : Document} (h : d.Matched) (lo hi : Nat) (hc : d.Closed lo hi) :
    (d.forestBetween lo hi).nodes lo = d.slice lo hi ∧ (d.forestBetween lo hi).WellFormed := by
  fun_induction forestBetween d lo hi with
  | case1 lo hi hlt hnone =>
    have := hc.le_length
    have := List.getElem?_eq_none_iff.1 hnone
    omega
  | case2 lo hi hlt opener close hn hclose hnone =>
    have hp : d.partnerAt lo = some close := by simp [partnerAt, hn, Node.partner?]
    obtain ⟨_, u, _, hu, _⟩ := h.tags hp
    rw [hu] at hnone
    cases hnone
  | case3 lo hi hlt opener close hn hclose closer hcloser ihi ihn =>
    have hp : d.partnerAt lo = some close := by simp [partnerAt, hn, Node.partner?]
    have hpair : d.Pair lo close := ⟨hclose.1, hp⟩
    obtain ⟨hi1, hi2⟩ := ihi (hc.inside h hpair hclose.2)
    obtain ⟨hn1, hn2⟩ := ihn (hc.behind h hpair hclose.2)
    have hsize : (d.forestBetween (lo + 1) close).size = close - (lo + 1) :=
      size_of_nodes (Nat.le_trans (Nat.le_of_lt hclose.2) hc.le_length) hi1
    have hcl : d.nodes[close]? = some (.tag closer (some lo)) := by
      obtain ⟨n, hcn, hnt⟩ := Option.bind_eq_some_iff.1 hcloser
      have hpc := h.symm hp
      simp only [partnerAt, hcn, Option.bind_some] at hpc
      cases n with
      | tag t partner =>
        cases hnt
        cases hpc
        exact hcn
      | text t => cases hnt
      | malformed t e => cases hnt
    obtain ⟨t, c, ht, hct, htk, hck, _⟩ := h.isMatching.tags hpair
    have hto : t = opener := by
      simp only [tagAt, hn, Option.bind_some, Node.tag?, Option.some.injEq] at ht
      exact ht.symm
    rw [hcloser] at hct
    cases hct
    refine ⟨?_, by rw [← hto]; exact htk, hck, hi2, hn2⟩
    rw [Forest.nodes, hsize, hi1, show lo + 1 + (close - (lo + 1)) = close by omega, hn1,
      slice_cons hn hlt, slice_append (Nat.succ_le_of_lt hclose.1) (Nat.le_of_lt hclose.2),
      slice_cons hcl hclose.2]
  | case4 lo hi hlt opener close hn hclose ih =>
    have hp : d.partnerAt lo = some close := by simp [partnerAt, hn, Node.partner?]
    have := hc.partner lo close (Nat.le_refl _) hlt hp
    have : lo ≠ close := by
      rintro rfl
      rcases (h.partnerAt_iff lo lo).1 hp with hself | hself
      · exact absurd hself.1 (Nat.lt_irrefl _)
      · exact absurd hself.1 (Nat.lt_irrefl _)
    omega
  | case5 lo hi hlt n htag hn ih =>
    have hp : n.partner? = none := by
      cases n with
      | text t => rfl
      | malformed t e => rfl
      | tag t partner =>
        cases partner with
        | none => rfl
        | some close => exact (htag t close rfl).elim
    have hp' : d.partnerAt lo = none := by simp [partnerAt, hn, hp]
    obtain ⟨h1, h2⟩ := ih (hc.succ h hlt hp')
    exact ⟨by rw [Forest.nodes, h1, slice_cons hn hlt], hp, h2⟩
  | case6 lo hi hge =>
    refine ⟨?_, trivial⟩
    simp [Forest.nodes, slice, show hi - lo = 0 by omega]

/-- A matched document is its forest laid out. -/
theorem nodes_forest {d : Document} (h : d.Matched) :
    d.forest.nodes 0 = d.nodes ∧ d.forest.WellFormed := by
  obtain ⟨h1, h2⟩ := nodes_forestBetween h 0 d.nodes.length (d.closed_all h)
  refine ⟨?_, h2⟩
  rw [forest, h1]
  simp [slice]

end Document

end Tagtext
