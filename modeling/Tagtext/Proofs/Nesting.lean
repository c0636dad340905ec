import Mathlib.Data.List.Sort
import Tagtext.Proofs.Matching

/-!
# Open pairs

`openAt k` is the stack that a pass has in front of node `k` if it opens every
pair, read off the partners: the opening tags whose partners are not yet
reached, the innermost first.

    a node without partner      openAt (k + 1) = openAt k            (openAt_succ_of_none)
    an opening tag of a pair    openAt (k + 1) = k :: openAt k       (openAt_succ_of_opening)
    its closing tag             openAt k = i :: openAt (k + 1)       (openAt_of_closing)

A pair has as many pairs around it as are open where it begins (`length_openAt`).
-/

namespace Tagtext.Document

/-- The opening tags in front of node `k` with partners from there on, the innermost first. -/
def openAt (d : Document) (k : Nat) : List Nat :=
  ((List.range k).filter fun i => (d.partnerAt i).any (k ≤ ·)).reverse

/-- How many pairs stand around the pair from `i` to `j`. -/
def enclosing (d : Document) (i j : Nat) : Nat :=
  (List.range i).countP fun k => (d.partnerAt k).any (j < ·)

/-! ## Lemmas -/

theorem mem_openAt {d : Document} {k i : Nat} :
    i ∈ d.openAt k ↔ i < k ∧ ∃ j, d.partnerAt i = some j ∧ k ≤ j := by
  simp [openAt, Option.any_eq_true]

theorem descending_openAt (d : Document) (k : Nat) : (d.openAt k).Pairwise (· > ·) :=
  List.pairwise_reverse.2 (List.pairwise_lt_range.filter _)

/-- What stands around a pair stands around all that is inside it. -/
theorem enclosing_mono (d : Document) {a b i j : Nat} (hai : a ≤ i) (hjb : j ≤ b) :
    d.enclosing a b ≤ d.enclosing i j := by
  have hrange : (List.range a).Sublist (List.range i) := by
    rw [List.range_sublist]
    exact hai
  refine Nat.le_trans (hrange.countP_le) (List.countP_mono_left fun k _ hk => ?_)
  simp only [Option.any_eq_true, decide_eq_true_eq] at hk ⊢
  obtain ⟨l, hl, hlt⟩ := hk
  exact ⟨l, hl, by omega⟩

@[simp] theorem openAt_zero (d : Document) : d.openAt 0 = [] := rfl

section
variable {d : Document} (h : d.Matched) {i j k : Nat}
include h

/-- At the end of a document no pair is open. -/
theorem openAt_nodes_length : d.openAt d.nodes.length = [] := by
  refine List.eq_nil_iff_forall_not_mem.2 fun i hi => ?_
  obtain ⟨_, j, hp, hj⟩ := mem_openAt.1 hi
  have := (h.lt_length hp).2
  omega

theorem openAt_succ_of_none (hk : d.partnerAt k = none) : d.openAt (k + 1) = d.openAt k := by
  refine (descending_openAt d _).eq_of_mem_iff (descending_openAt d _) fun a => ?_
  simp only [mem_openAt]
  constructor
  · rintro ⟨ha, j, hp, hj⟩
    have : a ≠ k := by
      rintro rfl
      rw [hk] at hp
      cases hp
    exact ⟨by omega, j, hp, by omega⟩
  · rintro ⟨ha, j, hp, hj⟩
    have : j ≠ k := by
      rintro rfl
      rw [h.symm hp] at hk
      cases hk
    exact ⟨by omega, j, hp, by omega⟩

theorem openAt_succ_of_opening (hk : d.Pair k j) : d.openAt (k + 1) = k :: d.openAt k := by
  refine (descending_openAt d _).eq_of_mem_iff (List.pairwise_cons.2
    ⟨fun a ha => (mem_openAt.1 ha).1, descending_openAt d _⟩) fun a => ?_
  simp only [List.mem_cons, mem_openAt]
  constructor
  · rintro ⟨ha, l, hp, hl⟩
    by_cases hak : a = k
    · exact Or.inl hak
    · exact Or.inr ⟨by omega, l, hp, by omega⟩
  · rintro (rfl | ⟨ha, l, hp, hl⟩)
    · exact ⟨by omega, j, hk.2, hk.1⟩
    · have : l ≠ k := by
        rintro rfl
        exact h.isMatching.not_both ⟨ha, hp⟩ hk
      exact ⟨by omega, l, hp, by omega⟩

theorem openAt_of_closing (hk : d.Pair i k) : d.openAt k = i :: d.openAt (k + 1) := by
  have hik := hk.1
  refine (descending_openAt d _).eq_of_mem_iff (List.pairwise_cons.2
    ⟨fun a ha => ?_, descending_openAt d _⟩) fun a => ?_
  · obtain ⟨ha, l, hp, hl⟩ := mem_openAt.1 ha
    have hak : a ≠ k := by
      rintro rfl
      exact h.isMatching.not_both hk ⟨by omega, hp⟩
    have hai : a ≠ i := by
      rintro rfl
      rw [hk.2] at hp
      cases hp
      omega
    -- a pair that begins inside this one ends inside it
    rcases Nat.lt_or_ge i a with hlt | hge
    · have := h.isMatching.laminar hk (l := l) (k := a) ⟨by omega, hp⟩ hlt (by omega)
      omega
    · show a < i
      omega
  · simp only [List.mem_cons, mem_openAt]
    constructor
    · rintro ⟨ha, l, hp, hl⟩
      by_cases hlk : l = k
      · subst hlk
        exact Or.inl (h.isMatching.opener_unique ⟨ha, hp⟩ hk)
      · exact Or.inr ⟨by omega, l, hp, by omega⟩
    · rintro (rfl | ⟨ha, l, hp, hl⟩)
      · exact ⟨hik, k, hk.2, Nat.le_refl k⟩
      · have hak : a ≠ k := by
          rintro rfl
          exact h.isMatching.not_both hk ⟨by omega, hp⟩
        exact ⟨by omega, l, hp, by omega⟩

/-- What is open where a pair begins ends behind that pair. -/
theorem lt_of_mem_openAt (hk : d.Pair k j) (hi : i ∈ d.openAt k) :
    ∃ l, d.partnerAt i = some l ∧ j < l := by
  obtain ⟨hik, l, hp, hkl⟩ := mem_openAt.1 hi
  have hne : l ≠ k := by
    rintro rfl
    exact h.isMatching.not_both ⟨hik, hp⟩ hk
  have hil : d.Pair i l := ⟨by omega, hp⟩
  exact ⟨l, hp, h.isMatching.laminar hil hk hik (by omega)⟩

/-- As many pairs stand around a pair as are open where it begins. -/
theorem length_openAt (hk : d.Pair k j) : (d.openAt k).length = d.enclosing k j := by
  rw [openAt, List.length_reverse, ← List.countP_eq_length_filter, enclosing]
  refine List.countP_congr fun i hi => ?_
  have hik := List.mem_range.1 hi
  have hkj := hk.1
  simp only [Option.any_eq_true, decide_eq_true_eq]
  constructor
  · rintro ⟨l, hp, hl⟩
    exact lt_of_mem_openAt h hk (mem_openAt.2 ⟨hik, l, hp, hl⟩)
  · rintro ⟨l, hp, hl⟩
    exact ⟨l, hp, by omega⟩

end

end Tagtext.Document
