import Mathlib.Data.Nat.Find
import Tagtext.Document

/-!
# The matching of tags

`pairsFrom` goes over the nodes once with a stack of open tags.  The matching it
finds can be said without a stack: a closing tag closes the nearest opening tag
of its name that is still open, and a tag is still open at `j` when no pair that
ends in front of `j` reaches over it.

    IsMatching nodes pair      pair i j ↔ Closes nodes pair i j
    IsMatching nodes (Joins (pairsFrom 0 [] nodes))                (isMatching_pairsFrom)
    the partner of i is j ↔ i and j are joined, either way round   (partner?_matchTags)

That pairs nest, and that a tag belongs to one pair at most, follows from the
description alone (`IsMatching.laminar`, `IsMatching.opener_unique`,
`IsMatching.closer_unique`); so does that there is only one such matching
(`IsMatching.agree`).
-/

namespace Tagtext

/-! ## The description -/

/-- The tag at an index. -/
def tagAt (nodes : List Node) (i : Nat) : Option Tag := nodes[i]?.bind Node.tag?

/-- No pair that ends in front of `j` reaches over `i`. -/
def StillOpen (pair : Nat → Nat → Prop) (i j : Nat) : Prop :=
  ∀ k l, pair k l → ¬ (k ≤ i ∧ i < l ∧ l < j)

/-- At `i` is an opening tag of this name, and it is still open at `j`. -/
def OpenAt (nodes : List Node) (pair : Nat → Nat → Prop) (name : Text) (i j : Nat) : Prop :=
  i < j ∧ (∃ t, tagAt nodes i = some t ∧ t.kind = .opening ∧ t.name = name) ∧ StillOpen pair i j

/-- At `j` is a closing tag, and the nearest tag of its name still open there is at `i`. -/
def Closes (nodes : List Node) (pair : Nat → Nat → Prop) (i j : Nat) : Prop :=
  ∃ c, tagAt nodes j = some c ∧ c.kind = .closing ∧ OpenAt nodes pair c.name i j ∧
    ∀ k, OpenAt nodes pair c.name k j → k ≤ i

/-- Every closing tag is joined with the nearest tag of its name still open, and nothing else is. -/
def IsMatching (nodes : List Node) (pair : Nat → Nat → Prop) : Prop :=
  ∀ i j, pair i j ↔ Closes nodes pair i j

/-- The relation that a list of pairs is. -/
def Joins (pairs : List (Nat × Nat)) (i j : Nat) : Prop := (i, j) ∈ pairs

/-! ## What the description implies -/

theorem Node.eq_tag_of_tag? {n : Node} {t : Tag} (h : n.tag? = some t) : n = .tag t n.partner? := by
  cases n with
  | tag t' partner =>
    cases h
    rfl
  | text u => cases h
  | malformed u e => cases h

theorem lt_length_of_tagAt {nodes : List Node} {i : Nat} {t : Tag} (h : tagAt nodes i = some t) :
    i < nodes.length := by
  obtain ⟨n, hn, _⟩ := Option.bind_eq_some_iff.1 h
  exact (List.getElem?_eq_some_iff.1 hn).1

section
variable {nodes nodes' : List Node} {pair pair' : Nat → Nat → Prop}

theorem StillOpen.congr {j : Nat} (h : ∀ k l, l < j → (pair k l ↔ pair' k l)) (i : Nat) :
    StillOpen pair i j ↔ StillOpen pair' i j := by
  constructor
  · intro ho k l hp hk
    exact ho k l ((h k l hk.2.2).2 hp) hk
  · intro ho k l hp hk
    exact ho k l ((h k l hk.2.2).1 hp) hk

/-- What stands in front of `j` decides which tag is closed there. -/
theorem Closes.congr {j : Nat} (ht : ∀ k, k ≤ j → tagAt nodes k = tagAt nodes' k)
    (h : ∀ k l, l < j → (pair k l ↔ pair' k l)) (i : Nat) :
    Closes nodes pair i j ↔ Closes nodes' pair' i j := by
  have ho : ∀ name k, OpenAt nodes pair name k j ↔ OpenAt nodes' pair' name k j := by
    intro name k
    unfold OpenAt
    rw [StillOpen.congr h k]
    constructor
    · rintro ⟨hk, ht', hs⟩
      exact ⟨hk, by rwa [← ht k (by omega)], hs⟩
    · rintro ⟨hk, ht', hs⟩
      exact ⟨hk, by rwa [ht k (by omega)], hs⟩
  simp only [Closes, ho, ht j (Nat.le_refl j)]

namespace IsMatching

variable (h : IsMatching nodes pair)
include h

theorem lt {i j : Nat} (hp : pair i j) : i < j := by
  obtain ⟨_, _, _, ho, _⟩ := (h i j).1 hp
  exact ho.1

/-- A pair is an opening and a closing tag of one name. -/
theorem tags {i j : Nat} (hp : pair i j) :
    ∃ t c, tagAt nodes i = some t ∧ tagAt nodes j = some c ∧ t.kind = .opening ∧
      c.kind = .closing ∧ t.name = c.name := by
  obtain ⟨c, hc, hck, ⟨_, ⟨t, ht, htk, hn⟩, _⟩, _⟩ := (h i j).1 hp
  exact ⟨t, c, ht, hc, htk, hck, hn⟩

theorem stillOpen {i j : Nat} (hp : pair i j) : StillOpen pair i j := by
  obtain ⟨_, _, _, ho, _⟩ := (h i j).1 hp
  exact ho.2.2

/-- Pairs nest. -/
theorem laminar {i j k l : Nat} (hij : pair i j) (hkl : pair k l) (hik : i < k) (hkj : k < j) :
    l < j := by
  have hne : l ≠ j := by
    -- two pairs that end together would both hold the nearest open tag
    rintro rfl
    obtain ⟨c, hc, _, ho, _⟩ := (h k l).1 hkl
    obtain ⟨c', hc', _, _, hmax⟩ := (h i l).1 hij
    rw [hc] at hc'
    cases hc'
    have := hmax k ho
    omega
  have := h.stillOpen hkl i j hij
  omega

theorem opener_unique {i i' j : Nat} (hi : pair i j) (hi' : pair i' j) : i = i' := by
  have h1 := h.lt hi
  have h2 := h.lt hi'
  rcases Nat.lt_trichotomy i i' with hlt | heq | hgt
  · have := h.laminar hi hi' hlt h2
    omega
  · exact heq
  · have := h.laminar hi' hi hgt h1
    omega

theorem closer_unique {i j j' : Nat} (hj : pair i j) (hj' : pair i j') : j = j' := by
  have h1 := h.stillOpen hj i j' hj'
  have h2 := h.stillOpen hj' i j hj
  have := h.lt hj
  have := h.lt hj'
  omega

/-- No tag both opens one pair and closes another. -/
theorem not_both {i j k : Nat} (hij : pair i j) (hjk : pair j k) : False := by
  obtain ⟨_, c, _, hc, _, hck, _⟩ := h.tags hij
  obtain ⟨t, _, ht, _, htk, _, _⟩ := h.tags hjk
  rw [hc] at ht
  cases ht
  rw [hck] at htk
  cases htk

/-- There is one matching only: it is settled from left to right by the tags alone. -/
theorem agree {n : Nat} (h' : IsMatching nodes' pair')
    (ht : ∀ k, k < n → tagAt nodes k = tagAt nodes' k) :
    ∀ j, j < n → ∀ i, pair i j ↔ pair' i j := by
  intro j
  induction j using Nat.strongRecOn with
  | ind j ih =>
    intro hj i
    rw [h i j, h' i j]
    exact Closes.congr (fun k hk => ht k (by omega)) (fun k l hl => ih l hl (by omega) k) i

end IsMatching

end

/-! ## The loop -/

/-- What holds in front of node `k`: the stack holds the tags still open, the innermost first, and
the pairs found are the closing tags so far with what they close. -/
structure LoopInv (nodes : List Node) (k : Nat) (opened : List (Nat × Text))
    (done : List (Nat × Nat)) : Prop where
  opened_iff : ∀ i name, (i, name) ∈ opened ↔ OpenAt nodes (Joins done) name i k
  descending : opened.Pairwise fun a b => b.1 < a.1
  done_iff : ∀ i j, Joins done i j ↔ j < k ∧ Closes nodes (Joins done) i j

theorem loopInv_zero (nodes : List Node) : LoopInv nodes 0 [] [] := by
  refine ⟨fun i name => ?_, List.Pairwise.nil, fun i j => ?_⟩
  · simp [OpenAt]
  · simp [Joins]

/-- What the stack is searched for: the tags above the one found have other names. -/
theorem split_of_dropWhile {name m : Text} {i : Nat} {opened outer : List (Nat × Text)}
    (h : opened.dropWhile (·.2 != name) = (i, m) :: outer) :
    m = name ∧ ∃ skipped, opened = skipped ++ (i, m) :: outer ∧ ∀ e ∈ skipped, e.2 ≠ name := by
  have hm := List.head?_dropWhile_not (fun e : Nat × Text => e.2 != name) opened
  rw [h] at hm
  refine ⟨by simpa using hm, opened.takeWhile (·.2 != name), ?_, fun e he => ?_⟩
  · rw [← h, List.takeWhile_append_dropWhile]
  · simpa using List.all_eq_true.1 (List.all_takeWhile) e he

namespace LoopInv

variable {nodes : List Node} {k : Nat} {opened : List (Nat × Text)} {done : List (Nat × Nat)}

theorem done_lt (h : LoopInv nodes k opened done) {i j : Nat} (hp : Joins done i j) : j < k :=
  ((h.done_iff i j).1 hp).1

/-- At node `k` nothing is closed before it is looked at. -/
theorem openAt_succ (h : LoopInv nodes k opened done) (name : Text) (i : Nat) :
    OpenAt nodes (Joins done) name i (k + 1) ↔ OpenAt nodes (Joins done) name i k ∨
      i = k ∧ ∃ t, tagAt nodes k = some t ∧ t.kind = .opening ∧ t.name = name := by
  constructor
  · rintro ⟨hi, ht, ho⟩
    by_cases hik : i = k
    · exact Or.inr ⟨hik, hik ▸ ht⟩
    · exact Or.inl ⟨by omega, ht, fun a b hp hk => ho a b hp (by omega)⟩
  · rintro (⟨hi, ht, ho⟩ | ⟨rfl, ht⟩)
    · refine ⟨by omega, ht, fun a b hp hk => ho a b hp ?_⟩
      have := h.done_lt hp
      omega
    · refine ⟨by omega, ht, fun a b hp hk => ?_⟩
      have := h.done_lt hp
      omega

/-- A node that closes nothing leaves the pairs as they are. -/
theorem done_iff_succ (h : LoopInv nodes k opened done)
    (hk : ∀ i, ¬ Closes nodes (Joins done) i k) (i j : Nat) :
    Joins done i j ↔ j < k + 1 ∧ Closes nodes (Joins done) i j := by
  rw [h.done_iff i j]
  constructor
  · rintro ⟨hj, hc⟩
    exact ⟨by omega, hc⟩
  · rintro ⟨hj, hc⟩
    have : j ≠ k := by
      rintro rfl
      exact hk i hc
    exact ⟨by omega, hc⟩

/-- A node without a tag that opens or closes changes nothing. -/
theorem skip (h : LoopInv nodes k opened done)
    (hk : ∀ t, tagAt nodes k = some t → t.kind = .selfClosing) :
    LoopInv nodes (k + 1) opened done := by
  refine ⟨fun i name => ?_, h.descending, h.done_iff_succ ?_⟩
  · rw [h.opened_iff, h.openAt_succ]
    constructor
    · exact Or.inl
    · rintro (ho | ⟨_, t, ht, hkind, _⟩)
      · exact ho
      · rw [hk t ht] at hkind
        cases hkind
  · rintro i ⟨c, hc, hkind, _⟩
    rw [hk c hc] at hkind
    cases hkind

theorem opening (h : LoopInv nodes k opened done) {t : Tag} (ht : tagAt nodes k = some t)
    (hkind : t.kind = .opening) : LoopInv nodes (k + 1) ((k, t.name) :: opened) done := by
  refine ⟨fun i name => ?_, List.pairwise_cons.2 ⟨?_, h.descending⟩, h.done_iff_succ ?_⟩
  · rw [List.mem_cons, h.opened_iff, h.openAt_succ, or_comm]
    refine or_congr_right ?_
    constructor
    · rintro ⟨⟩
      exact ⟨rfl, t, ht, hkind, rfl⟩
    · rintro ⟨rfl, t', ht', _, rfl⟩
      rw [ht] at ht'
      cases ht'
      rfl
  · rintro ⟨i, name⟩ he
    exact ((h.opened_iff i name).1 he).1
  · rintro i ⟨c, hc, hck, _⟩
    rw [ht] at hc
    cases hc
    rw [hkind] at hck
    cases hck

/-- A closing tag whose name no open tag has closes nothing. -/
theorem orphan (h : LoopInv nodes k opened done) {t : Tag} (ht : tagAt nodes k = some t)
    (hkind : t.kind = .closing) (hnone : opened.dropWhile (·.2 != t.name) = []) :
    LoopInv nodes (k + 1) opened done := by
  refine ⟨fun i name => ?_, h.descending, h.done_iff_succ ?_⟩
  · rw [h.opened_iff, h.openAt_succ]
    constructor
    · exact Or.inl
    · rintro (ho | ⟨_, t', ht', hk', _⟩)
      · exact ho
      · rw [ht] at ht'
        cases ht'
        rw [hkind] at hk'
        cases hk'
  · rintro i ⟨c, hc, _, ho, _⟩
    rw [ht] at hc
    cases hc
    have hm := (h.opened_iff i t.name).2 ho
    have hall : opened.takeWhile (·.2 != t.name) = opened := by
      have := List.takeWhile_append_dropWhile (p := (·.2 != t.name)) (l := opened)
      rwa [hnone, List.append_nil] at this
    rw [← hall] at hm
    simpa using List.all_eq_true.1 List.all_takeWhile _ hm

/-- A closing tag closes the nearest tag of its name on the stack; that one and those above it are
open no more. -/
theorem closing (h : LoopInv nodes k opened done) {t : Tag} (ht : tagAt nodes k = some t)
    (hkind : t.kind = .closing) {i : Nat} {m : Text} {outer : List (Nat × Text)}
    (hfound : opened.dropWhile (·.2 != t.name) = (i, m) :: outer) :
    LoopInv nodes (k + 1) outer (done ++ [(i, k)]) := by
  obtain ⟨rfl, skipped, hsplit, hskip⟩ := split_of_dropWhile hfound
  have hd := h.descending
  rw [hsplit, List.pairwise_append, List.pairwise_cons] at hd
  obtain ⟨_, ⟨houter, hdesc⟩, habove⟩ := hd
  have hopen : OpenAt nodes (Joins done) t.name i k :=
    (h.opened_iff i t.name).1 (by rw [hsplit]; simp)
  have hjoins : ∀ a b, Joins (done ++ [(i, k)]) a b ↔ Joins done a b ∨ a = i ∧ b = k := by
    intro a b
    simp [Joins]
  have hbelow : ∀ a b, b < k → (Joins done a b ↔ Joins (done ++ [(i, k)]) a b) := by
    intro a b hb
    rw [hjoins]
    exact ⟨Or.inl, fun hp => hp.resolve_right (by omega)⟩
  -- the tag found is the nearest: those above it on the stack have other names
  have hcloses : Closes nodes (Joins done) i k := by
    refine ⟨t, ht, hkind, hopen, fun a ha => ?_⟩
    have hm := (h.opened_iff a t.name).2 ha
    rw [hsplit, List.mem_append, List.mem_cons] at hm
    rcases hm with hm | hm | hm
    · exact absurd rfl (hskip _ hm)
    · cases hm
      exact Nat.le_refl _
    · exact Nat.le_of_lt (houter _ hm)
  refine ⟨fun a name => ?_, hdesc, fun a b => ?_⟩
  · -- what stays open is what stands below the tag found
    have hstill : OpenAt nodes (Joins (done ++ [(i, k)])) name a (k + 1) ↔
        OpenAt nodes (Joins done) name a k ∧ a < i := by
      constructor
      · rintro ⟨ha, ⟨t', ht', hk', hn'⟩, ho⟩
        have hak : a ≠ k := by
          rintro rfl
          rw [ht] at ht'
          cases ht'
          rw [hkind] at hk'
          cases hk'
        have hai := ho i k ((hjoins i k).2 (Or.inr ⟨rfl, rfl⟩))
        refine ⟨⟨by omega, ⟨t', ht', hk', hn'⟩, fun c d hp hc => ?_⟩, by omega⟩
        exact ho c d ((hjoins c d).2 (Or.inl hp)) (by omega)
      · rintro ⟨⟨ha, ht', ho⟩, hai⟩
        refine ⟨by omega, ht', fun c d hp hc => ?_⟩
        rcases (hjoins c d).1 hp with hp | ⟨rfl, rfl⟩
        · have := h.done_lt hp
          exact ho c d hp (by omega)
        · omega
    rw [hstill, ← h.opened_iff, hsplit, List.mem_append, List.mem_cons]
    constructor
    · intro hm
      exact ⟨Or.inr (Or.inr hm), houter _ hm⟩
    · rintro ⟨hm | hm | hm, hai⟩
      · have := habove _ hm (i, t.name) List.mem_cons_self
        omega
      · cases hm
        omega
      · exact hm
  · rw [hjoins, h.done_iff]
    constructor
    · rintro (⟨hb, hc⟩ | ⟨rfl, rfl⟩)
      · refine ⟨by omega, ?_⟩
        exact (Closes.congr (fun _ _ => rfl) (fun c d hd => hbelow c d (by omega)) a).1 hc
      · exact ⟨by omega, (Closes.congr (fun _ _ => rfl) hbelow a).1 hcloses⟩
    · rintro ⟨hb, hc⟩
      have hc' := (Closes.congr (fun _ _ => rfl) (fun c d hd => hbelow c d (by omega)) a).2 hc
      by_cases hbk : b = k
      · subst hbk
        obtain ⟨c, hct, _, ho, hmax⟩ := hc'
        obtain ⟨c', hct', _, ho', hmax'⟩ := hcloses
        rw [hct] at hct'
        cases hct'
        have h1 := hmax i ho'
        have h2 := hmax' a ho
        exact Or.inr ⟨by omega, rfl⟩
      · exact Or.inl ⟨by omega, hc'⟩

end LoopInv

theorem tagAt_append_cons (before rest : List Node) (n : Node) :
    tagAt (before ++ n :: rest) before.length = n.tag? := by
  simp [tagAt]

/-- **The loop finds the matching.**  From any node on, it extends the pairs it has found. -/
theorem loopInv_pairsFrom (rest : List Node) : ∀ (before : List Node) (opened : List (Nat × Text))
    (done : List (Nat × Nat)), LoopInv (before ++ rest) before.length opened done →
    ∃ opened', LoopInv (before ++ rest) (before ++ rest).length opened'
      (done ++ pairsFrom before.length opened rest) := by
  induction rest with
  | nil =>
    intro before opened done h
    exact ⟨opened, by simpa [pairsFrom] using h⟩
  | cons n rest ih =>
    intro before opened done h
    have hat := tagAt_append_cons before rest n
    have next : ∀ opened' done', LoopInv (before ++ n :: rest) (before.length + 1) opened' done' →
        ∃ o, LoopInv (before ++ n :: rest) (before ++ n :: rest).length o
          (done' ++ pairsFrom (before.length + 1) opened' rest) := by
      intro opened' done' h'
      have := ih (before ++ [n]) opened' done' (by simpa using h')
      simpa using this
    unfold pairsFrom
    cases ht : n.tag? with
    | none => exact next _ _ (h.skip (by simp [hat, ht]))
    | some t =>
      rw [ht] at hat
      simp only
      cases hk : t.kind with
      | selfClosing =>
        refine next _ _ (h.skip fun t' ht' => ?_)
        rw [hat] at ht'
        cases ht'
        exact hk
      | opening => exact next _ _ (h.opening hat hk)
      | closing =>
        simp only
        split
        · next hnone => exact next _ _ (h.orphan hat hk hnone)
        · next i m outer hfound =>
          simpa using next _ _ (h.closing hat hk hfound)

theorem isMatching_pairsFrom (nodes : List Node) :
    IsMatching nodes (Joins (pairsFrom 0 [] nodes)) := by
  obtain ⟨_, h⟩ := loopInv_pairsFrom nodes [] [] [] (loopInv_zero nodes)
  intro i j
  refine (h.done_iff i j).trans ⟨fun hc => hc.2, fun hc => ⟨?_, hc⟩⟩
  obtain ⟨c, ht, _⟩ := hc
  exact lt_length_of_tagAt ht

/-! ## Partners -/

/-- The partner of a node is what some pair joins it with. -/
theorem partnerIn_eq_some_iff {pairs : List (Nat × Nat)} (h1 : ∀ i i' j, Joins pairs i j →
    Joins pairs i' j → i = i') (h2 : ∀ i j j', Joins pairs i j → Joins pairs i j' → j = j')
    (h3 : ∀ i j k, Joins pairs i j → Joins pairs j k → False) (i j : Nat) :
    partnerIn pairs i = some j ↔ Joins pairs i j ∨ Joins pairs j i := by
  have sound : ∀ m, partnerIn pairs i = some m → Joins pairs i m ∨ Joins pairs m i := by
    intro m hm
    obtain ⟨⟨a, b⟩, hab, he⟩ := List.exists_of_findSome?_eq_some hm
    simp only at he
    split at he
    · next ha =>
      cases he
      subst ha
      exact Or.inl hab
    · split at he
      · next hb =>
        cases he
        subst hb
        exact Or.inr hab
      · cases he
  constructor
  · exact sound j
  · intro hj
    cases hp : partnerIn pairs i with
    | none =>
      have hnone := List.findSome?_eq_none_iff.1 hp
      rcases hj with hj | hj
      · have := hnone _ hj
        simp at this
      · have := hnone _ hj
        simp at this
        split at this <;> simp at this
    | some m =>
      rcases sound m hp, hj with ⟨hm | hm, hj | hj⟩
      · rw [h2 i m j hm hj]
      · exact (h3 j i m hj hm).elim
      · exact (h3 m i j hm hj).elim
      · rw [h1 m j i hm hj]

/-! ## Documents -/

namespace Document

/-- The node that the node at an index is matched with. -/
def partnerAt (d : Document) (i : Nat) : Option Nat := d.nodes[i]?.bind Node.partner?

/-- The tags at `i` and `j` are a pair, opened at `i`. -/
def Pair (d : Document) (i j : Nat) : Prop := i < j ∧ d.partnerAt i = some j

/-- The pairs of a document are the matching of its tags, and partners are what pairs join. -/
structure Matched (d : Document) : Prop where
  isMatching : IsMatching d.nodes d.Pair
  partnerAt_iff : ∀ i j, d.partnerAt i = some j ↔ d.Pair i j ∨ d.Pair j i

end Document

theorem tagAt_matchTags (nodes : List Node) : tagAt (matchTags nodes) = tagAt nodes := by
  funext i
  simp only [tagAt, matchTags, List.getElem?_mapIdx]
  cases nodes[i]? with
  | none => rfl
  | some n => cases n <;> rfl

theorem partner?_matchTags (nodes : List Node) (i j : Nat) :
    (matchTags nodes)[i]?.bind Node.partner? = some j ↔
      Joins (pairsFrom 0 [] nodes) i j ∨ Joins (pairsFrom 0 [] nodes) j i := by
  have h := isMatching_pairsFrom nodes
  have hiff := partnerIn_eq_some_iff (fun _ _ _ => h.opener_unique) (fun _ _ _ => h.closer_unique)
    (fun _ _ _ => h.not_both) i j
  rw [← hiff]
  simp only [matchTags, List.getElem?_mapIdx]
  constructor
  · intro hj
    cases hn : nodes[i]? with
    | none => rw [hn] at hj; cases hj
    | some n =>
      rw [hn] at hj
      cases n with
      | tag t p => exact hj
      | text t => cases hj
      | malformed t e => cases hj
  · intro hj
    -- only a node with a tag is in a pair
    have htag : ∃ t, tagAt nodes i = some t := by
      rcases hiff.1 hj with hj | hj
      · obtain ⟨t, _, ht, _⟩ := h.tags hj
        exact ⟨t, ht⟩
      · obtain ⟨_, t, _, ht, _⟩ := h.tags hj
        exact ⟨t, ht⟩
    obtain ⟨t, ht⟩ := htag
    obtain ⟨n, hn, hnt⟩ := Option.bind_eq_some_iff.1 ht
    rw [hn]
    cases n with
    | tag t p => exact hj
    | text t => cases hnt
    | malformed t e => cases hnt

/-- The document that matching makes of some nodes is matched. -/
theorem matched_matchTags (nodes : List Node) : (Document.mk (matchTags nodes)).Matched := by
  have h := isMatching_pairsFrom nodes
  have hpair : ∀ i j, (Document.mk (matchTags nodes)).Pair i j ↔
      Joins (pairsFrom 0 [] nodes) i j := by
    intro i j
    unfold Document.Pair Document.partnerAt
    rw [partner?_matchTags]
    constructor
    · rintro ⟨hlt, hp | hp⟩
      · exact hp
      · have := h.lt hp
        omega
    · intro hp
      exact ⟨h.lt hp, Or.inl hp⟩
  refine ⟨fun i j => ?_, fun i j => ?_⟩
  · rw [hpair, h i j]
    exact Closes.congr (fun k _ => by rw [tagAt_matchTags]) (fun k l _ => (hpair k l).symm) i
  · rw [hpair, hpair]
    exact partner?_matchTags nodes i j

theorem Document.matched_parse (s : Text) : (Document.parse s).Matched := matched_matchTags _

namespace Document.Matched

variable {d : Document} (h : d.Matched)
include h

theorem symm {i j : Nat} (hp : d.partnerAt i = some j) : d.partnerAt j = some i :=
  (h.partnerAt_iff j i).2 ((h.partnerAt_iff i j).1 hp).symm

/-- Partners are an opening tag and, behind it, a closing tag of the same name. -/
theorem tags {i j : Nat} (hp : d.partnerAt i = some j) :
    ∃ t u, tagAt d.nodes i = some t ∧ tagAt d.nodes j = some u ∧ t.name = u.name ∧
      (i < j ∧ t.kind = .opening ∧ u.kind = .closing ∨
        j < i ∧ t.kind = .closing ∧ u.kind = .opening) := by
  rcases (h.partnerAt_iff i j).1 hp with hp | hp
  · obtain ⟨t, u, ht, hu, htk, huk, hn⟩ := h.isMatching.tags hp
    exact ⟨t, u, ht, hu, hn, Or.inl ⟨hp.1, htk, huk⟩⟩
  · obtain ⟨u, t, hu, ht, huk, htk, hn⟩ := h.isMatching.tags hp
    exact ⟨t, u, ht, hu, hn.symm, Or.inr ⟨hp.1, htk, huk⟩⟩

theorem lt_length {i j : Nat} (hp : d.partnerAt i = some j) :
    i < d.nodes.length ∧ j < d.nodes.length := by
  obtain ⟨t, u, ht, hu, _⟩ := h.tags hp
  exact ⟨lt_length_of_tagAt ht, lt_length_of_tagAt hu⟩

theorem pair_of_closing {i j : Nat} {c : Tag} (hp : d.partnerAt j = some i)
    (hc : tagAt d.nodes j = some c) (hk : c.kind = .closing) : d.Pair i j := by
  obtain ⟨t, u, ht, _, _, ⟨_, htk, _⟩ | ⟨hlt, _, _⟩⟩ := h.tags hp
  · rw [hc] at ht
    cases ht
    rw [hk] at htk
    cases htk
  · exact ⟨hlt, h.symm hp⟩

theorem pair_of_opening {i j : Nat} {t : Tag} (hp : d.partnerAt i = some j)
    (ht : tagAt d.nodes i = some t) (hk : t.kind = .opening) : d.Pair i j := by
  obtain ⟨t', u, ht', _, _, ⟨hlt, _, _⟩ | ⟨_, htk, _⟩⟩ := h.tags hp
  · exact ⟨hlt, hp⟩
  · rw [ht] at ht'
    cases ht'
    rw [hk] at htk
    cases htk

/-- What neither opens nor closes has no partner. -/
theorem partnerAt_eq_none {i : Nat} (hi : ∀ t, tagAt d.nodes i = some t → t.kind = .selfClosing) :
    d.partnerAt i = none := by
  cases hp : d.partnerAt i with
  | none => rfl
  | some j =>
    obtain ⟨t, _, ht, _, _, ⟨_, htk, _⟩ | ⟨_, htk, _⟩⟩ := h.tags hp
    · rw [hi t ht] at htk
      cases htk
    · rw [hi t ht] at htk
      cases htk

/-- The partner of a closing tag is the nearest opening tag of its name that is still open. -/
theorem partner_of_closing {j : Nat} {c : Tag} (hc : tagAt d.nodes j = some c)
    (hk : c.kind = .closing) (i : Nat) :
    d.partnerAt j = some i ↔ OpenAt d.nodes d.Pair c.name i j ∧
      ∀ k, OpenAt d.nodes d.Pair c.name k j → k ≤ i := by
  constructor
  · intro hp
    obtain ⟨c', hc', _, ho⟩ := (h.isMatching i j).1 (h.pair_of_closing hp hc hk)
    rw [hc] at hc'
    cases hc'
    exact ho
  · intro ho
    exact (h.partnerAt_iff j i).2 (Or.inr ((h.isMatching i j).2 ⟨c, hc, hk, ho⟩))

/-- A closing tag has no partner when no tag of its name is open. -/
theorem orphan_iff {j : Nat} {c : Tag} (hc : tagAt d.nodes j = some c) (hk : c.kind = .closing) :
    d.partnerAt j = none ↔ ¬ ∃ i, OpenAt d.nodes d.Pair c.name i j := by
  classical
  constructor
  · rintro hnone ⟨i, hi⟩
    -- of the tags that are open the last would be the partner
    have hlast := Nat.findGreatest_spec (P := fun i => OpenAt d.nodes d.Pair c.name i j)
      (Nat.le_of_lt hi.1) hi
    have := (h.partner_of_closing hc hk _).2
      ⟨hlast, fun k ho => Nat.le_findGreatest (Nat.le_of_lt ho.1) ho⟩
    rw [hnone] at this
    cases this
  · intro hnone
    cases hp : d.partnerAt j with
    | none => rfl
    | some i => exact absurd ⟨i, ((h.partner_of_closing hc hk i).1 hp).1⟩ hnone

end Document.Matched

/-- **Partners are the nearest-open matching.**  They join an opening tag with a closing tag of its
name behind it, and both ways round; pairs nest; and a closing tag's partner is the nearest opening
tag of its name over which no earlier pair reaches, if there is one. -/
theorem Document.partners_parse (s : Text) :
    let d := Document.parse s
    (∀ i j, d.partnerAt i = some j → d.partnerAt j = some i ∧
      ∃ t u, tagAt d.nodes i = some t ∧ tagAt d.nodes j = some u ∧ t.name = u.name ∧
        (i < j ∧ t.kind = .opening ∧ u.kind = .closing ∨
          j < i ∧ t.kind = .closing ∧ u.kind = .opening)) ∧
    (∀ i, (∀ t, tagAt d.nodes i = some t → t.kind = .selfClosing) → d.partnerAt i = none) ∧
    (∀ i j k l, d.Pair i j → d.Pair k l → i < k → k < j → l < j) ∧
    ∀ j c, tagAt d.nodes j = some c → c.kind = .closing →
      (∀ i, d.partnerAt j = some i ↔ OpenAt d.nodes d.Pair c.name i j ∧
        ∀ k, OpenAt d.nodes d.Pair c.name k j → k ≤ i) ∧
      (d.partnerAt j = none ↔ ¬ ∃ i, OpenAt d.nodes d.Pair c.name i j) := by
  intro d
  have h := Document.matched_parse s
  exact ⟨fun i j hp => ⟨h.symm hp, h.tags hp⟩, fun i hi => h.partnerAt_eq_none hi,
    fun i j k l hij hkl => h.isMatching.laminar hij hkl,
    fun j c hc hk => ⟨h.partner_of_closing hc hk, h.orphan_iff hc hk⟩⟩

end Tagtext
