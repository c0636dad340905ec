import Tagtext.Proofs.Shift

/-!
# One document behind another

Segments are sealed if the last one is a marker and none is a marker that the end
of the text cut short.  Then what stands behind them does not change them, and is
cut as if it stood alone.  Two matchings side by side are the matching of both
parts, as long as no tags are left that would find each other:

    scanFrom pos (a ++ b) = scanFrom pos a ++ scanFrom (pos + byteLength a) b
                                                                    (scanFrom_append)
    IsMatching nodes pair → IsMatching nodes' pair' →
      IsMatching (nodes ++ nodes') (Beside nodes.length pair pair')  (isMatching_append)
    parse (a ++ b) = (parse a).append (byteLength a) (parse b)      (parse_append)

The nearest open tag of a name decides a match, so a closing tag of the second
part looks into the first one only when the second has none for it.
-/

namespace Tagtext

/-! ## Texts that can be continued -/

/-- Whether the end of the text brought the fault about. -/
def ParseError.isUnterminated : ParseError → Bool
  | unterminatedTag _ | unterminatedQuote _ => true
  | _ => false

namespace Segment

def isMarker : Segment → Bool
  | marker _ _ => true
  | _ => false

/-- Whether the end of the text cut a marker short. -/
def isUnterminated : Segment → Bool
  | malformed _ e => e.isUnterminated
  | _ => false

end Segment

/-- What stands behind these segments does not change them. -/
structure IsSealed (xs : List Segment) : Prop where
  last : ∀ x ∈ xs.getLast?, x.isMarker = true
  terminated : ∀ x ∈ xs, x.isUnterminated = false

instance : DecidablePred IsSealed := fun xs =>
  decidable_of_iff
    ((∀ x ∈ xs.getLast?, x.isMarker = true) ∧ ∀ x ∈ xs, x.isUnterminated = false)
    ⟨fun h => ⟨h.1, h.2⟩, fun h => ⟨h.last, h.terminated⟩⟩

theorem IsSealed.tail {x : Segment} {xs : List Segment} (h : IsSealed (x :: xs)) : IsSealed xs := by
  refine ⟨fun y hy => ?_, fun y hy => h.terminated y (List.mem_cons_of_mem x hy)⟩
  apply h.last y
  rw [List.getLast?_cons, Option.mem_def.1 hy]
  rfl

/-! ## Scanning -/

/-- A cut that does not come to the end of the text is the same in a longer text. -/
theorem cutBody_extend (start : Nat) (v : Bool) (pos : Nat) (s b : Text)
    (h : ∀ e, (cutBody start v pos s).fault = some e → e.isUnterminated = false) :
    cutBody start v pos (s ++ b) =
      { cutBody start v pos s with rest := (cutBody start v pos s).rest ++ b } := by
  fun_induction cutBody start v pos s with
  | case1 => cases h _ rfl
  | case2 => simp [cutBody]
  | case3 => simp [cutBody]
  | case4 v pos c r hclose hopen hv inside rest hs _ ih =>
    have hs' : skipQuoted c (r ++ b) = some (inside, rest ++ b) := by
      rw [← skipQuoted_append hs, List.append_assoc]
      exact skipQuoted_cut (Bool.and_eq_true_iff.1 hv).2 hs (rest ++ b)
    rw [List.cons_append, cutBody_value hclose hopen hv hs', ih h]
    rfl
  | case5 v pos c r hclose hopen hv hs before after hsplit =>
    cases h _ rfl
  | case6 v pos c r hclose hopen hv ih =>
    rw [List.cons_append, cutBody_other hclose hopen hv, ih h]
    rfl

/-- Three characters tell whether a marker opens. -/
theorem opensTag_append_of_length {s : Text} (h : 3 ≤ s.length) (b : Text) :
    opensTag (s ++ b) = opensTag s := by
  match s with
  | [] | [_] | [_, _] => simp at h
  | c :: d :: e :: s =>
    by_cases hc : c = '['
    · subst hc
      by_cases hd : d = '/'
      · subst hd
        rfl
      · simp [opensTag, hd]
    · simp [opensTag, hc]

theorem length_of_opensTag {s : Text} (h : opensTag s = true) : 2 ≤ s.length := by
  unfold opensTag at h
  split at h
  · simp
  · simp
  · cases h

/-- A run that ends in a text ends there in a longer text too. -/
theorem takeWhile_extend {p : Char → Bool} {r : Text} (h : r.dropWhile p ≠ []) (b : Text) :
    (r ++ b).takeWhile p = r.takeWhile p ∧ (r ++ b).dropWhile p = r.dropWhile p ++ b := by
  have hall : ∀ c ∈ r.takeWhile p, p c = true := List.all_eq_true.1 List.all_takeWhile
  have hstop : ∀ c ∈ (r.dropWhile p ++ b).head?, p c = false := by
    intro c hc
    have hhead := List.head?_dropWhile_not p r
    rw [List.head?_append_of_ne_nil _ h, Option.mem_def] at hc
    rw [hc] at hhead
    simpa using hhead
  have hsplit := takeWhile_append_of_stop hall hstop
  rwa [← List.append_assoc, List.takeWhile_append_dropWhile] at hsplit

theorem splitHead_extend {s : Text} (hopens : opensTag s = true) (h : (splitHead s).2 ≠ [])
    (b : Text) : splitHead (s ++ b) = ((splitHead s).1, (splitHead s).2 ++ b) := by
  unfold opensTag at hopens
  split at hopens
  · next c r =>
    obtain ⟨htake, hdrop⟩ := takeWhile_extend (p := isNameChar) (r := c :: r) h b
    simp only [splitHead, List.cons_append] at htake hdrop ⊢
    rw [htake, hdrop]
  · next c r hc' =>
    have hslash : c ≠ '/' := by
      rintro rfl
      cases hopens
    rw [splitHead_name hslash] at h ⊢
    obtain ⟨htake, hdrop⟩ := takeWhile_extend (p := isNameChar) (r := c :: r) h b
    simp only [List.cons_append] at htake hdrop ⊢
    rw [splitHead_name hslash, htake, hdrop]
  · cases hopens

theorem cutMarker_extend {start : Nat} {s : Text} (hopens : opensTag s = true)
    (h : ∀ e, (cutMarker start s).fault = some e → e.isUnterminated = false) (b : Text) :
    cutMarker start (s ++ b) =
      { cutMarker start s with rest := (cutMarker start s).rest ++ b } := by
  have hbody : (splitHead s).2 ≠ [] := by
    intro hnil
    have hfault : (cutMarker start s).fault = some (.unterminatedTag start) := by
      simp only [cutMarker, hnil, Cut.fault_prepend]
      rw [cutBody]
    cases h _ hfault
  simp only [cutMarker, Cut.fault_prepend] at h
  simp only [cutMarker, splitHead_extend hopens hbody b, cutBody_extend _ _ _ _ b h]
  rfl

/-- Text that ends where a marker opens ends there in a longer text too. -/
theorem splitAtTag_extend {s : Text} (h : opensTag (splitAtTag s).2 = true) (b : Text) :
    splitAtTag (s ++ b) = ((splitAtTag s).1, (splitAtTag s).2 ++ b) := by
  induction s with
  | nil => cases h
  | cons c r ih =>
    by_cases hc : opensTag (c :: r) = true
    · have hc' : opensTag (c :: (r ++ b)) = true := opensTag_append hc b
      simp [splitAtTag, hc, hc']
    · have hs : splitAtTag (c :: r) = (c :: (splitAtTag r).1, (splitAtTag r).2) := by
        simp [splitAtTag, hc]
      have hr : opensTag (splitAtTag r).2 = true := by rwa [hs] at h
      have hlen : 3 ≤ (c :: r).length := by
        have := length_of_opensTag hr
        rw [List.length_cons, ← splitAtTag_append r, List.length_append]
        omega
      have hc' : opensTag (c :: (r ++ b)) ≠ true := by
        rw [← List.cons_append, opensTag_append_of_length hlen]
        exact hc
      rw [hs, List.cons_append, splitAtTag, if_neg hc', ih hr]

/-- **Segments of a longer text.**  What stands behind sealed segments is cut as if it stood
alone. -/
theorem scanFrom_append {pos : Nat} {a : Text} (h : IsSealed (scanFrom pos a)) (b : Text) :
    scanFrom pos (a ++ b) = scanFrom pos a ++ scanFrom (pos + byteLength a) b := by
  fun_induction scanFrom pos a with
  | case1 pos => simp
  | case2 pos c r hopens k _ ih =>
    have hfault : ∀ e, (cutMarker pos (c :: r)).fault = some e → e.isUnterminated = false := by
      intro e he
      have hhead := h.terminated (k.segment pos) List.mem_cons_self
      rwa [Cut.segment, show k.fault = some e from he] at hhead
    have hbytes : byteLength (c :: r) = byteLength k.taken + byteLength k.rest := by
      rw [← byteLength_append]
      exact congrArg byteLength (cutMarker_append pos (c :: r)).symm
    rw [scanFrom_marker (opensTag_append hopens b), cutMarker_extend hopens hfault,
      List.cons_append, hbytes, ← Nat.add_assoc, ← ih h.tail]
    rfl
  | case3 pos c r htext k _ ih =>
    -- text is not the last segment, so a marker opens behind it
    have hopens : opensTag k.2 = true := by
      refine (opensTag_splitAtTag (c :: r)).resolve_left fun hnil => ?_
      have hnil' : scanFrom (pos + byteLength k.1) k.2 = [] := by
        rw [show k.2 = [] from hnil, scanFrom]
      cases h.last (.literal k.1) (by rw [hnil']; rfl)
    have hsplit : splitAtTag (c :: r ++ b) = (k.1, k.2 ++ b) := splitAtTag_extend hopens b
    have htext' : opensTag (c :: r ++ b) = false := by
      cases ho : opensTag (c :: (r ++ b)) with
      | false => exact ho
      | true =>
        rw [List.cons_append, splitAtTag, if_pos ho] at hsplit
        exact absurd (congrArg Prod.fst hsplit).symm
          (splitAtTag_ne_nil (Bool.eq_false_iff.2 htext))
    have hbytes : byteLength (c :: r) = byteLength k.1 + byteLength k.2 := by
      rw [← byteLength_append]
      exact congrArg byteLength (splitAtTag_append (c :: r)).symm
    have hne : c :: r ++ b ≠ [] := List.cons_ne_nil c (r ++ b)
    rw [scanFrom_literal hne htext', hsplit, List.cons_append, hbytes,
      ← Nat.add_assoc, ← ih h.tail]

/-- What stands behind sealed segments is cut as in a text of its own, with larger offsets. -/
theorem scan_append {a : Text} (h : IsSealed (scan a)) (b : Text) :
    scan (a ++ b) = scan a ++ (scan b).map (Segment.shift (byteLength a)) := by
  rw [scan, scanFrom_append h, Nat.add_comm, scanFrom_shift]
  rfl

/-! ## Matching -/

/-- Two matchings side by side, the second one over the nodes from `m` on. -/
def Beside (m : Nat) (pair pair' : Nat → Nat → Prop) (i j : Nat) : Prop :=
  pair i j ∨ ∃ k l, i = m + k ∧ j = m + l ∧ pair' k l

theorem tagAt_append_left {nodes nodes' : List Node} {i : Nat} (h : i < nodes.length) :
    tagAt (nodes ++ nodes') i = tagAt nodes i := by
  rw [tagAt, tagAt, List.getElem?_append_left h]

theorem tagAt_append_right (nodes nodes' : List Node) (i : Nat) :
    tagAt (nodes ++ nodes') (nodes.length + i) = tagAt nodes' i := by
  rw [tagAt, tagAt, List.getElem?_append_right (Nat.le_add_right _ _), Nat.add_sub_cancel_left]

theorem tagAt_shift (n k : Nat) (nodes : List Node) (i : Nat) :
    tagAt (nodes.map (Node.shift n k)) i = (tagAt nodes i).map (Tag.shift n) := by
  rw [tagAt, tagAt, List.getElem?_map]
  cases nodes[i]? with
  | none => rfl
  | some x => simp

/-- Where the nodes stand in a document has no part in their matching. -/
theorem IsMatching.shift {nodes : List Node} {pair : Nat → Nat → Prop} (h : IsMatching nodes pair)
    (n k : Nat) : IsMatching (nodes.map (Node.shift n k)) pair := by
  have hopen : ∀ name i j, OpenAt (nodes.map (Node.shift n k)) pair name i j ↔
      OpenAt nodes pair name i j := by
    intro name i j
    unfold OpenAt
    rw [tagAt_shift]
    cases tagAt nodes i <;> simp
  intro i j
  rw [h i j]
  unfold Closes
  simp only [hopen, tagAt_shift]
  cases tagAt nodes j <;> simp

section
variable {nodes nodes' : List Node} {pair pair' : Nat → Nat → Prop}
  (h : IsMatching nodes pair) (h' : IsMatching nodes' pair')
/-- In front of the seam only the first matching counts. -/
theorem beside_left {i j : Nat} (hj : j < nodes.length) :
    Beside nodes.length pair pair' i j ↔ pair i j := by
  constructor
  · rintro (hp | ⟨k, l, _, rfl, _⟩)
    · exact hp
    · omega
  · exact Or.inl

include h

theorem IsMatching.lt_length {i j : Nat} (hp : pair i j) : j < nodes.length := by
  obtain ⟨_, c, _, hc, _⟩ := h.tags hp
  exact lt_length_of_tagAt hc

/-- Behind the seam only the second matching counts. -/
theorem beside_right {i j : Nat} :
    Beside nodes.length pair pair' i (nodes.length + j) ↔
      ∃ k, i = nodes.length + k ∧ pair' k j := by
  constructor
  · rintro (hp | ⟨k, l, rfl, hj, hp⟩)
    · have := h.lt_length hp
      omega
    · obtain rfl : j = l := by omega
      exact ⟨k, rfl, hp⟩
  · rintro ⟨k, rfl, hp⟩
    exact Or.inr ⟨k, j, rfl, rfl, hp⟩

/-- A tag of the second part is open if it is open there. -/
theorem openAt_right (name : Text) (i j : Nat) :
    OpenAt (nodes ++ nodes') (Beside nodes.length pair pair') name (nodes.length + i)
        (nodes.length + j) ↔ OpenAt nodes' pair' name i j := by
  unfold OpenAt
  rw [tagAt_append_right]
  refine and_congr (by omega) (and_congr_right fun _ => ?_)
  constructor
  · intro ho k l hp hk
    exact ho (nodes.length + k) (nodes.length + l) (Or.inr ⟨k, l, rfl, rfl, hp⟩) (by omega)
  · rintro ho k l (hp | ⟨k', l', rfl, rfl, hp⟩) hk
    · have := h.lt_length hp
      omega
    · exact ho k' l' hp (by omega)

/-- A tag of the first part that is open behind the seam has no partner. -/
theorem unpaired_of_openAt {name : Text} {i j : Nat} (hi : i < nodes.length)
    (ho : OpenAt (nodes ++ nodes') (Beside nodes.length pair pair') name i (nodes.length + j)) :
    (∃ t, tagAt nodes i = some t ∧ t.kind = .opening ∧ t.name = name) ∧ ∀ l, ¬ pair i l := by
  obtain ⟨_, ht, hstill⟩ := ho
  rw [tagAt_append_left hi] at ht
  refine ⟨ht, fun l hp => hstill i l (Or.inl hp) ?_⟩
  have := h.lt hp
  have := h.lt_length hp
  omega

include h'

/-- A pair of the second part is matched across the whole. -/
theorem closes_right {i j : Nat} (hp : pair' i j) :
    Closes (nodes ++ nodes') (Beside nodes.length pair pair') (nodes.length + i)
      (nodes.length + j) := by
  obtain ⟨c, hc, hk, ho, hmax⟩ := (h' i j).1 hp
  refine ⟨c, by rwa [tagAt_append_right], hk, (openAt_right h c.name i j).2 ho, fun k hok => ?_⟩
  rcases Nat.lt_or_ge k nodes.length with hlt | hge
  · omega
  · obtain ⟨k, rfl⟩ := Nat.exists_eq_add_of_le hge
    have := hmax k ((openAt_right h c.name k j).1 hok)
    omega

variable (hapart : ∀ i j t c, tagAt nodes i = some t → t.kind = .opening → (∀ l, ¬ pair i l) →
  tagAt nodes' j = some c → c.kind = .closing → (∀ k, ¬ pair' k j) → c.name ≠ t.name)
include hapart

/-- A closing tag of the second part is matched there, or not at all. -/
theorem exists_pair_of_closes_right {i j : Nat}
    (hcloses : Closes (nodes ++ nodes') (Beside nodes.length pair pair') i (nodes.length + j)) :
    ∃ k, i = nodes.length + k ∧ pair' k j := by
  obtain ⟨c, hc, hk, ho, hmax⟩ := hcloses
  rw [tagAt_append_right] at hc
  have hnearest : ∀ k, OpenAt nodes' pair' c.name k j → nodes.length + k ≤ i := fun k hok =>
    hmax _ ((openAt_right h c.name k j).2 hok)
  rcases Nat.lt_or_ge i nodes.length with hlt | hge
  · -- a tag of the first part is not the nearest unless the second part has none
    obtain ⟨⟨t, ht, htk, htn⟩, hnone⟩ := unpaired_of_openAt h hlt ho
    refine absurd htn.symm (hapart i j t c ht htk hnone hc hk fun k hp => ?_)
    obtain ⟨c', hc', _, hok, _⟩ := (h' k j).1 hp
    rw [hc] at hc'
    cases hc'
    have := hnearest k hok
    omega
  · obtain ⟨i, rfl⟩ := Nat.exists_eq_add_of_le hge
    refine ⟨i, rfl, (h' i j).2 ⟨c, hc, hk, (openAt_right h c.name i j).1 ho, fun k hok => ?_⟩⟩
    have := hnearest k hok
    omega

/-- **Side by side two matchings are one**, if no closing tag that finds no partner in the second
part has the name of an opening tag without partner in the first. -/
theorem isMatching_append : IsMatching (nodes ++ nodes') (Beside nodes.length pair pair') := by
  intro i j
  rcases Nat.lt_or_ge j nodes.length with hj | hj
  · rw [beside_left hj, h i j]
    refine Closes.congr (fun k hk => (tagAt_append_left (by omega)).symm) (fun k l hl => ?_) i
    exact (beside_left (by omega)).symm
  · obtain ⟨j, rfl⟩ := Nat.exists_eq_add_of_le hj
    rw [beside_right h]
    constructor
    · rintro ⟨i, rfl, hp⟩
      exact closes_right h h' hp
    · exact exists_pair_of_closes_right h h' hapart

end

/-! ## Documents -/

namespace Node

/-- A node that is not matched with any other. -/
abbrev unmatched (x : Node) : Node := x.withPartner none

@[simp] theorem tag?_withPartner (p : Option Nat) (x : Node) : (x.withPartner p).tag? = x.tag? := by
  cases x <;> rfl

@[simp] theorem unmatched_withPartner (p : Option Nat) (x : Node) :
    (x.withPartner p).unmatched = x.unmatched := by
  cases x <;> rfl

theorem unmatched_shift (n k l : Nat) (x : Node) :
    (x.shift n k).unmatched = x.unmatched.shift n l := by
  cases x <;> rfl

theorem unmatched_ofSegment (x : Segment) : (ofSegment x).unmatched = ofSegment x := by
  cases x with
  | literal t => rfl
  | malformed raw e => rfl
  | marker raw start =>
    rw [ofSegment]
    cases Tag.parse raw start <;> rfl

/-- A node is what it is without its partner, and its partner. -/
theorem eq_of_unmatched {x y : Node} (h : x.unmatched = y.unmatched)
    (hp : x.partner? = y.partner?) : x = y := by
  cases x <;> cases y <;> cases h <;> cases hp <;> rfl

end Node

namespace Document

theorem map_unmatched_parse (s : Text) :
    (parse s).nodes.map Node.unmatched = (scan s).map Node.ofSegment := by
  rw [parse, matchTags]
  apply List.ext_getElem?
  intro i
  simp only [List.getElem?_map, List.getElem?_mapIdx, Option.map_map]
  refine Option.map_congr fun x _ => ?_
  simp [Node.unmatched_ofSegment]

theorem tagAt_unmatched (nodes : List Node) (i : Nat) :
    tagAt (nodes.map Node.unmatched) i = tagAt nodes i := by
  rw [tagAt, tagAt, List.getElem?_map]
  cases nodes[i]? <;> simp

/-- Matched documents with the same nodes have the same partners. -/
theorem eq_of_matched {d d' : Document} (h : d.Matched) (h' : d'.Matched)
    (hn : d.nodes.map Node.unmatched = d'.nodes.map Node.unmatched) : d = d' := by
  have htag : ∀ k, tagAt d.nodes k = tagAt d'.nodes k := by
    intro k
    rw [← tagAt_unmatched, hn, tagAt_unmatched]
  have hpair : ∀ i j, d.Pair i j ↔ d'.Pair i j := fun i j =>
    h.isMatching.agree h'.isMatching (fun k _ => htag k) j (Nat.lt_succ_self j) i
  have hpartner : ∀ i, d.partnerAt i = d'.partnerAt i := by
    intro i
    ext j
    rw [h.partnerAt_iff, h'.partnerAt_iff, hpair, hpair]
  obtain ⟨nodes⟩ := d
  obtain ⟨nodes'⟩ := d'
  congr 1
  apply List.ext_getElem?
  intro i
  have hi := congrArg (·[i]?) hn
  have hp := hpartner i
  simp only [List.getElem?_map, partnerAt] at hi hp
  cases hx : nodes[i]? with
  | none =>
    rw [hx, Option.map_none] at hi
    exact (Option.map_eq_none_iff.1 hi.symm).symm
  | some x =>
    rw [hx, Option.map_some] at hi
    obtain ⟨y, hy, he⟩ := Option.map_eq_some_iff.1 hi.symm
    rw [hx, hy, Option.bind_some, Option.bind_some] at hp
    rw [hy, Node.eq_of_unmatched he.symm hp]

/-- One document behind another, whose text is `n` bytes long. -/
def append (n : Nat) (d d' : Document) : Document :=
  ⟨d.nodes ++ d'.nodes.map (Node.shift n d.nodes.length)⟩

/-- The tag at node `i` if it is of this kind and has no partner. -/
def unpairedAt (d : Document) (kind : TagKind) (i : Nat) : Option Tag :=
  (tagAt d.nodes i).filter fun t => t.kind = kind && (d.partnerAt i).isNone

/-- No closing tag without partner in `d'` has the name of an opening tag without partner in `d`. -/
def Apart (d d' : Document) : Prop :=
  ∀ i j, ∀ t ∈ d.unpairedAt .opening i, ∀ c ∈ d'.unpairedAt .closing j, c.name ≠ t.name

theorem mem_unpairedAt {d : Document} {kind : TagKind} {i : Nat} {t : Tag} :
    t ∈ d.unpairedAt kind i ↔ tagAt d.nodes i = some t ∧ t.kind = kind ∧ d.partnerAt i = none := by
  simp [unpairedAt, Option.mem_def, Option.filter_eq_some_iff]

theorem lt_length_of_unpairedAt {d : Document} {kind : TagKind} {i : Nat} {t : Tag}
    (h : t ∈ d.unpairedAt kind i) : i < d.nodes.length :=
  lt_length_of_tagAt (mem_unpairedAt.1 h).1

instance (d d' : Document) : Decidable (d.Apart d') :=
  decidable_of_iff
    (∀ i < d.nodes.length, ∀ j < d'.nodes.length,
      ∀ t ∈ d.unpairedAt .opening i, ∀ c ∈ d'.unpairedAt .closing j, c.name ≠ t.name)
    ⟨fun h i j t ht c hc =>
      h i (lt_length_of_unpairedAt ht) j (lt_length_of_unpairedAt hc) t ht c hc,
      fun h i _ j _ => h i j⟩

section
variable {d d' : Document} (n : Nat)

theorem partnerAt_append_left {i : Nat} (hi : i < d.nodes.length) :
    (d.append n d').partnerAt i = d.partnerAt i := by
  rw [partnerAt, append, List.getElem?_append_left hi]
  rfl

theorem partnerAt_append_right (i : Nat) :
    (d.append n d').partnerAt (d.nodes.length + i) =
      (d'.partnerAt i).map (d.nodes.length + ·) := by
  rw [partnerAt, append, List.getElem?_append_right (Nat.le_add_right _ _),
    Nat.add_sub_cancel_left, List.getElem?_map, partnerAt]
  cases d'.nodes[i]? <;> simp

variable (h : d.Matched)
include h

/-- The pairs of two documents side by side are the pairs of both. -/
theorem pair_append : (d.append n d').Pair = Beside d.nodes.length d.Pair d'.Pair := by
  ext i j
  rcases Nat.lt_or_ge i d.nodes.length with hi | hi
  · rw [Pair, partnerAt_append_left n hi]
    constructor
    · exact Or.inl
    · rintro (hp | ⟨k, l, rfl, _, _⟩)
      · exact hp
      · omega
  · obtain ⟨i, rfl⟩ := Nat.exists_eq_add_of_le hi
    rw [Pair, partnerAt_append_right, Option.map_eq_some_iff]
    constructor
    · rintro ⟨hlt, l, hp, rfl⟩
      exact Or.inr ⟨i, l, rfl, rfl, by omega, hp⟩
    · rintro (hp | ⟨k, l, hk, rfl, hlt, hp⟩)
      · have := (h.lt_length hp.2).1
        omega
      · obtain rfl : i = k := by omega
        exact ⟨by omega, l, hp, rfl⟩

/-- **Two documents side by side are matched** as each one is matched, if no tags of the two are
left that would find each other. -/
theorem Matched.append (h' : d'.Matched) (hapart : d.Apart d') : (d.append n d').Matched := by
  refine ⟨?_, fun i j => ?_⟩
  · rw [pair_append n h]
    refine isMatching_append h.isMatching (h'.isMatching.shift n _) ?_
    intro i j t c ht htk hnone hc hck hnone'
    rw [tagAt_shift] at hc
    obtain ⟨c, hcb, rfl⟩ := Option.map_eq_some_iff.1 hc
    refine hapart i j t (mem_unpairedAt.2 ⟨ht, htk, ?_⟩) c (mem_unpairedAt.2 ⟨hcb, hck, ?_⟩)
    · cases hp : d.partnerAt i with
      | none => rfl
      | some l => exact absurd (h.pair_of_opening hp ht htk) (hnone l)
    · cases hp : d'.partnerAt j with
      | none => rfl
      | some k => exact absurd (h'.pair_of_closing hp hcb hck) (hnone' k)
  · rw [pair_append n h]
    rcases Nat.lt_or_ge i d.nodes.length with hi | hi
    · rw [partnerAt_append_left n hi, h.partnerAt_iff, beside_left hi]
      refine or_congr_left ⟨Or.inl, ?_⟩
      rintro (hp | ⟨k, l, rfl, _, _⟩)
      · exact hp
      · omega
    · obtain ⟨i, rfl⟩ := Nat.exists_eq_add_of_le hi
      rw [partnerAt_append_right, Option.map_eq_some_iff, beside_right h.isMatching]
      constructor
      · rintro ⟨l, hp, rfl⟩
        rcases (h'.partnerAt_iff i l).1 hp with hp | hp
        · exact Or.inl (Or.inr ⟨i, l, rfl, rfl, hp⟩)
        · exact Or.inr ⟨l, rfl, hp⟩
      · rintro ((hp | ⟨k, l, hk, rfl, hp⟩) | ⟨l, rfl, hp⟩)
        · have := (h.lt_length hp.2).1
          omega
        · obtain rfl : i = k := by omega
          exact ⟨l, (h'.partnerAt_iff i l).2 (Or.inl hp), rfl⟩
        · exact ⟨l, (h'.partnerAt_iff i l).2 (Or.inr hp), rfl⟩

end

/-- **The document of two texts** is that of the first and behind it that of the second. -/
theorem parse_append {a b : Text} (h : IsSealed (scan a)) (hapart : (parse a).Apart (parse b)) :
    parse (a ++ b) = (parse a).append (byteLength a) (parse b) := by
  refine eq_of_matched (matched_parse _) ((matched_parse a).append _ (matched_parse b) hapart) ?_
  rw [map_unmatched_parse, scan_append h, append, List.map_append, List.map_append, map_unmatched_parse]
  congr 1
  have hshift : Node.unmatched ∘ Node.shift (byteLength a) (parse a).nodes.length =
      Node.shift (byteLength a) 0 ∘ Node.unmatched :=
    funext fun x => Node.unmatched_shift _ _ _ x
  rw [List.map_map (g := Node.unmatched), hshift, ← List.map_map, map_unmatched_parse,
    List.map_map, List.map_map]
  exact List.map_congr_left fun x _ => Node.ofSegment_shift _ 0 x

end Document

end Tagtext
