import Tagtext.Proofs.Bytes
import Tagtext.Proofs.FaultOffsets
import Tagtext.Proofs.Relocation
import Tagtext.Proofs.Slashing

/-!
# Tags that are never closed

An opening tag without partner can be called as if it stood alone.  It can also
be made to stand alone, by a blank and a slash in front of its closing bracket.
Both come to the same:

    output, context, calls and halt   = output, context, calls and halt
    diagnostics with the slash        = diagnostics less the report that the tag is never closed

where all offsets behind the slash are larger by two (`evaluate_slashed`).

The document with the slash is the other one, moved, but for one node: scanning
and the reading of tags change nothing else (`Scans.slashed`, `Tag.parse_slashed`),
and no closing tag loses its partner, for the tag was nobody's
(`StandsAlone.matched`).  So the pass over it is the other pass, moved
(`StandsAlone.evaluate_eq`).
-/

namespace Tagtext

/-! ## Where nodes stand -/

/-- The offset of what is reported of a node or called for it. -/
def Node.offset? : Node → Option Nat
  | text _ => none
  | malformed _ e => some e.offset
  | tag t _ => some t.start

/-- The offset at which node `k` begins. -/
def Document.startOf (d : Document) (k : Nat) : Nat :=
  byteLength ((d.nodes.take k).map Node.raw).flatten

/-- The offsets of a text in which `n` more bytes come in at `gap`. -/
def withGap (gap n o : Nat) : Nat := if o < gap then o else n + o

/-! ## Lemmas -/

theorem withGap_of_lt {gap o : Nat} (h : o < gap) (n : Nat) : withGap gap n o = o := if_pos h

theorem withGap_of_le {gap o : Nat} (h : gap ≤ o) (n : Nat) : withGap gap n o = n + o :=
  if_neg (Nat.not_lt.2 h)

theorem ParseError.mapOffset_eq_self {f : Nat → Nat} {e : ParseError} (h : f e.offset = e.offset) :
    e.mapOffset f = e := by
  cases e <;> simp_all [mapOffset, offset]

theorem ParseError.mapOffset_eq_shift {f : Nat → Nat} {n : Nat} {e : ParseError}
    (h : f e.offset = n + e.offset) : e.mapOffset f = e.shift n := by
  cases e <;> simp_all [mapOffset, shift, offset]

namespace Node

theorem mapOffset_eq_self {f : Nat → Nat} {x : Node} (h : ∀ o ∈ x.offset?, f o = o) :
    x.mapOffset f = x := by
  cases x with
  | text t => rfl
  | malformed raw e => rw [mapOffset, ParseError.mapOffset_eq_self (h _ rfl)]
  | tag t partner => rw [mapOffset, Tag.mapOffset, h _ rfl]

theorem mapOffset_eq_shift {f : Nat → Nat} {n : Nat} {x : Node}
    (h : ∀ o ∈ x.offset?, f o = n + o) : x.unmatched.mapOffset f = x.unmatched.shift n 0 := by
  cases x with
  | text t => rfl
  | malformed raw e => exact congrArg _ (ParseError.mapOffset_eq_shift (h _ rfl))
  | tag t partner =>
    have hstart : f t.start = n + t.start := h _ rfl
    simp only [unmatched, withPartner, mapOffset, shift, Tag.mapOffset, Tag.shift, hstart]
    rfl

@[simp] theorem unmatched_mapOffset (f : Nat → Nat) (x : Node) :
    (x.mapOffset f).unmatched = x.unmatched.mapOffset f := by
  cases x <;> rfl

end Node

namespace Document

theorem startOf_succ {d : Document} {k : Nat} {x : Node} (hx : d.nodes[k]? = some x) :
    d.startOf (k + 1) = d.startOf k + byteLength x.raw := by
  obtain ⟨hlt, rfl⟩ := List.getElem?_eq_some_iff.1 hx
  rw [startOf, startOf, List.take_succ_eq_append_getElem hlt, List.map_append, List.flatten_append,
    byteLength_append, List.map_singleton, List.flatten_singleton]

theorem startOf_mono (d : Document) {j k : Nat} (h : j ≤ k) : d.startOf j ≤ d.startOf k := by
  obtain ⟨m, rfl⟩ := Nat.exists_eq_add_of_le h
  rw [startOf, startOf, List.take_add, List.map_append, List.flatten_append, byteLength_append]
  exact Nat.le_add_right _ _

section
variable {input : Text} {k : Nat} {x : Node} (hx : (parse input).nodes[k]? = some x)
include hx

/-- Every node holds at least one byte. -/
theorem startOf_lt : (parse input).startOf k < (parse input).startOf (k + 1) := by
  have hraw : x.raw ∈ (scan input).map Segment.raw := by
    have hmap : Node.raw ∘ Node.ofSegment = Segment.raw := funext Node.raw_ofSegment
    rw [← hmap, ← List.map_map, ← map_raw_matchTags]
    exact List.mem_map_of_mem (List.mem_of_getElem? hx)
  obtain ⟨y, hy, hyx⟩ := List.mem_map.1 hraw
  have hpos := byteLength_pos (hyx ▸ raw_ne_nil_of_mem_scan hy)
  rw [startOf_succ hx]
  omega

/-- What is reported of a node or called for it stands in the node, or directly behind it. -/
theorem offset?_bounds {o : Nat} (ho : x.offset? = some o) :
    (parse input).startOf k ≤ o ∧ o ≤ (parse input).startOf (k + 1) := by
  cases x with
  | text t => cases ho
  | malformed raw e =>
    cases ho
    have hlies := liesIn_parse (nodes_split hx)
    rw [startOf_succ hx]
    exact ⟨hlies.le_offset, hlies.offset_le⟩
  | tag t partner =>
    cases ho
    have htag : tagAt (parse input).nodes k = some t := by simp [tagAt, hx, Node.tag?]
    rw [start_of_tagAt htag]
    exact ⟨Nat.le_refl _, (parse input).startOf_mono (Nat.le_succ k)⟩

end

end Document

/-! ## Partners -/

namespace Document.StandsAlone

variable {f : Nat → Nat} {t : Tag} {i : Nat} {d d' : Document} (h : StandsAlone f t i d d')
include h

theorem partnerAt_eq (k : Nat) : d'.partnerAt k = d.partnerAt k := by
  unfold partnerAt
  by_cases hk : k = i
  · subst hk
    obtain ⟨raw, halone⟩ := h.alone
    rw [halone, h.unclosed]
    rfl
  · rw [h.others k hk]
    cases d.nodes[k]? <;> simp

theorem tagAt_eq {k : Nat} (hk : k ≠ i) :
    tagAt d'.nodes k = (tagAt d.nodes k).map (Tag.mapOffset f) := by
  rw [tagAt, tagAt, h.others k hk]
  cases d.nodes[k]? <;> simp

/-- Just the tag that stands alone is no longer open. -/
theorem openAt_iff (pair : Nat → Nat → Prop) (name : Text) (k j : Nat) :
    OpenAt d'.nodes pair name k j ↔ OpenAt d.nodes pair name k j ∧ k ≠ i := by
  by_cases hk : k = i
  · subst hk
    obtain ⟨raw, halone⟩ := h.alone
    have htag : tagAt d'.nodes k = some { t with kind := .selfClosing, raw } := by
      rw [tagAt, halone]
      rfl
    simp [OpenAt, htag]
  · unfold OpenAt
    rw [h.tagAt_eq hk]
    simp only [Option.map_eq_some_iff, ne_eq, hk, not_false_eq_true, and_true]
    refine and_congr_right fun _ => and_congr_left fun _ => ?_
    constructor
    · rintro ⟨_, ⟨u, hu, rfl⟩, hkind, hname⟩
      exact ⟨u, hu, hkind, hname⟩
    · rintro ⟨u, hu, hkind, hname⟩
      exact ⟨_, ⟨u, hu, rfl⟩, hkind, hname⟩

theorem unpaired (j : Nat) : ¬ d.Pair i j := by
  intro hj
  have hpartner := hj.2
  rw [partnerAt, h.unclosed] at hpartner
  cases hpartner

theorem tagAt_unclosed : tagAt d.nodes i = some t := by
  rw [tagAt, h.unclosed]
  rfl

theorem closes_iff (hm : d.Matched) (k j : Nat) :
    Closes d'.nodes d.Pair k j ↔ Closes d.nodes d.Pair k j := by
  constructor
  · rintro ⟨c', hc', hkind, hopen, hmax⟩
    have hji : j ≠ i := by
      rintro rfl
      obtain ⟨raw, halone⟩ := h.alone
      rw [tagAt, halone] at hc'
      cases hc'
      cases hkind
    rw [h.tagAt_eq hji] at hc'
    obtain ⟨c, hc, rfl⟩ := Option.map_eq_some_iff.1 hc'
    refine ⟨c, hc, hkind, ((h.openAt_iff _ _ _ _).1 hopen).1, fun l hl => ?_⟩
    by_cases hli : l = i
    · -- what is closed here is another tag, opened behind this one
      subst hli
      cases hp : d.partnerAt j with
      | none => exact absurd ⟨l, hl⟩ ((hm.orphan_iff hc hkind).1 hp)
      | some m =>
        obtain ⟨hopens, hlast⟩ := (hm.partner_of_closing hc hkind m).1 hp
        have hml : m ≠ l := by
          rintro rfl
          exact h.unpaired j (hm.pair_of_closing hp hc hkind)
        exact Nat.le_trans (hlast l hl) (hmax m ((h.openAt_iff _ _ _ _).2 ⟨hopens, hml⟩))
    · exact hmax l ((h.openAt_iff _ _ _ _).2 ⟨hl, hli⟩)
  · intro hcloses
    have hki : k ≠ i := by
      rintro rfl
      exact h.unpaired j ((hm.isMatching k j).2 hcloses)
    obtain ⟨c, hc, hkind, hopen, hmax⟩ := hcloses
    have hji : j ≠ i := by
      rintro rfl
      rw [h.tagAt_unclosed] at hc
      cases hc
      rw [h.kind] at hkind
      cases hkind
    refine ⟨c.mapOffset f, by rw [h.tagAt_eq hji, hc]; rfl, hkind,
      (h.openAt_iff _ _ _ _).2 ⟨hopen, hki⟩, fun l hl => ?_⟩
    exact hmax l ((h.openAt_iff _ _ _ _).1 hl).1

/-- **No closing tag loses its partner**, for the tag was nobody's. -/
theorem matched (hm : d.Matched) : d'.Matched := by
  have hpair : d'.Pair = d.Pair := by
    funext k j
    rw [Pair, Pair, h.partnerAt_eq]
  refine ⟨fun k j => ?_, fun k j => ?_⟩
  · rw [hpair, h.closes_iff hm]
    exact hm.isMatching k j
  · rw [h.partnerAt_eq, hpair]
    exact hm.partnerAt_iff k j

end Document.StandsAlone

/-! ## Documents -/

namespace Document

section
variable {input : Text} {i : Nat} {tag : Tag} (hi : (parse input).nodes[i]? = some (.tag tag none))
include hi

theorem startOf_unclosed : (parse input).startOf i = tag.start ∧
    (parse input).startOf (i + 1) = tag.stop := by
  have htag : tagAt (parse input).nodes i = some tag := by simp [tagAt, hi, Node.tag?]
  have hstart : (parse input).startOf i = tag.start := (start_of_tagAt htag).symm
  refine ⟨hstart, ?_⟩
  rw [startOf_succ hi, hstart]
  rfl

/-- In front of the tag nothing is moved. -/
theorem mapOffset_withGap_of_lt {gap : Nat} (hgap : tag.start < gap) (m : Nat) {k : Nat} {x : Node}
    (hx : (parse input).nodes[k]? = some x) (hk : k < i) : x.mapOffset (withGap gap m) = x := by
  refine Node.mapOffset_eq_self fun o ho => withGap_of_lt ?_ m
  have hle := (offset?_bounds hx ho).2
  have hmono := (parse input).startOf_mono (Nat.succ_le_of_lt hk)
  rw [Nat.succ_eq_add_one, (startOf_unclosed hi).1] at hmono
  omega

/-- Behind the tag everything is moved. -/
theorem mapOffset_withGap_of_gt {gap : Nat} (hgap : gap < tag.stop) (m : Nat) {k : Nat} {x : Node}
    (hx : (parse input).nodes[k]? = some x) (hk : i < k) :
    x.unmatched.mapOffset (withGap gap m) = x.unmatched.shift m 0 := by
  refine Node.mapOffset_eq_shift fun o ho => withGap_of_le ?_ m
  have hle := (offset?_bounds hx ho).1
  have hmono := (parse input).startOf_mono (Nat.succ_le_of_lt hk)
  rw [Nat.succ_eq_add_one, (startOf_unclosed hi).2] at hmono
  omega

/-- No other node has the fault that the tag is never closed. -/
theorem fault?_ne_unclosed {k : Nat} {x : Node} {e : ParseError} (hk : k ≠ i)
    (hx : (parse input).nodes[k]? = some x) (he : x.fault? = some e) : .parse e ≠ tag.unclosed := by
  intro hsame
  obtain rfl : e = .unclosedTag tag.name tag.start := Diagnostic.parse.inj hsame
  match x with
  | .text t => cases he
  | .malformed raw e =>
    cases he
    cases liesIn_parse (nodes_split hx)
  | .tag t (some j) => cases he
  | .tag t none =>
    -- the offset of a fault is that of the tag, and no two tags begin at one offset
    have hoffset : t.start = tag.start := by
      simp only [Node.fault?] at he
      split at he
      · exact (ParseError.unclosedTag.inj (Option.some.inj he)).2
      · cases he
    have hstart := (startOf_unclosed hx).1
    have hstart' := (startOf_unclosed hi).1
    rcases Nat.lt_or_gt_of_ne hk with hk | hk
    · have hlt := startOf_lt hx
      have hmono := (parse input).startOf_mono (Nat.succ_le_of_lt hk)
      rw [Nat.succ_eq_add_one] at hmono
      omega
    · have hlt := startOf_lt hi
      have hmono := (parse input).startOf_mono (Nat.succ_le_of_lt hk)
      rw [Nat.succ_eq_add_one] at hmono
      omega

end

/-- The marker of an opening tag, with the segments in front of it and those behind it. -/
theorem exists_marker {input : Text} {i : Nat} {tag : Tag}
    (hi : (parse input).nodes[i]? = some (.tag tag none)) : ∃ a b u,
      scan input = a ++ .marker (u ++ [']']) tag.start :: b ∧ a.length = i ∧ u ≠ [] ∧
        Tag.parse (u ++ [']']) tag.start = .ok tag := by
  have hnode := congrArg (·[i]?) (map_unmatched_parse input)
  simp only [List.getElem?_map, hi, Option.map_some] at hnode
  obtain ⟨m, hm, htag⟩ := Option.map_eq_some_iff.1 hnode.symm
  obtain ⟨raw, start, rfl, rfl⟩ := Node.exists_marker_of_tag? (congrArg Node.tag? htag)
  have hparse : Tag.parse raw tag.start = .ok tag := by
    simp only [Node.ofSegment] at htag
    split at htag
    · next hok =>
      cases htag
      exact hok
    · cases htag
  obtain ⟨inner, rfl⟩ := Tag.exists_inner_of_parse hparse
  obtain ⟨hlt, hget⟩ := List.getElem?_eq_some_iff.1 hm
  refine ⟨(scan input).take i, (scan input).drop (i + 1), '[' :: inner, ?_, ?_, by simp, hparse⟩
  · rw [List.cons_append, ← hget, ← List.drop_eq_getElem_cons hlt, List.take_append_drop]
  · rw [List.length_take]
    omega

/-- The nodes of the document with the slash, partners apart. -/
theorem getElem?_slashed {input u : Text} {i : Nat} {tag : Tag} {a b : List Segment}
    (hk : tag.kind = .opening) (hscan : scan input = a ++ .marker (u ++ [']']) tag.start :: b)
    (ha : a.length = i) (hparse : Tag.parse (u ++ [']']) tag.start = .ok tag) (k : Nat) :
    ((parse (slashed ((a.map Segment.raw).flatten ++ u)
      (b.map Segment.raw).flatten)).nodes.map Node.unmatched)[k]? =
      if k = i then some (.tag { tag with kind := .selfClosing, raw := slashed u [] } none)
      else if k < i then (parse input).nodes[k]?.map Node.unmatched
      else (parse input).nodes[k]?.map fun x => x.unmatched.shift 2 0 := by
  have hscan' : scan (slashed ((a.map Segment.raw).flatten ++ u) (b.map Segment.raw).flatten) =
      a ++ .marker (slashed u []) tag.start :: b.map (Segment.shift 2) :=
    scanFrom_eq_iff.2 ((scanFrom_eq_iff.1 hscan).slashed rfl)
  have hnode : ∀ j : Nat, (parse input).nodes[j]?.map Node.unmatched =
      (a ++ .marker (u ++ [']']) tag.start :: b)[j]?.map Node.ofSegment := by
    intro j
    rw [← List.getElem?_map, map_unmatched_parse, List.getElem?_map, hscan]
  have hshift : ((parse input).nodes[k]?.map fun x => x.unmatched.shift 2 0) =
      ((parse input).nodes[k]?.map Node.unmatched).map (Node.shift 2 0) := by
    rw [Option.map_map]
    rfl
  rw [map_unmatched_parse, hscan', List.getElem?_map, hshift, hnode]
  rcases Nat.lt_trichotomy k i with hlt | rfl | hgt
  · rw [if_neg (Nat.ne_of_lt hlt), if_pos hlt, List.getElem?_append_left (by omega),
      List.getElem?_append_left (by omega)]
  · have hmarker : Node.ofSegment (.marker (slashed u []) tag.start) =
        .tag { tag with kind := .selfClosing, raw := slashed u [] } none := by
      simp only [Node.ofSegment, Tag.parse_slashed hparse hk]
    rw [if_pos rfl, ← ha, List.getElem?_append_right (Nat.le_refl _), Nat.sub_self,
      List.getElem?_cons_zero, Option.map_some, hmarker]
  · obtain ⟨j, rfl⟩ := Nat.exists_eq_add_of_lt hgt
    have hindex : i + j + 1 - a.length = j + 1 := by omega
    rw [if_neg (by omega), if_neg (by omega), List.getElem?_append_right (by omega),
      List.getElem?_append_right (by omega), hindex, List.getElem?_cons_succ,
      List.getElem?_cons_succ, List.getElem?_map, Option.map_map, Option.map_map]
    exact Option.map_congr fun x _ => Node.ofSegment_shift 2 0 x

/-- The document moved by `f`, with `n` for node `i`. -/
def movedWith (d : Document) (f : Nat → Nat) (i : Nat) (n : Node) : Document :=
  ⟨(d.nodes.map (Node.mapOffset f)).set i n⟩

theorem getElem?_movedWith_self {d : Document} {f : Nat → Nat} {i : Nat} {n m : Node}
    (hi : d.nodes[i]? = some m) : (d.movedWith f i n).nodes[i]? = some n := by
  have hlt : i < d.nodes.length := (List.getElem?_eq_some_iff.1 hi).1
  simp [movedWith, hlt]

theorem getElem?_movedWith_ne {d : Document} {f : Nat → Nat} {i k : Nat} {n : Node} (hk : k ≠ i) :
    (d.movedWith f i n).nodes[k]? = d.nodes[k]?.map (Node.mapOffset f) := by
  rw [movedWith, List.getElem?_set_ne (Ne.symm hk), List.getElem?_map]

/-- With the tag standing alone in it, the moved document differs in nothing else. -/
theorem standsAlone_movedWith {input : Text} {i : Nat} {tag : Tag}
    (hi : (parse input).nodes[i]? = some (.tag tag none)) (hk : tag.kind = .opening) {gap : Nat}
    (hgap : tag.start < gap) (m : Nat) (raw : Text) :
    StandsAlone (withGap gap m) tag i (parse input) ((parse input).movedWith (withGap gap m) i
      (.tag { tag with kind := .selfClosing, raw } none)) where
  length := by simp [movedWith]
  unclosed := hi
  kind := hk
  start := withGap_of_lt hgap m
  alone := ⟨raw, getElem?_movedWith_self hi⟩
  others k hki := getElem?_movedWith_ne hki
  distinct k n e hki hn he := fault?_ne_unclosed hi hki hn he

/-- **The document with the slash** is the other one, moved, but for the tag, which stands alone. -/
theorem exists_slashed {input : Text} {i : Nat} {tag : Tag}
    (hi : (parse input).nodes[i]? = some (.tag tag none)) (hk : tag.kind = .opening) :
    ∃ x y, input = x ++ ']' :: y ∧ byteLength x + 1 = tag.stop ∧
      StandsAlone (withGap (byteLength x) 2) tag i (parse input) (parse (slashed x y)) := by
  obtain ⟨a, b, u, hscan, ha, hu, hparse⟩ := exists_marker hi
  have hslashed := getElem?_slashed hk hscan ha hparse
  have hinput : input = (a.map Segment.raw).flatten ++ u ++ ']' :: (b.map Segment.raw).flatten := by
    rw [← Segment.flatten_raw_marker, ← hscan, flatten_scan]
  have hstart : tag.start = byteLength (a.map Segment.raw).flatten := by
    rw [start_of_scanFrom hscan, Nat.zero_add]
  have hstop : byteLength ((a.map Segment.raw).flatten ++ u) + 1 = tag.stop := by
    have hbracket : ']'.utf8Size = 1 := by decide
    rw [Tag.stop, (Tag.raw_start_of_parse hparse).1, hstart]
    simp [hbracket, Nat.add_assoc]
  have hgap : tag.start < byteLength ((a.map Segment.raw).flatten ++ u) := by
    have hpos := byteLength_pos hu
    rw [hstart, byteLength_append]
    omega
  refine ⟨_, _, hinput, hstop, ?_⟩
  generalize (a.map Segment.raw).flatten ++ u = x at hslashed hstop hgap
  generalize (b.map Segment.raw).flatten = y at hslashed
  have halone := standsAlone_movedWith hi hk hgap 2 (slashed u [])
  -- the moved document has the same nodes, and so the same partners
  suffices hsame : parse (slashed x y) = (parse input).movedWith (withGap (byteLength x) 2) i
      (.tag { tag with kind := .selfClosing, raw := slashed u [] } none) by
    rw [hsame]
    exact halone
  refine eq_of_matched (matched_parse _) (halone.matched (matched_parse _)) ?_
  apply List.ext_getElem?
  intro k
  rw [hslashed, List.getElem?_map]
  rcases Nat.lt_trichotomy k i with hki | rfl | hki
  · rw [if_neg (Nat.ne_of_lt hki), if_pos hki, getElem?_movedWith_ne (Nat.ne_of_lt hki),
      Option.map_map]
    refine Option.map_congr fun n hn => ?_
    rw [Function.comp_apply, mapOffset_withGap_of_lt hi hgap 2 hn hki]
  · rw [if_pos rfl, getElem?_movedWith_self hi]
    rfl
  · rw [if_neg (Nat.ne_of_gt hki), if_neg (by omega), getElem?_movedWith_ne (Nat.ne_of_gt hki),
      Option.map_map]
    refine Option.map_congr fun n hn => ?_
    rw [Function.comp_apply, Node.unmatched_mapOffset,
      mapOffset_withGap_of_gt hi (by omega) 2 hn hki]

end Document

/-- **A tag that is never closed is called as if it stood alone.**  Let an opening tag have no
partner, and a name that the table knows, and let it stand in no pair that is kept as it is written.
With a blank and a slash in front of its closing bracket, the document is evaluated to the same
output and the same context, with the same calls, and its run ends in the same way.  It reports the
same in the same order, but for the report that the tag is never closed, which a completed run makes
of the document without the slash.  All that stands behind the slash is called and reported two bytes
further behind. -/
theorem evaluate_slashed (s : Setting) (input : Text) (context : Context) (clock : Clock) {i : Nat}
    {tag : Tag} (hi : (Document.parse input).nodes[i]? = some (.tag tag none))
    (hk : tag.kind = .opening) (hu : s.config.unclosed = .standalone)
    (hknown : s.table.contains tag.name = true)
    (hecho : ¬ (Document.parse input).Echoed s.config.maxNestingDepth i) :
    (∃ x y, input = x ++ ']' :: y ∧ byteLength x + 1 = tag.stop) ∧
    ∀ x y, input = x ++ ']' :: y → byteLength x + 1 = tag.stop →
      let r := evaluate s input context clock
      let r' := evaluate s (slashed x y) context clock
      let moved := withGap (byteLength x) 2
      r'.output = r.output ∧ r'.context = r.context ∧ r'.halt = r.halt ∧
      r'.calls = r.calls.map (Call.mapOffset moved) ∧
      r'.diagnostics = (r.diagnostics.filter (· ≠ tag.unclosed)).map (Diagnostic.mapOffset moved) ∧
      (r.halt = none → tag.unclosed ∈ r.diagnostics) := by
  have hm : (Document.parse input).Matched := Document.matched_parse input
  obtain ⟨x, y, hinput, hstop, halone⟩ := Document.exists_slashed hi hk
  refine ⟨⟨x, y, hinput, hstop⟩, fun x' y' hinput' hstop' => ?_⟩
  -- the closing bracket of the tag stands in one place only
  obtain ⟨rfl, rfl⟩ : x' = x ∧ y' = y := by
    have hcut := splitAt?_append x (']' :: y)
    have hlen : byteLength x = byteLength x' := by omega
    rw [← hinput, hinput', hlen, splitAt?_append x' (']' :: y')] at hcut
    simpa using hcut
  intro r r' moved
  have hr' : r' = r.moved moved tag := halone.evaluate_eq hm hu hknown hecho context clock
  rw [hr']
  refine ⟨rfl, rfl, rfl, rfl, rfl, fun hhalt => ?_⟩
  obtain ⟨call, ha⟩ := Document.exists_accounts hm hhalt
  refine ha.mem_diagnostics (List.getElem?_eq_some_iff.1 hi).1 (List.mem_append_left _ ?_)
  rw [Document.remarksAt_of_not_echoed hecho hi]
  simp [Node.fault?, hk, Tag.unclosed]

/-- The tag ends in a backslash, in front of it a quote does not close and behind it a pair is kept as
it is written; and more tags are never closed. -/
theorem evaluate_slashed_backslash :
    let b : Descriptor := ⟨"b".toList, .code, {}, .immediate fun args _ c =>
      (.ok (c.textOf "n".toList ['0'] ++ joinWith [','] (args.map (·.value))),
        c.increment "n".toList)⟩
    let w : Descriptor :=
      ⟨"w".toList, .code, {}, .immediate fun _ content c => (.ok ('<' :: content ++ ['>']), c)⟩
    let s : Setting := ⟨Table.empty.insertAll [b, w], { maxNestingDepth := 1 }, {}⟩
    let x := "[q a=\"é][w][b c='v' k= x\\".toList
    let y := "y[w][/w][/w][b][u][b".toList
    let tag : Tag := ⟨['b'], .opening, [.named ['c'] ['v'], .named ['k'] [],
      .positional "x\\".toList], "[b c='v' k= x\\]".toList, 12⟩
    let r' := evaluate s (slashed x y) .empty
    (Document.parse (x ++ ']' :: y)).nodes[2]? = some (.tag tag none) ∧
      tag.kind = .opening ∧ s.config.unclosed = .standalone ∧ s.table.contains tag.name = true ∧
      ¬ (Document.parse (x ++ ']' :: y)).Echoed s.config.maxNestingDepth 2 ∧
      r'.output = "[q a=\"é]<0v,,x\\y[w][/w]>1[u][b".toList ∧
      r'.calls.map (·.offset) = [12, 9, 41] ∧
      r'.diagnostics = [.parse (.unterminatedQuote 5), .parse (.nestingTooDeep ['w'] 30 1),
        .parse (.unclosedTag ['b'] 41), .parse (.unclosedTag ['u'] 44), .unresolved ['u'] 44,
        .parse (.unterminatedTag 47)] := by
  intro b w s x y tag r'
  have hi : (Document.parse (x ++ ']' :: y)).nodes[2]? = some (.tag tag none) := by decide +kernel
  have hknown : s.table.contains tag.name = true := by decide +kernel
  have hecho : ¬ (Document.parse (x ++ ']' :: y)).Echoed s.config.maxNestingDepth 2 := by
    decide +kernel
  obtain ⟨_, hslashed⟩ := evaluate_slashed s (x ++ ']' :: y) .empty {} hi rfl rfl hknown hecho
  obtain ⟨houtput, _, _, hcalls, hdiagnostics, _⟩ := hslashed x y rfl (by decide +kernel)
  refine ⟨hi, rfl, rfl, hknown, hecho, ?_, ?_, ?_⟩
  · rw [houtput]
    decide +kernel
  · rw [hcalls]
    decide +kernel
  · rw [hdiagnostics]
    decide +kernel

end Tagtext
