import Tagtext.Proofs.Matching

/-!
# Texts cut off in front of a segment

Scanning works from left to right and looks no further than a segment reaches.
So a text that is cut off in front of one of its segments scans to the segments
in front of the cut:

    scan s = a ++ b → the nodes of scan (a as written) have the faces of a's   (face_scanFrom_cut)
    a tag starts behind all that stands in front of it                         (start_of_tagAt)

The *face* of a node is how it is written and which tag it holds.  Faults are
left out because one may change: a tag that runs into an opening bracket is
unterminated once the text is cut off in front of the bracket.
-/

namespace Tagtext

/-! ## Quoted values -/

/-- What follows a quoted value has no part in it. -/
theorem skipQuoted_cut {q : Char} (hq : isQuote q = true) {s inside rest : Text}
    (h : skipQuoted q s = some (inside, rest)) :
    ∀ x, skipQuoted q (inside ++ x) = some (inside, x) := by
  have hslash : q ≠ '\\' := by
    rintro rfl
    cases hq
  fun_induction skipQuoted q s generalizing inside rest with
  | case1 => cases h
  | case2 =>
    cases h
    intro x
    cases x <;> simp [skipQuoted, hslash]
  | case3 => cases h
  | case4 c d r hesc ih =>
    obtain ⟨⟨a, b⟩, hab, he⟩ := Option.map_eq_some_iff.1 h
    cases he
    intro x
    simp [skipQuoted, hesc, ih hab]
  | case5 =>
    cases h
    intro x
    cases x <;> simp [skipQuoted, hslash]
  | case6 c d r hesc hc ih =>
    obtain ⟨⟨a, b⟩, hab, he⟩ := Option.map_eq_some_iff.1 h
    cases he
    intro x
    have happ := skipQuoted_append hab
    cases a with
    | nil => cases ih hab []
    | cons e a =>
      rw [List.cons_append, List.cons.injEq] at happ
      obtain ⟨rfl, _⟩ := happ
      have hcut := ih hab x
      rw [List.cons_append] at hcut
      simp [skipQuoted, hesc, hc, hcut]

/-- A value without closing quote has none in front of a cut either. -/
theorem skipQuoted_none_cut {q : Char} (hq : isQuote q = true) {s z : Text}
    (h : skipQuoted q (s ++ z) = none) : skipQuoted q s = none := by
  cases hs : skipQuoted q s with
  | none => rfl
  | some k =>
    obtain ⟨inside, rest⟩ := k
    rw [← skipQuoted_append hs, List.append_assoc, skipQuoted_cut hq hs] at h
    cases h

theorem splitBehind_cut {c : Char} {s y z : Text} (h : (splitBehind c s).2 = y ++ z) :
    splitBehind c ((splitBehind c s).1 ++ y) = ((splitBehind c s).1, y) := by
  induction s with
  | nil =>
    obtain ⟨rfl, rfl⟩ := List.append_eq_nil_iff.1 h.symm
    rfl
  | cons d r ih =>
    by_cases hd : d = c
    · simp only [splitBehind, hd, if_true] at h ⊢
      simp [splitBehind]
    · simp only [splitBehind, hd, if_false] at h ⊢
      simp [splitBehind, hd, ih h]

/-! ## Markers -/

section
variable {start pos : Nat} {v : Bool} {c : Char} {r : Text}

theorem cutBody_value {inside rest : Text} (hclose : c ≠ ']') (hopen : c ≠ '[')
    (hv : (v && isQuote c) = true) (h : skipQuoted c r = some (inside, rest)) :
    cutBody start v pos (c :: r) =
      (cutBody start false (pos + byteLength (c :: inside)) rest).prepend (c :: inside) := by
  rw [cutBody]
  simp only [hclose, hopen, hv, if_true, if_false]
  split
  · next h' =>
    rw [h] at h'
    cases h'
    rfl
  · next h' =>
    rw [h] at h'
    cases h'

theorem cutBody_open_value (hclose : c ≠ ']') (hopen : c ≠ '[') (hv : (v && isQuote c) = true)
    (h : skipQuoted c r = none) :
    cutBody start v pos (c :: r) = ⟨(splitBehind ']' (c :: r)).1, (splitBehind ']' (c :: r)).2,
      some (.unterminatedQuote pos)⟩ := by
  rw [cutBody]
  simp only [hclose, hopen, hv, if_true, if_false]
  split
  · next h' =>
    rw [h] at h'
    cases h'
  · rfl

theorem cutBody_other (hclose : c ≠ ']') (hopen : c ≠ '[') (hv : (v && isQuote c) ≠ true) :
    cutBody start v pos (c :: r) =
      (cutBody start (c == '=' || isAsciiBlank c) (pos + c.utf8Size) r).prepend [c] := by
  rw [cutBody]
  simp only [hclose, hopen, if_false]
  rw [if_neg hv]

end

/-- `k'` is `k` when only `y` follows what they take; a fault stays a fault. -/
structure Cut.ShortenedTo (k : Cut) (y : Text) (k' : Cut) : Prop where
  taken : k'.taken = k.taken
  rest : k'.rest = y
  fault : k'.fault.isSome = k.fault.isSome

theorem Cut.ShortenedTo.prepend {k k' : Cut} {y : Text} (h : k.ShortenedTo y k') (t : Text) :
    (k.prepend t).ShortenedTo y (k'.prepend t) :=
  ⟨by simp [h.taken], by simp [h.rest], by simp [h.fault]⟩

theorem cutBody_cut (start : Nat) (v : Bool) (pos : Nat) (s : Text) {y z : Text}
    (h : (cutBody start v pos s).rest = y ++ z) :
    (cutBody start v pos s).ShortenedTo y
      (cutBody start v pos ((cutBody start v pos s).taken ++ y)) := by
  fun_induction cutBody start v pos s with
  | case1 =>
    obtain ⟨rfl, rfl⟩ := List.append_eq_nil_iff.1 h.symm
    exact ⟨by simp [cutBody], by simp [cutBody], by simp [cutBody]⟩
  | case2 v pos r =>
    exact ⟨by simp [cutBody], by simp [cutBody], by simp [cutBody]⟩
  | case3 v pos r =>
    -- in front of the bracket the text may end
    cases y with
    | nil => exact ⟨by simp [cutBody], by simp [cutBody], by simp [cutBody]⟩
    | cons d y =>
      obtain ⟨rfl, rfl⟩ := List.cons.inj h
      exact ⟨by simp [cutBody], by simp [cutBody], by simp [cutBody]⟩
  | case4 v pos c r hclose hopen hv inside rest hs _ ih =>
    have hq : isQuote c = true := (Bool.and_eq_true_iff.1 hv).2
    have hs' := skipQuoted_cut hq hs
      ((cutBody start false (pos + byteLength (c :: inside)) rest).taken ++ y)
    rw [Cut.taken_prepend, List.append_assoc, List.cons_append, cutBody_value hclose hopen hv hs']
    exact (ih h).prepend (c :: inside)
  | case5 v pos c r hclose hopen hv hs before after hsplit =>
    have hq : isQuote c = true := (Bool.and_eq_true_iff.1 hv).2
    simp only [splitBehind, hclose, if_false] at hsplit
    cases hsplit
    have hcut := splitBehind_cut h
    have hs' : skipQuoted c ((splitBehind ']' r).1 ++ y) = none := by
      apply skipQuoted_none_cut (z := z) hq
      rw [List.append_assoc, ← h, splitBehind_append, hs]
    rw [List.cons_append, cutBody_open_value hclose hopen hv hs']
    exact ⟨by simp [splitBehind, hclose, hcut], by simp [splitBehind, hclose, hcut], rfl⟩
  | case6 v pos c r hclose hopen hv ih =>
    rw [Cut.taken_prepend, List.append_assoc, List.singleton_append, cutBody_other hclose hopen hv]
    exact (ih h).prepend [c]

theorem opensTag_append {u : Text} (h : opensTag u = true) (z : Text) :
    opensTag (u ++ z) = true := by
  unfold opensTag at h
  split at h
  · exact h
  · next c r hc =>
    have hslash : c ≠ '/' := by
      rintro rfl
      cases h
    simpa [opensTag, hslash] using h
  · cases h

/-- A run of like characters ends where it ended, however much is left behind it. -/
theorem takeWhile_cut {p : Char → Bool} {r y z : Text} (h : r.dropWhile p = y ++ z) :
    (r.takeWhile p ++ y).takeWhile p = r.takeWhile p ∧ (r.takeWhile p ++ y).dropWhile p = y := by
  have hall : ∀ a ∈ r.takeWhile p, p a = true := List.all_eq_true.1 List.all_takeWhile
  rw [List.takeWhile_append_of_pos hall, List.dropWhile_append_of_pos hall]
  cases y with
  | nil => simp
  | cons d y =>
    have hd := List.head?_dropWhile_not p r
    rw [h] at hd
    simp_all

theorem splitHead_name {c : Char} (hc : c ≠ '/') (r : Text) :
    splitHead ('[' :: c :: r) =
      ('[' :: (c :: r).takeWhile isNameChar, (c :: r).dropWhile isNameChar) := by
  simp [splitHead, hc]

/-- What a marker starts with does not depend on what comes behind its name. -/
theorem splitHead_cut {s y z : Text} (h : opensTag s = true) (hs : (splitHead s).2 = y ++ z) :
    splitHead ((splitHead s).1 ++ y) = ((splitHead s).1, y) ∧
      opensTag ((splitHead s).1 ++ y) = true := by
  unfold opensTag at h
  split at h
  · next c r =>
    have hc := isNameChar_of_isNameStart h
    obtain ⟨h1, h2⟩ := takeWhile_cut (p := isNameChar) (r := c :: r) hs
    simp only [splitHead, List.cons_append] at h1 h2 ⊢
    refine ⟨by rw [h1, h2], ?_⟩
    simp [opensTag, List.takeWhile_cons_of_pos hc, h]
  · next c r hc' =>
    have hslash : c ≠ '/' := by
      rintro rfl
      cases h
    have hc := isNameChar_of_isNameStart h
    rw [splitHead_name hslash] at hs ⊢
    obtain ⟨h1, h2⟩ := takeWhile_cut (p := isNameChar) (r := c :: r) hs
    rw [List.takeWhile_cons_of_pos hc] at h1 h2 ⊢
    simp only [List.cons_append] at h1 h2 ⊢
    refine ⟨by rw [splitHead_name hslash, h1, h2], ?_⟩
    simpa [opensTag, hslash] using h
  · cases h

theorem cutMarker_cut {start : Nat} {s y z : Text} (h : opensTag s = true)
    (hs : (cutMarker start s).rest = y ++ z) :
    (cutMarker start s).ShortenedTo y (cutMarker start ((cutMarker start s).taken ++ y)) ∧
      opensTag ((cutMarker start s).taken ++ y) = true := by
  let body := cutBody start false (start + byteLength (splitHead s).1) (splitHead s).2
  have hbody : (splitHead s).2 = (body.taken ++ y) ++ z := by
    rw [List.append_assoc, ← hs]
    exact (cutBody_append start false _ _).symm
  obtain ⟨hhead, hopens⟩ := splitHead_cut h hbody
  have hcut := (cutBody_cut start false (start + byteLength (splitHead s).1) (splitHead s).2
    hs).prepend (splitHead s).1
  have htaken : (cutMarker start s).taken ++ y = (splitHead s).1 ++ (body.taken ++ y) := by
    simp [cutMarker, body]
  rw [htaken]
  refine ⟨?_, hopens⟩
  unfold cutMarker at hcut ⊢
  rw [hhead]
  exact hcut

/-! ## Text -/

/-- Text is cut off in front of a marker or at its own end. -/
theorem splitAtTag_cut {s y z : Text} (hy : y = [] ∨ opensTag y = true)
    (h : (splitAtTag s).2 = y ++ z) :
    splitAtTag ((splitAtTag s).1 ++ y) = ((splitAtTag s).1, y) := by
  have hstart : splitAtTag y = ([], y) := by
    cases y with
    | nil => rfl
    | cons c y =>
      have hopens := hy.resolve_left (by simp)
      simp [splitAtTag, hopens]
  induction s with
  | nil => exact hstart
  | cons c r ih =>
    by_cases hc : opensTag (c :: r) = true
    · simpa [splitAtTag, hc] using hstart
    · have hs : splitAtTag (c :: r) = (c :: (splitAtTag r).1, (splitAtTag r).2) := by
        simp [splitAtTag, hc]
      rw [hs] at h ⊢
      have hc' : opensTag (c :: ((splitAtTag r).1 ++ y)) ≠ true := by
        intro hopens
        apply hc
        have := opensTag_append hopens z
        rwa [List.cons_append, List.append_assoc, ← h, splitAtTag_append] at this
      simp [splitAtTag, hc', ih h]

/-! ## Documents -/

/-- How a node is written and which tag it holds. -/
def Node.face (n : Node) : Text × Option Tag := (n.raw, n.tag?)

theorem scanFrom_marker {pos : Nat} {s : Text} (h : opensTag s = true) :
    scanFrom pos s = (cutMarker pos s).segment pos ::
      scanFrom (pos + byteLength (cutMarker pos s).taken) (cutMarker pos s).rest := by
  cases s with
  | nil => cases h
  | cons c r =>
    rw [scanFrom]
    simp [h]

theorem scanFrom_literal {pos : Nat} {s : Text} (hs : s ≠ []) (h : opensTag s = false) :
    scanFrom pos s = .literal (splitAtTag s).1 ::
      scanFrom (pos + byteLength (splitAtTag s).1) (splitAtTag s).2 := by
  cases s with
  | nil => exact absurd rfl hs
  | cons c r =>
    rw [scanFrom]
    simp [h]

theorem face_segment {y : Text} {k k' : Cut} (h : k.ShortenedTo y k') (pos : Nat) :
    (Node.ofSegment (k'.segment pos)).face = (Node.ofSegment (k.segment pos)).face := by
  have hfault := h.fault
  unfold Cut.segment
  rw [h.taken]
  cases hk : k.fault with
  | none =>
    rw [hk, Option.isSome_none, Option.isSome_eq_false_iff, Option.isNone_iff_eq_none] at hfault
    rw [hfault]
  | some e =>
    rw [hk, Option.isSome_some, Option.isSome_iff_exists] at hfault
    obtain ⟨e', he'⟩ := hfault
    rw [he']
    rfl

/-- Behind text stands a marker, or nothing. -/
theorem opensTag_splitAtTag (s : Text) :
    (splitAtTag s).2 = [] ∨ opensTag (splitAtTag s).2 = true := by
  induction s with
  | nil => exact Or.inl rfl
  | cons c r ih =>
    unfold splitAtTag
    split
    · next h => exact Or.inr h
    · exact ih

/-- What is left of the rest when the last segments are cut off. -/
theorem rest_of_scanFrom {pos : Nat} {s : Text} {a b : List Segment} (h : scanFrom pos s = a ++ b) :
    s = (a.map Segment.raw).flatten ++ (b.map Segment.raw).flatten := by
  rw [← flatten_scanFrom pos s, h, List.map_append, List.flatten_append]

/-- A text that begins with a marker is cut off behind it, or in front of it. -/
theorem opensTag_of_scanFrom {pos : Nat} {s : Text} {a b : List Segment}
    (h : scanFrom pos s = a ++ b) (hs : s = [] ∨ opensTag s = true) :
    (a.map Segment.raw).flatten = [] ∨ opensTag (a.map Segment.raw).flatten = true := by
  cases a with
  | nil => exact Or.inl rfl
  | cons x a =>
    have hopens : opensTag s = true := by
      refine hs.resolve_left ?_
      rintro rfl
      rw [scanFrom] at h
      cases h
    rw [scanFrom_marker hopens, List.cons_append, List.cons.injEq] at h
    obtain ⟨rfl, h⟩ := h
    rw [List.map_cons, List.flatten_cons, Cut.raw_segment]
    exact Or.inr (cutMarker_cut hopens (rest_of_scanFrom h)).2

/-- **A text that is cut off in front of a segment scans to what stands in front of the cut.** -/
theorem face_scanFrom_cut {pos : Nat} {s : Text} {a b : List Segment}
    (h : scanFrom pos s = a ++ b) :
    (scanFrom pos (a.map Segment.raw).flatten).map (Node.face ∘ Node.ofSegment) =
      a.map (Node.face ∘ Node.ofSegment) := by
  fun_induction scanFrom pos s generalizing a with
  | case1 pos =>
    obtain ⟨rfl, rfl⟩ := List.append_eq_nil_iff.1 h.symm
    simp [scanFrom]
  | case2 pos c r hopens =>
    rename_i k _ ih
    cases a with
    | nil => simp [scanFrom]
    | cons x a =>
      rw [List.cons_append, List.cons.injEq] at h
      obtain ⟨rfl, h⟩ := h
      obtain ⟨hcut, hopens'⟩ := cutMarker_cut hopens (rest_of_scanFrom h)
      rw [List.map_cons, List.flatten_cons, Cut.raw_segment, scanFrom_marker hopens', hcut.taken,
        hcut.rest, List.map_cons, List.map_cons, ih h]
      exact congrArg (· :: _) (face_segment hcut pos)
  | case3 pos c r htext =>
    rename_i k _ ih
    cases a with
    | nil => simp [scanFrom]
    | cons x a =>
      rw [List.cons_append, List.cons.injEq] at h
      obtain ⟨rfl, h⟩ := h
      have hrest := rest_of_scanFrom h
      have hcut := splitAtTag_cut (opensTag_of_scanFrom h (opensTag_splitAtTag (c :: r))) hrest
      have hopens' : opensTag (k.1 ++ (a.map Segment.raw).flatten) = false := by
        cases hopens : opensTag (k.1 ++ (a.map Segment.raw).flatten) with
        | false => rfl
        | true =>
          have := opensTag_append hopens (b.map Segment.raw).flatten
          rw [List.append_assoc, ← hrest, splitAtTag_append] at this
          exact absurd this htext
      have hne : k.1 ++ (a.map Segment.raw).flatten ≠ [] := by
        intro hnil
        exact splitAtTag_ne_nil (Bool.eq_false_iff.2 htext) (List.append_eq_nil_iff.1 hnil).1
      rw [List.map_cons, List.flatten_cons]
      show (scanFrom pos (k.1 ++ (a.map Segment.raw).flatten)).map _ = _
      rw [scanFrom_literal hne hopens', hcut, List.map_cons, List.map_cons, ih h]

theorem start_of_segment {pos start : Nat} {k : Cut} {raw : Text}
    (h : k.segment pos = .marker raw start) : start = pos :=
  (Cut.segment_eq_marker_iff.1 h).2.2.symm

/-- A marker starts behind all that stands in front of it. -/
theorem start_of_scanFrom {pos : Nat} {s : Text} {a b : List Segment} {raw : Text} {start : Nat}
    (h : scanFrom pos s = a ++ .marker raw start :: b) :
    start = pos + byteLength (a.map Segment.raw).flatten := by
  fun_induction scanFrom pos s generalizing a with
  | case1 pos => simp at h
  | case2 pos c r hopens =>
    rename_i k _ ih
    cases a with
    | nil => simpa using start_of_segment (List.cons.inj h).1
    | cons x a =>
      rw [List.cons_append, List.cons.injEq] at h
      obtain ⟨rfl, h⟩ := h
      simp [ih h, k, Nat.add_assoc]
  | case3 pos c r htext =>
    rename_i k _ ih
    cases a with
    | nil => cases h
    | cons x a =>
      rw [List.cons_append, List.cons.injEq] at h
      obtain ⟨rfl, h⟩ := h
      simp [ih h, Segment.raw, Nat.add_assoc]

@[simp] theorem Node.face_withPartner (p : Option Nat) (n : Node) :
    (n.withPartner p).face = n.face := by
  cases n <;> rfl

theorem map_face_matchTags (nodes : List Node) :
    (matchTags nodes).map Node.face = nodes.map Node.face := by
  simp only [matchTags]
  apply List.ext_getElem?
  intro i
  simp [List.getElem?_mapIdx, Option.map_map, Function.comp_def]

theorem Node.exists_marker_of_tag? {x : Segment} {tag : Tag} (h : (ofSegment x).tag? = some tag) :
    ∃ raw start, x = .marker raw start ∧ tag.start = start := by
  cases x with
  | literal t => cases h
  | malformed t e => cases h
  | marker raw start =>
    simp only [ofSegment] at h
    split at h
    · next hp =>
      cases h
      exact ⟨raw, start, rfl, (Tag.raw_start_of_parse hp).2⟩
    · cases h

namespace Document

theorem raw_take_parse (input : Text) (t : Nat) :
    ((parse input).nodes.take t).map Node.raw = ((scan input).take t).map Segment.raw := by
  have h : Node.raw ∘ Node.ofSegment = Segment.raw := funext Node.raw_ofSegment
  rw [List.map_take, parse, map_raw_matchTags, List.map_map, h, List.map_take]

/-- **A document that is cut off in front of a node** consists of the nodes in front of it, their
partners and faults apart. -/
theorem face_parse_cut (input : Text) (t : Nat) :
    (parse (((parse input).nodes.take t).map Node.raw).flatten).nodes.map Node.face =
      ((parse input).nodes.take t).map Node.face := by
  have h := face_scanFrom_cut (List.take_append_drop t (scan input)).symm
  rw [raw_take_parse, parse, map_face_matchTags, List.map_map, scan, h, List.map_take,
    List.map_take, parse, map_face_matchTags, List.map_map]

/-- A document is what stands in front of one of its tags, that tag, and what stands behind it. -/
theorem source_of_tagAt {input : Text} {t : Nat} {tag : Tag}
    (h : tagAt (parse input).nodes t = some tag) :
    input = (((parse input).nodes.take t).map Node.raw).flatten ++ tag.raw ++
      (((parse input).nodes.drop (t + 1)).map Node.raw).flatten := by
  obtain ⟨n, hn, hnt⟩ := Option.bind_eq_some_iff.1 h
  obtain ⟨hlt, hget⟩ := List.getElem?_eq_some_iff.1 hn
  have hraw : n.raw = tag.raw := by
    rw [Node.eq_tag_of_tag? hnt]
    rfl
  have hsource := source_parse input
  rw [source, ← List.take_append_drop t (parse input).nodes, List.drop_eq_getElem_cons hlt, hget,
    List.map_append, List.map_cons, List.flatten_append, List.flatten_cons, hraw,
    ← List.append_assoc] at hsource
  exact hsource.symm

/-- A tag starts behind all that stands in front of it. -/
theorem start_of_tagAt {input : Text} {t : Nat} {tag : Tag}
    (h : tagAt (parse input).nodes t = some tag) :
    tag.start = byteLength (((parse input).nodes.take t).map Node.raw).flatten := by
  rw [parse, tagAt_matchTags, tagAt, List.getElem?_map] at h
  obtain ⟨n, hn, htag⟩ := Option.bind_eq_some_iff.1 h
  obtain ⟨x, hx, rfl⟩ := Option.map_eq_some_iff.1 hn
  obtain ⟨raw, start, rfl, rfl⟩ := Node.exists_marker_of_tag? htag
  obtain ⟨hlt, hget⟩ := List.getElem?_eq_some_iff.1 hx
  have hsplit : scanFrom 0 input =
      (scan input).take t ++ .marker raw tag.start :: (scan input).drop (t + 1) := by
    rw [← hget, ← List.drop_eq_getElem_cons hlt, List.take_append_drop]
    rfl
  rw [raw_take_parse, start_of_scanFrom hsplit, Nat.zero_add]

end Document

end Tagtext
