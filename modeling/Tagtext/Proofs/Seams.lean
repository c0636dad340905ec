import Tagtext.Proofs.Concat
import Tagtext.Proofs.Slashing
import Tagtext.Proofs.Slicing

/-!
# Where a text may be cut

Scanning looks ahead: text goes on up to the next marker, a quote up to the one
that closes it, a faulty marker up to a bracket or the end.  None of this goes
past a complete marker.  Behind one, if everything in front of it has ended by
itself, a text is scanned as if it began there, and nowhere else:

    IsSealed (scan a) ↔ ∀ b, scan (a ++ b) = scan a ++ (scan b).map (Segment.shift |a|)
                                                                    (isSealed_iff)
    .marker raw start ∈ scan t → scan raw = [.marker raw 0]         (scan_raw)

For the first from right to left, each way in which a text can end unsealed has
something that changes its segments: more text, a closing bracket, or the quote
that was missing.
-/

namespace Tagtext

/-! ## Markers by themselves -/

/-- A complete marker needs nothing of what stands behind it. -/
theorem Marks.alone {start : Nat} {s : Text} {k : Cut} (h : Marks start s k)
    (hk : k.fault = none) (pos : Nat) : Marks pos k.taken ⟨k.taken, [], none⟩ := by
  cases h with
  | complete hhead hp => exact .complete hhead.of_cons hp
  | bracket hhead hp => cases hk
  | quote hhead hp hopens hq hopen hcut => cases hk
  | ended hhead hp => cases hk

/-- The text of a marker scans to this marker. -/
theorem scan_raw {t raw : Text} {start : Nat} (h : .marker raw start ∈ scan t) :
    scan raw = [.marker raw 0] := by
  obtain ⟨s, hopens, hfault, rfl⟩ := exists_cutMarker_of_mem h
  have hmarks : Marks 0 _ _ := ((cutMarker_eq_iff hopens).1 rfl).alone hfault 0
  exact scanFrom_eq_iff.2 (.marker hmarks (.nil _))

/-! ## Segments behind each other -/

/-- The segments from some segment on are those of the text from there on. -/
theorem Scans.drop {pos : Nat} {s : Text} {xs ys : List Segment} (h : Scans pos s (xs ++ ys)) :
    ∃ v, s = (xs.map Segment.raw).flatten ++ v ∧
      Scans (pos + byteLength (xs.map Segment.raw).flatten) v ys := by
  induction xs generalizing pos s with
  | nil => exact ⟨s, rfl, h⟩
  | cons x xs ih =>
    cases h with
    | @literal _ t rest _ ht htext hrest hxs =>
      obtain ⟨v, rfl, hv⟩ := ih hxs
      exact ⟨v, by simp [Segment.raw], by simpa [Segment.raw, Nat.add_assoc] using hv⟩
    | @marker _ _ k _ hk hxs =>
      obtain ⟨v, hrest, hv⟩ := ih hxs
      refine ⟨v, ?_, by simpa [Nat.add_assoc] using hv⟩
      rw [List.map_cons, List.flatten_cons, Cut.raw_segment, List.append_assoc, ← hrest,
        ← hk.cutMarker_eq, cutMarker_append]

/-! ## Unsealed segments -/

/-- Two quotes close what one may not: a backslash takes at most one of them literally. -/
theorem skipQuoted_close {q : Char} (hq : isQuote q = true) {s : Text}
    (h : skipQuoted q s = none) (r : Text) :
    ∃ inside rest, skipQuoted q (s ++ q :: q :: r) = some (inside, rest) ∧
      (rest = r ∨ rest = q :: r) := by
  have hesc := isEscapable_of_isQuote hq
  have hslash := ne_backslash_of_isEscapable hesc
  -- a quote behind nothing that is still to be read closes
  have hfirst : ∀ x, skipQuoted q (q :: x) = some ([q], x) := by
    intro x
    cases x <;> simp [skipQuoted, hslash]
  fun_induction skipQuoted q s with
  | case1 => exact ⟨[q], q :: r, hfirst _, Or.inr rfl⟩
  | case2 => cases h
  | case3 c hc =>
    by_cases hback : c = '\\'
    · exact ⟨[c, q, q], r, by simp [skipQuoted, hback, hesc, hfirst], Or.inl rfl⟩
    · exact ⟨[c, q], q :: r, by simp [skipQuoted, hback, hc, hslash], Or.inr rfl⟩
  | case4 c d s hesc ih =>
    obtain ⟨inside, rest, hskip, hrest⟩ := ih (Option.map_eq_none_iff.1 h)
    exact ⟨c :: d :: inside, rest, by simp [skipQuoted, hesc, hskip], hrest⟩
  | case5 => cases h
  | case6 c d s hesc hc ih =>
    obtain ⟨inside, rest, hskip, hrest⟩ := ih (Option.map_eq_none_iff.1 h)
    exact ⟨c :: inside, rest, by simpa [skipQuoted, hesc, hc] using hskip, hrest⟩

/-- A marker that the end of the text cut short can be completed. -/
theorem Marks.exists_completion {start : Nat} {s : Text} {k : Cut} {e : ParseError}
    (h : Marks start s k) (hk : k.fault = some e) (he : e.isUnterminated = true) :
    ∃ b, (cutMarker start (s ++ b)).fault = none := by
  cases h with
  | complete hhead hp => cases hk
  | bracket hhead hp => cases hk; cases he
  | @quote head p r taken rest q hhead hp hopens hq hopen hcut =>
    have hbracket := ne_bracket_of_isQuote hq
    obtain ⟨inside, rest', hskip, hrest'⟩ :=
      skipQuoted_close hq ((skipQuoted_eq_none_iff hq).2 hopen) [']']
    refine ⟨[q, q, ']'], ?_⟩
    have hhead' : Head (p ++ q :: (r ++ [q, q, ']'])) head := hhead.of_cons
    rw [List.append_assoc, List.append_assoc, List.cons_append, cutMarker_of_outside hhead' hp,
      cutBody_value hbracket.1 hbracket.2 (by simp [hopens, hq]) hskip, Cut.fault_prepend,
      Cut.fault_prepend]
    rcases hrest' with rfl | rfl
    · simp [cutBody]
    · rw [cutBody_other hbracket.1 hbracket.2 (by simp)]
      simp [cutBody]
  | @ended head p hhead hp =>
    refine ⟨[']'], ?_⟩
    have hhead' : Head (p ++ [']']) head := by
      refine hhead.congr ?_
      cases p with
      | nil => simp; decide
      | cons c p => exact hhead.not_nameChar
    rw [List.append_assoc, cutMarker_of_outside hhead' hp]
    simp [cutBody]

/-- What a scan says about a marker that the end of the text cut short. -/
theorem Scans.of_isUnterminated {pos : Nat} {s : Text} {x : Segment} {xs : List Segment}
    (h : Scans pos s (x :: xs)) (hcut : x.isUnterminated = true) :
    ∃ k e, Marks pos s k ∧ k.fault = some e ∧ e.isUnterminated = true := by
  cases h with
  | literal ht htext hrest hxs => cases hcut
  | @marker _ _ k _ hk hxs =>
    generalize hx : k.segment pos = x at hcut
    cases x with
    | literal t => cases hcut
    | marker raw start => cases hcut
    | malformed raw e => exact ⟨k, e, hk, (Cut.segment_eq_malformed_iff.1 hx).1, hcut⟩

/-- A faulty marker with nothing behind it was cut short by the end of the text. -/
theorem Marks.isUnterminated {start : Nat} {s : Text} {k : Cut} {e : ParseError}
    (h : Marks start s k) (hk : k.fault = some e) (hrest : k.rest = []) :
    e.isUnterminated = true := by
  cases h with
  | complete hhead hp => cases hk
  | bracket hhead hp => cases hrest
  | quote hhead hp hopens hq hopen hcut => cases hk; rfl
  | ended hhead hp => cases hk; rfl

/-- A segment that the end of the text cut short does not stay as it is in front of every text. -/
theorem exists_ne_of_isUnterminated {a : Text} {x : Segment} (hx : x ∈ scan a)
    (hcut : x.isUnterminated = true) :
    ∃ b, scan (a ++ b) ≠ scan a ++ (scan b).map (Segment.shift (byteLength a)) := by
  obtain ⟨xs, ys, hscan⟩ := List.append_of_mem hx
  obtain ⟨v, ha, hv⟩ := (scanFrom_eq_iff.1 hscan).drop
  obtain ⟨k, e, hk, hfault, he⟩ := hv.of_isUnterminated hcut
  obtain ⟨b, hb⟩ := hk.exists_completion hfault he
  refine ⟨b, fun hlike => ?_⟩
  rw [hscan, List.append_assoc, List.cons_append] at hlike
  obtain ⟨v', ha', hv'⟩ := (scanFrom_eq_iff.1 hlike).drop
  obtain rfl : v ++ b = v' := List.append_cancel_left (by rw [← ha', ← List.append_assoc, ← ha])
  obtain ⟨k', e', hk', hfault', _⟩ := hv'.of_isUnterminated hcut
  rw [← hk'.cutMarker_eq, hb] at hfault'
  cases hfault'

/-- Text at the end does not stay as it is in front of more text. -/
theorem scan_literal_concat {a t : Text} {xs : List Segment} (h : scan a = xs ++ [.literal t]) :
    scan (a ++ [' ']) ≠ scan a ++ (scan [' ']).map (Segment.shift (byteLength a)) := by
  intro hlike
  have hblank : scan [' '] = [.literal [' ']] := by simp [scan, scanFrom, splitAtTag, opensTag]
  rw [h, hblank, List.append_assoc] at hlike
  have hchain := isChain_scanFrom 0 (a ++ [' '])
  rw [show scanFrom 0 (a ++ [' ']) = _ from hlike] at hchain
  exact (List.isChain_cons_cons.1 hchain.right_of_append).1 ⟨rfl, rfl⟩

/-- A faulty marker at the end was cut short by it. -/
theorem isUnterminated_of_scan_concat {a raw : Text} {e : ParseError} {xs : List Segment}
    (h : scan a = xs ++ [.malformed raw e]) : e.isUnterminated = true := by
  obtain ⟨v, _, hv⟩ := (scanFrom_eq_iff.1 h).drop
  generalize hys : [Segment.malformed raw e] = ys at hv
  cases hv with
  | nil => cases hys
  | literal ht htext hrest hxs => cases hys
  | @marker _ _ k _ hk hxs =>
    obtain ⟨hx, rfl⟩ := List.cons.inj hys
    have hrest : k.rest = [] := by
      rw [← flatten_scanFrom _ k.rest, scanFrom_eq_iff.2 hxs]
      rfl
    exact hk.isUnterminated (Cut.segment_eq_malformed_iff.1 hx.symm).1 hrest

/-- **A text is sealed just if no text behind it changes its segments.** -/
theorem isSealed_iff (a : Text) : IsSealed (scan a) ↔
    ∀ b, scan (a ++ b) = scan a ++ (scan b).map (Segment.shift (byteLength a)) := by
  refine ⟨scan_append, fun h => ?_⟩
  have hterminated : ∀ x ∈ scan a, x.isUnterminated = false := by
    intro x hx
    rw [Bool.eq_false_iff]
    intro hcut
    obtain ⟨b, hb⟩ := exists_ne_of_isUnterminated hx hcut
    exact hb (h b)
  refine ⟨fun x hx => ?_, hterminated⟩
  obtain ⟨xs, hscan⟩ := List.getLast?_eq_some_iff.1 (Option.mem_def.1 hx)
  cases x with
  | marker raw start => rfl
  | literal t => exact absurd (h [' ']) (scan_literal_concat hscan)
  | malformed raw e =>
    have hmem : .malformed raw e ∈ scan a := by simp [hscan]
    have he : e.isUnterminated = false := hterminated _ hmem
    rw [isUnterminated_of_scan_concat hscan] at he
    cases he

/-- **Scanning is local where markers end.**  If the last segment of a text is a marker, or there is
none, and the end of the text cut no segment short, then what stands behind the text is scanned as a
text of its own, with all offsets larger by the length of the text in front; if not, some text behind
it is not.  The text of every marker, taken by itself or put in front of any text, scans to this one
marker, which covers it. -/
theorem scan_local :
    (∀ a b : Text, IsSealed (scan a) →
      scan (a ++ b) = scan a ++ (scan b).map (Segment.shift (byteLength a))) ∧
    (∀ a : Text, ¬ IsSealed (scan a) →
      ∃ b, scan (a ++ b) ≠ scan a ++ (scan b).map (Segment.shift (byteLength a))) ∧
    ∀ (t raw : Text) (start : Nat), .marker raw start ∈ scan t → scan raw = [.marker raw 0] ∧
      ∀ b, scan (raw ++ b) = .marker raw 0 :: (scan b).map (Segment.shift (byteLength raw)) := by
  refine ⟨fun a b h => scan_append h b, fun a h => ?_, fun t raw start h => ⟨scan_raw h, ?_⟩⟩
  · rw [isSealed_iff] at h
    exact not_forall.1 h
  · intro b
    have hsealed : IsSealed (scan raw) := by
      rw [scan_raw h]
      exact ⟨fun x hx => by cases hx; rfl, fun x hx => by rw [List.mem_singleton.1 hx]; rfl⟩
    rw [scan_append hsealed, scan_raw h]
    rfl

/-- A faulty marker and a marker with a bracket in quotes, in front of a quote that never closes. -/
theorem scan_local_behind_fault :
    let a : Text := "[b x[a k=']']".toList
    let b : Text := "é[c k='".toList
    let raw : Text := "[a k=']']".toList
    IsSealed (scan a) ∧ ¬ IsSealed (scan b) ∧ .marker raw 4 ∈ scan a ∧
      scan (a ++ b) = scan a ++ (scan b).map (Segment.shift (byteLength a)) ∧
      (∃ c, scan (b ++ c) ≠ scan b ++ (scan c).map (Segment.shift (byteLength b))) ∧
      scan raw = [.marker raw 0] := by
  intro a b raw
  have ha : IsSealed (scan a) := by decide +kernel
  have hb : ¬ IsSealed (scan b) := by decide +kernel
  have hraw : .marker raw 4 ∈ scan a := by decide +kernel
  exact ⟨ha, hb, hraw, scan_local.1 a b ha, scan_local.2.1 b hb, (scan_local.2.2 a raw 4 hraw).1⟩

end Tagtext
