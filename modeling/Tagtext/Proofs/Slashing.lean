import Tagtext.Proofs.Concat
import Tagtext.Proofs.Recognition
import Tagtext.Proofs.Spacing

/-!
# An opening tag with a slash

A blank and a slash in front of its closing bracket make an opening tag one that
stands alone.  `slashed u v` is the text `u ++ ']' :: v` with these two in front
of the bracket.  They change one marker of a document and move what is behind:

    in front   what is cut off is the same, for no quote and no bracket comes in    (Marks.slashed)
    the tag    it has the same name and arguments, and stands alone                 (Tag.parse_slashed)
    behind     all offsets are larger by two                                        (Scans.slashed)

A quoted value that does not close in front of the tag does not close then
either.  This needs a look at backslashes: one in front of the bracket takes it
literally, and in front of the blank it stands for itself.
-/

namespace Tagtext

/-- The text `u ++ ']' :: v` with a blank and a slash in front of the bracket. -/
def slashed (u v : Text) : Text := u ++ ' ' :: '/' :: ']' :: v

/-! ## Lemmas -/

theorem slashed_append (t u v : Text) : slashed (t ++ u) v = t ++ slashed u v := by
  simp [slashed]

theorem byteLength_slashed (u : Text) :
    byteLength (slashed u []) = 2 + byteLength (u ++ [']']) := by
  have hsizes : ' '.utf8Size = 1 ∧ '/'.utf8Size = 1 ∧ ']'.utf8Size = 1 := by decide
  simp only [slashed, byteLength_append, byteLength_cons, byteLength_nil, hsizes]
  omega

/-! ## Quoted values -/

theorem skipQuoted_cons_eq_none_iff {q c : Char} (hslash : c ≠ '\\') (hq : c ≠ q) (s : Text) :
    skipQuoted q (c :: s) = none ↔ skipQuoted q s = none := by
  cases s with
  | nil => simp [skipQuoted, hq]
  | cons d r => simp [skipQuoted, hslash, hq]

/-- A quoted value that does not close does not close either when a slash comes in. -/
theorem skipQuoted_slashed {q : Char} (hq : isQuote q = true) {v : Text} : ∀ {u : Text},
    skipQuoted q (u ++ ']' :: v) = none → skipQuoted q (slashed u v) = none
  | [], h => by
    have hne : ' ' ≠ q ∧ '/' ≠ q ∧ ']' ≠ q := by
      refine ⟨?_, ?_, ?_⟩ <;> rintro rfl <;> cases hq
    have hv := (skipQuoted_cons_eq_none_iff (by decide) hne.2.2 v).1 h
    show skipQuoted q (' ' :: '/' :: ']' :: v) = none
    rw [skipQuoted_cons_eq_none_iff (by decide) hne.1,
      skipQuoted_cons_eq_none_iff (by decide) hne.2.1,
      skipQuoted_cons_eq_none_iff (by decide) hne.2.2]
    exact hv
  | [c], h => by
    have hc : c ≠ q := by
      rintro rfl
      have hslash := ne_backslash_of_isEscapable (isEscapable_of_isQuote hq)
      simp [skipQuoted, hslash] at h
    have hbracket : isEscapable ']' = true := by decide
    have hblank : isEscapable ' ' = false := by decide
    by_cases hslash : c = '\\'
    · -- the bracket was taken literally, and now stands for itself
      subst hslash
      have hv : skipQuoted q v = none := by simpa [skipQuoted, hbracket] using h
      have hnil := skipQuoted_slashed hq (u := []) (v := v) <|
        (skipQuoted_cons_eq_none_iff (by decide) (by rintro rfl; cases hq) v).2 hv
      show skipQuoted q ('\\' :: ' ' :: '/' :: ']' :: v) = none
      rw [skipQuoted, if_neg (by simp [hblank]), if_neg hc]
      exact Option.map_eq_none_iff.2 hnil
    · have hv := (skipQuoted_cons_eq_none_iff hslash hc _).1 h
      exact (skipQuoted_cons_eq_none_iff hslash hc _).2 (skipQuoted_slashed hq (u := []) hv)
  | c :: d :: u, h => by
    show skipQuoted q (c :: d :: slashed u v) = none
    rw [List.cons_append, List.cons_append, skipQuoted] at h
    rw [skipQuoted]
    split at h
    · next hesc =>
      rw [if_pos hesc]
      exact Option.map_eq_none_iff.2 (skipQuoted_slashed hq (Option.map_eq_none_iff.1 h))
    · next hesc =>
      rw [if_neg hesc]
      split at h
      · cases h
      · next hc =>
        rw [if_neg hc]
        exact Option.map_eq_none_iff.2
          (skipQuoted_slashed hq (u := d :: u) (Option.map_eq_none_iff.1 h))

/-! ## Markers -/

theorem Head.congr {head body body' : Text} (h : Head body head)
    (hend : ∀ c ∈ body'.head?, isNameChar c = false) : Head body' head := by
  cases h with
  | opening hname _ => exact .opening hname hend
  | closing hname _ => exact .closing hname hend

theorem Head.not_nameChar {head body : Text} (h : Head body head) :
    ∀ c ∈ body.head?, isNameChar c = false := by
  cases h with
  | opening _ hend => exact hend
  | closing _ hend => exact hend

/-- What follows a character has no part in where the name in front of it ends. -/
theorem Head.of_cons {head p r r' : Text} {c : Char} (h : Head (p ++ c :: r) head) :
    Head (p ++ c :: r') head := by
  refine h.congr ?_
  have hend := h.not_nameChar
  cases p with
  | nil => exact hend
  | cons d p => exact hend

/-- **What is cut off in front of the slash** is the same. -/
theorem Marks.slashed_rest {start : Nat} {s u v : Text} {k : Cut} (h : Marks start s k)
    (hrest : k.rest = u ++ ']' :: v) :
    Marks start (k.taken ++ slashed u v) { k with rest := slashed u v } := by
  cases h with
  | complete hhead hp =>
    rw [List.append_assoc, List.append_assoc, List.singleton_append]
    exact .complete hhead.of_cons hp
  | bracket hhead hp =>
    -- the slash comes in behind the opening bracket that ends the marker
    cases u with
    | nil => cases hrest
    | cons c u =>
      cases hrest
      rw [List.append_assoc]
      exact .bracket hhead.of_cons hp
  | @quote head p r taken rest q hhead hp hopens hq hopen hcut =>
    rcases hcut with ⟨w, hw, hr, rfl⟩ | ⟨_, _, rfl⟩
    · have hrest' : rest = u ++ ']' :: v := hrest
      -- the bracket that ends the marker is not the quote
      obtain ⟨w, rfl⟩ : ∃ w', w = q :: w' := by
        cases w with
        | nil => exact absurd (List.cons.inj hr).1 (ne_bracket_of_isQuote hq).1
        | cons c w => exact ⟨w, by rw [(List.cons.inj hr).1]⟩
      obtain rfl : r = w ++ ']' :: rest := (List.cons.inj hr).2
      have hclosed : skipQuoted q (w ++ ']' :: u ++ ']' :: v) = none := by
        have hnone := (skipQuoted_eq_none_iff hq).2 hopen
        rwa [hrest', ← List.cons_append, ← List.append_assoc] at hnone
      have hopen' := (skipQuoted_eq_none_iff hq).1 (skipQuoted_slashed hq hclosed)
      have happ : slashed (w ++ ']' :: u) v = w ++ ']' :: slashed u v := by simp [slashed]
      rw [happ] at hopen'
      have hcut : CutBehind ']' (q :: (w ++ ']' :: slashed u v)) (q :: w ++ [']']) (slashed u v) :=
        Or.inl ⟨q :: w, hw, rfl, rfl⟩
      have hmarks : Marks start _ _ := .quote hhead.of_cons hp hopens hq hopen' hcut
      have htext : head ++ (p ++ (q :: w ++ [']'])) ++ slashed u v =
          head ++ (p ++ q :: (w ++ ']' :: slashed u v)) := by simp
      rw [htext]
      exact hmarks
    · simp at hrest
  | ended hhead hp => simp at hrest

/-- **The marker with the slash** is complete as well. -/
theorem Marks.slashed {start : Nat} {s u : Text} {k : Cut} (h : Marks start s k)
    (hfault : k.fault = none) (htaken : k.taken = u ++ [']']) :
    Marks start (slashed u k.rest) ⟨slashed u [], k.rest, none⟩ := by
  cases h with
  | @complete head p rest hhead hp =>
    rw [← List.append_assoc] at htaken
    obtain rfl : head ++ p = u := List.append_cancel_right htaken
    have hblank : Outside (p ++ [' ']) := hp.char (by decide) (by decide) nofun
    have hslash : Outside (p ++ [' '] ++ ['/']) :=
      hblank.char (by decide) (by decide) nofun
    have hhead' : Head (p ++ [' '] ++ ['/'] ++ ']' :: rest) head := by
      refine hhead.congr ?_
      have hend := hhead.not_nameChar
      cases p with
      | nil =>
        intro c hc
        cases hc
        decide
      | cons d p => exact hend
    have hmarks : Marks start _ _ := .complete hhead' hslash
    simpa [Tagtext.slashed] using hmarks
  | bracket hhead hp => cases hfault
  | quote hhead hp hopens hq hopen hcut => cases hfault
  | ended hhead hp => cases hfault

/-! ## Text -/

/-- Whether a marker opens at the start of a text is settled in front of the next bracket. -/
theorem opensTag_of_append {t : Text} {c : Char} (ht : t ≠ []) (hc : isNameStart c = false)
    (hslash : c ≠ '/') {r : Text} (h : opensTag (t ++ c :: r) = true) : opensTag t = true := by
  match t with
  | [] => exact absurd rfl ht
  | [b] =>
    rcases opensTag_iff.1 h with ⟨d, r, hr, hd⟩ | ⟨d, r, hr, hd⟩
    · cases hr
      rw [hc] at hd
      cases hd
    · cases hr
      exact absurd rfl hslash
  | [b, d] =>
    rcases opensTag_iff.1 h with ⟨e, r, hr, he⟩ | ⟨e, r, hr, he⟩
    · cases hr
      exact opensTag_iff.2 (Or.inl ⟨_, _, rfl, he⟩)
    · cases hr
      rw [hc] at he
      cases he
  | b :: d :: e :: t =>
    rcases opensTag_iff.1 h with ⟨f, r, hr, hf⟩ | ⟨f, r, hr, hf⟩
    · cases hr
      exact opensTag_iff.2 (Or.inl ⟨_, _, rfl, hf⟩)
    · cases hr
      exact opensTag_iff.2 (Or.inr ⟨_, _, rfl, hf⟩)

/-- A text in which a marker opens has one with the slash too. -/
theorem opensTag_slashed {u v : Text} (h : opensTag (u ++ ']' :: v) = true) :
    opensTag (slashed u v) = true := by
  have hu : u ≠ [] := by
    rintro rfl
    cases h
  exact opensTag_append (opensTag_of_append hu (by decide) (by decide) h) _

/-- No marker opens in literal text, whatever marker follows it. -/
theorem opensTag_text {t r r' : Text} (ht : t ≠ []) (hr' : opensTag r' = true)
    (h : opensTag (t ++ r) = false) : opensTag (t ++ r') = false := by
  obtain ⟨s, rfl⟩ : ∃ s, r' = '[' :: s := by
    rcases opensTag_iff.1 hr' with ⟨c, s, rfl, _⟩ | ⟨c, s, rfl, _⟩
    · exact ⟨_, rfl⟩
    · exact ⟨_, rfl⟩
  cases h' : opensTag (t ++ '[' :: s) with
  | false => rfl
  | true =>
    rw [opensTag_append (opensTag_of_append ht (by decide) (by decide) h')] at h
    cases h

/-! ## Segments -/

theorem Segment.flatten_raw_marker (a b : List Segment) (u : Text) (start : Nat) :
    ((a ++ .marker (u ++ [']']) start :: b).map raw).flatten =
      (a.map raw).flatten ++ u ++ ']' :: (b.map raw).flatten := by
  simp [raw]

/-- **What a text with the slash scans to**: the same in front of the tag, the tag, and the same
further behind. -/
theorem Scans.slashed {pos : Nat} {s : Text} {xs : List Segment} (h : Scans pos s xs) :
    ∀ {a b : List Segment} {u : Text} {start : Nat}, xs = a ++ .marker (u ++ [']']) start :: b →
      Scans pos (Tagtext.slashed ((a.map Segment.raw).flatten ++ u) (b.map Segment.raw).flatten)
        (a ++ .marker (Tagtext.slashed u []) start :: b.map (Segment.shift 2)) := by
  induction h with
  | nil pos =>
    intro a b u start hxs
    simp at hxs
  | @literal pos t rest xs ht htext hrest hscans ih =>
    intro a b u start hxs
    cases a with
    | nil => cases hxs
    | cons x a =>
      rw [List.cons_append, List.cons.injEq] at hxs
      obtain ⟨rfl, htail⟩ := hxs
      have hflat : rest = (a.map Segment.raw).flatten ++ u ++ ']' :: (b.map Segment.raw).flatten := by
        rw [← Segment.flatten_raw_marker a b u start, ← htail, ← scanFrom_eq_iff.2 hscans,
          flatten_scanFrom]
      have hopens : opensTag rest = true := hrest.resolve_left (by simp [hflat])
      have hopens' : opensTag (Tagtext.slashed ((a.map Segment.raw).flatten ++ u)
          (b.map Segment.raw).flatten) = true := opensTag_slashed (hflat ▸ hopens)
      rw [List.map_cons, List.flatten_cons, List.append_assoc, slashed_append]
      exact .literal ht (fun w z hwz hz => opensTag_text hz hopens' (htext w z hwz hz))
        (Or.inr hopens') (ih htail)
  | @marker pos s k xs hk hscans ih =>
    intro a b u start hxs
    have hrest : k.rest = (xs.map Segment.raw).flatten := by
      rw [← scanFrom_eq_iff.2 hscans, flatten_scanFrom]
    cases a with
    | nil =>
      obtain ⟨hsegment, rfl⟩ := List.cons.inj hxs
      have htaken : k.taken = u ++ [']'] := by
        rw [← Cut.raw_segment pos k, hsegment]
        rfl
      obtain rfl := start_of_segment hsegment
      have hfault : k.fault = none := by
        cases hf : k.fault with
        | none => rfl
        | some e =>
          rw [Cut.segment, hf] at hsegment
          cases hsegment
      -- behind the tag the same is read, two bytes further behind
      have hbehind : Scans (start + byteLength (Tagtext.slashed u [])) k.rest
          (xs.map (Segment.shift 2)) := by
        rw [byteLength_slashed, ← htaken, Nat.add_left_comm, ← scanFrom_eq_iff, scanFrom_shift,
          scanFrom_eq_iff.2 hscans]
      rw [List.map_nil, List.flatten_nil, List.nil_append, ← hrest]
      exact .marker (hk.slashed hfault htaken) hbehind
    | cons x a =>
      rw [List.cons_append, List.cons.injEq] at hxs
      obtain ⟨rfl, htail⟩ := hxs
      have hflat : k.rest =
          (a.map Segment.raw).flatten ++ u ++ ']' :: (b.map Segment.raw).flatten := by
        rw [hrest, htail, Segment.flatten_raw_marker]
      have hmarker := Scans.marker (hk.slashed_rest hflat) (ih htail)
      rw [← slashed_append, ← List.append_assoc] at hmarker
      rw [List.map_cons, List.flatten_cons, Cut.raw_segment]
      exact hmarker

/-! ## Tags -/

namespace Tag

theorem Opens.slashed {u name rest : Text} (h : Opens (u ++ [']']) name rest) :
    Opens (slashed u []) name (rest ++ [' ', '/']) := by
  have hu : u = '[' :: (name ++ rest) := by
    have hraw := h.raw_eq
    rw [← List.append_assoc, ← List.cons_append] at hraw
    exact List.append_cancel_right hraw
  refine ⟨by simp [hu, Tagtext.slashed], h.isTagName, ?_, ?_⟩
  · cases rest with
    | nil =>
      intro c hc
      cases hc
      decide
    | cons c rest => exact h.longest
  · cases rest with
    | nil => decide
    | cons c rest => exact h.separated

/-- The slash takes nothing from the arguments, and the blank in front of it ends the last one. -/
theorem ReadsTo.slashed {u name : Text} {start p : Nat} {args : Arguments}
    (h : ReadsTo (u ++ [']']) start name .opening args p []) :
    ∃ p', ReadsTo (slashed u []) start name .selfClosing args p' [] := by
  obtain ⟨rest, body, hopens, hbody, hread⟩ := h
  obtain ⟨blanks, rfl, hblanks⟩ : ∃ blanks, rest = body ++ blanks ∧
      ∀ c ∈ blanks, isBlank c = true := by
    cases hbody with
    | opening hblanks hend => exact ⟨_, rfl, hblanks⟩
  have hbody' : Body (body ++ blanks ++ [' ', '/']) (body ++ (blanks ++ [' '])) .selfClosing := by
    have hslash : Body (body ++ (blanks ++ [' ']) ++ ['/']) (body ++ (blanks ++ [' '])) .selfClosing :=
      .selfClosing (by simp)
    simpa using hslash
  -- the new blank joins those that end the tag
  have hwhite : ∀ c ∈ blanks ++ [' '], isBlank c = true := by
    rw [List.forall_mem_append, List.forall_mem_singleton]
    exact ⟨hblanks, by decide⟩
  have hlex := Arguments.lex_append_blanks (Arguments.lex_eq_ok_iff.2 ⟨p, hread⟩) (by simp) hwhite
    (start + 1 + byteLength name) []
  rw [List.append_nil, Arguments.lex.eq_def _ []] at hlex
  obtain ⟨p', hread'⟩ := Arguments.lex_eq_ok_iff.1 (hlex.trans (congrArg Except.ok args.append_nil))
  exact ⟨p', _, _, hopens.slashed, hbody', hread'⟩

/-- What is read as a tag stands in brackets. -/
theorem exists_inner_of_parse {raw : Text} {start : Nat} {tag : Tag}
    (h : parse raw start = .ok tag) : ∃ inner, raw = '[' :: (inner ++ [']']) := by
  cases parse_eq_iff.1 h with
  | @closing name inner hraw hcloser => exact ⟨'/' :: inner, hraw⟩
  | @other name kind args p hread =>
    obtain ⟨rest, body, hopens, _⟩ := hread
    exact ⟨name ++ rest, by rw [hopens.raw_eq, List.append_assoc]⟩

/-- **The tag with the slash** has the same name and arguments, and stands alone. -/
theorem parse_slashed {u : Text} {start : Nat} {tag : Tag}
    (h : parse (u ++ [']']) start = .ok tag) (hk : tag.kind = .opening) :
    parse (slashed u []) start = .ok { tag with kind := .selfClosing, raw := slashed u [] } := by
  cases parse_eq_iff.1 h with
  | closing hraw hcloser => cases hk
  | other hread =>
    obtain rfl : _ = TagKind.opening := hk
    obtain ⟨p', hread'⟩ := hread.slashed
    exact parse_eq_iff.2 (.other hread')

end Tag

end Tagtext
