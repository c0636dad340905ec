import Tagtext.Proofs.Skim

/-!
# What scanning recognizes

The segments of a text, said of the text alone.  Behind the name of a marker,
`Outside p` holds of what is passed over while no quoted value is open: no
bracket stands in it outside quotes, and a quote opens a value only directly
behind an equals sign or an ASCII blank.  What comes next ends the marker:

    ]                     the marker is complete
    [                     it ends in front of the bracket, which is unexpected
    a quote that opens    it ends behind the next ] or at the end of the text,
    and never closes      and the quote is unterminated
    the end of the text   it is unterminated

`Marks` has one constructor for each of these, `Scans` joins markers and the text
between them:

    opensTag s = true → (cutMarker start s = k ↔ Marks start s k)   (cutMarker_eq_iff)
    scanFrom pos s = xs ↔ Scans pos s xs                            (scanFrom_eq_iff)
-/

namespace Tagtext

/-! ## Grammar -/

/-- Whether a quote directly behind this text opens a value. -/
def opensValue (p : Text) : Bool := p.getLast?.any fun c => c == '=' || isAsciiBlank c

/-- A stretch behind the name of a marker that ends outside quotes and has no bracket outside
quotes. -/
inductive Outside : Text → Prop
  | nil : Outside []
  | char {p : Text} {c : Char} (hp : Outside p) (hclose : c ≠ ']') (hopen : c ≠ '[')
      (hquote : isQuote c = true → opensValue p = false) : Outside (p ++ [c])
  | value {p v : Text} {q : Char} (hp : Outside p) (hopens : opensValue p = true)
      (hq : isQuote q = true) (hv : Unbroken q v) : Outside (p ++ q :: (v ++ [q]))

/-- What a marker starts with in front of `body`: the bracket, the slash of a closing tag, and a name
that ends there. -/
inductive Head (body : Text) : Text → Prop
  | opening {name : Text} (hname : isTagName name = true)
      (hend : ∀ c ∈ body.head?, isNameChar c = false) : Head body ('[' :: name)
  | closing {name : Text} (hname : isTagName name = true)
      (hend : ∀ c ∈ body.head?, isNameChar c = false) : Head body ('[' :: '/' :: name)

/-- `s` is cut behind its first `c`, or at its end if it has none. -/
def CutBehind (c : Char) (s taken rest : Text) : Prop :=
  (∃ u, c ∉ u ∧ s = u ++ c :: rest ∧ taken = u ++ [c]) ∨ (c ∉ s ∧ taken = s ∧ rest = [])

/-- What is cut off where a marker opens at the offset `start`. -/
inductive Marks (start : Nat) : Text → Cut → Prop
  | complete {head p rest : Text} (hhead : Head (p ++ ']' :: rest) head) (hp : Outside p) :
      Marks start (head ++ (p ++ ']' :: rest)) ⟨head ++ (p ++ [']']), rest, none⟩
  | bracket {head p rest : Text} (hhead : Head (p ++ '[' :: rest) head) (hp : Outside p) :
      Marks start (head ++ (p ++ '[' :: rest)) ⟨head ++ p, '[' :: rest,
        some (.unexpectedBracket (start + byteLength (head ++ p)))⟩
  | quote {head p r taken rest : Text} {q : Char} (hhead : Head (p ++ q :: r) head)
      (hp : Outside p) (hopens : opensValue p = true) (hq : isQuote q = true)
      (hopen : ∀ v z, Unbroken q v → r ≠ v ++ q :: z) (hcut : CutBehind ']' (q :: r) taken rest) :
      Marks start (head ++ (p ++ q :: r)) ⟨head ++ (p ++ taken), rest,
        some (.unterminatedQuote (start + byteLength (head ++ p)))⟩
  | ended {head p : Text} (hhead : Head p head) (hp : Outside p) :
      Marks start (head ++ p) ⟨head ++ p, [], some (.unterminatedTag start)⟩

/-- The segments of a text at the offset `pos`: text up to the next marker, and markers. -/
inductive Scans : Nat → Text → List Segment → Prop
  | nil (pos : Nat) : Scans pos [] []
  | literal {pos : Nat} {t rest : Text} {xs : List Segment} (ht : t ≠ [])
      (htext : ∀ u v, t = u ++ v → v ≠ [] → opensTag (v ++ rest) = false)
      (hrest : rest = [] ∨ opensTag rest = true) (hxs : Scans (pos + byteLength t) rest xs) :
      Scans pos (t ++ rest) (.literal t :: xs)
  | marker {pos : Nat} {s : Text} {k : Cut} {xs : List Segment} (hk : Marks pos s k)
      (hxs : Scans (pos + byteLength k.taken) k.rest xs) : Scans pos s (k.segment pos :: xs)

/-! ## Outside quotes -/

theorem opensValue_concat (p : Text) (c : Char) :
    opensValue (p ++ [c]) = (c == '=' || isAsciiBlank c) := by
  simp [opensValue]

/-- No value opens directly behind a closing quote. -/
theorem opensValue_value {q : Char} (hq : isQuote q = true) (p v : Text) :
    opensValue (p ++ q :: (v ++ [q])) = false := by
  have happ : p ++ q :: (v ++ [q]) = (p ++ q :: v) ++ [q] := by simp
  rw [happ, opensValue_concat]
  simp only [isQuote, Bool.or_eq_true, beq_iff_eq] at hq
  rcases hq with rfl | rfl <;> decide

/-- A cut passes over what stands outside quotes. -/
theorem cutBody_of_outside {p : Text} (hp : Outside p) (start pos : Nat) : ∀ t,
    cutBody start false pos (p ++ t) =
      (cutBody start (opensValue p) (pos + byteLength p) t).prepend p := by
  induction hp with
  | nil => exact fun t => rfl
  | @char p c hp hclose hopen hquote ih =>
    intro t
    have hv : (opensValue p && isQuote c) ≠ true := by
      intro h
      rw [Bool.and_eq_true] at h
      rw [hquote h.2] at h
      exact absurd h.1 (by decide)
    rw [List.append_assoc, List.singleton_append, ih, cutBody_other hclose hopen hv,
      opensValue_concat]
    simp [Cut.prepend, Nat.add_assoc]
  | @value p v q hp hopens hq hv ih =>
    intro t
    have hskip : skipQuoted q (v ++ q :: t) = some (v ++ [q], t) := hv.skipQuoted hq t
    have hbracket := ne_bracket_of_isQuote hq
    have happ : p ++ q :: (v ++ [q]) ++ t = p ++ q :: (v ++ q :: t) := by simp
    rw [happ, ih, cutBody_value hbracket.1 hbracket.2 (by simp [hopens, hq]) hskip,
      opensValue_value hq]
    simp [Cut.prepend, Nat.add_assoc]

/-- What stands outside quotes goes on up to a bracket, a quote that opens a value and never closes,
or the end of the text. -/
theorem exists_outside {p : Text} (hp : Outside p) (t : Text) : ∃ u rest, t = u ++ rest ∧
    Outside (p ++ u) ∧ (rest = [] ∨ (∃ r, rest = ']' :: r) ∨ (∃ r, rest = '[' :: r) ∨
      ∃ q r, rest = q :: r ∧ isQuote q = true ∧ opensValue (p ++ u) = true ∧
        skipQuoted q r = none) := by
  induction hn : t.length using Nat.strongRecOn generalizing p t with
  | ind n ih =>
    cases t with
    | nil => exact ⟨[], [], rfl, by simpa using hp, Or.inl rfl⟩
    | cons c r =>
      subst hn
      by_cases hclose : c = ']'
      · exact ⟨[], c :: r, rfl, by simpa using hp, Or.inr (Or.inl ⟨r, by rw [hclose]⟩)⟩
      by_cases hopen : c = '['
      · exact ⟨[], c :: r, rfl, by simpa using hp, Or.inr (Or.inr (Or.inl ⟨r, by rw [hopen]⟩))⟩
      by_cases hv : isQuote c = true ∧ opensValue p = true
      · cases hs : skipQuoted c r with
        | none =>
          exact ⟨[], c :: r, rfl, by simpa using hp,
            Or.inr (Or.inr (Or.inr ⟨c, r, rfl, hv.1, by simpa using hv.2, hs⟩))⟩
        | some k =>
          -- the value closes, and what is outside goes on behind it
          obtain ⟨inside, behind⟩ := k
          obtain ⟨v, hunbroken, _, rfl⟩ := (skipQuoted_eq_some_iff hv.1).1 hs
          have hlen : behind.length < (c :: (v ++ c :: behind)).length := by
            simp only [List.length_cons, List.length_append]
            omega
          obtain ⟨u, rest, hrest, hu, hstop⟩ :=
            ih behind.length hlen (hp.value hv.2 hv.1 hunbroken) behind rfl
          refine ⟨c :: (v ++ [c]) ++ u, rest, ?_, ?_, ?_⟩
          · rw [hrest]
            simp
          · simpa using hu
          · simpa using hstop
      · have hchar : Outside (p ++ [c]) :=
          hp.char hclose hopen fun hq => by simpa [hq] using hv
        obtain ⟨u, rest, hrest, hu, hstop⟩ := ih r.length (Nat.lt_succ_self _) hchar r rfl
        refine ⟨c :: u, rest, by rw [hrest]; rfl, by simpa using hu, by simpa using hstop⟩

/-! ## Markers -/

theorem opensTag_iff {s : Text} : opensTag s = true ↔
    (∃ c r, s = '[' :: c :: r ∧ isNameStart c = true) ∨
      ∃ c r, s = '[' :: '/' :: c :: r ∧ isNameStart c = true := by
  constructor
  · intro h
    unfold opensTag at h
    split at h
    · next c r => exact Or.inr ⟨c, r, rfl, h⟩
    · next c r _ => exact Or.inl ⟨c, r, rfl, h⟩
    · cases h
  · rintro (⟨c, r, rfl, h⟩ | ⟨c, r, rfl, h⟩)
    · have hslash : c ≠ '/' := by
        rintro rfl
        cases h
      simpa [opensTag, hslash] using h
    · exact h

/-- A name is taken off as far as it goes. -/
theorem exists_name {c : Char} (hc : isNameStart c = true) (r : Text) : ∃ name body,
    c :: r = name ++ body ∧ isTagName name = true ∧ ∀ d ∈ body.head?, isNameChar d = false := by
  refine ⟨(c :: r).takeWhile isNameChar, (c :: r).dropWhile isNameChar,
    List.takeWhile_append_dropWhile.symm, ?_, fun d hd => ?_⟩
  · rw [List.takeWhile_cons_of_pos (isNameChar_of_isNameStart hc), isTagName_cons_iff]
    exact ⟨hc, fun d hd => List.all_eq_true.1 List.all_takeWhile d hd⟩
  · have h := List.head?_dropWhile_not isNameChar (c :: r)
    rw [Option.mem_def.1 hd] at h
    simpa using h

theorem exists_head {s : Text} (h : opensTag s = true) : ∃ head body, s = head ++ body ∧
    Head body head := by
  rcases opensTag_iff.1 h with ⟨c, r, rfl, hc⟩ | ⟨c, r, rfl, hc⟩
  · obtain ⟨name, body, happ, hname, hend⟩ := exists_name hc r
    exact ⟨'[' :: name, body, by rw [happ]; rfl, .opening hname hend⟩
  · obtain ⟨name, body, happ, hname, hend⟩ := exists_name hc r
    exact ⟨'[' :: '/' :: name, body, by rw [happ]; rfl, .closing hname hend⟩

theorem Head.opensTag {head body : Text} (h : Head body head) : opensTag (head ++ body) = true := by
  refine opensTag_iff.2 ?_
  cases h with
  | @opening name hname hend =>
    cases name with
    | nil => cases hname
    | cons c name => exact Or.inl ⟨c, name ++ body, rfl, (isTagName_cons_iff.1 hname).1⟩
  | @closing name hname hend =>
    cases name with
    | nil => cases hname
    | cons c name => exact Or.inr ⟨c, name ++ body, rfl, (isTagName_cons_iff.1 hname).1⟩

theorem Head.splitHead {head body : Text} (h : Head body head) :
    splitHead (head ++ body) = (head, body) := by
  cases h with
  | @opening name hname hend =>
    obtain ⟨htake, hdrop⟩ := takeWhile_append_of_stop (isNameChar_of_mem hname) hend
    cases name with
    | nil => cases hname
    | cons c name =>
      have hslash : c ≠ '/' := by
        rintro rfl
        cases (isTagName_cons_iff.1 hname).1
      rw [List.cons_append] at htake hdrop
      rw [List.cons_append, List.cons_append, splitHead_name hslash, htake, hdrop]
  | @closing name hname hend =>
    obtain ⟨htake, hdrop⟩ := takeWhile_append_of_stop (isNameChar_of_mem hname) hend
    simp [Tagtext.splitHead, htake, hdrop]

theorem splitBehind_of_cutBehind {c : Char} {s taken rest : Text} (h : CutBehind c s taken rest) :
    splitBehind c s = (taken, rest) := by
  rcases h with ⟨u, hu, rfl, rfl⟩ | ⟨hs, rfl, rfl⟩
  · induction u with
    | nil => simp [splitBehind]
    | cons d u ih =>
      have hd : d ≠ c := fun he => hu (by simp [he])
      simp [splitBehind, hd, ih fun hmem => hu (List.mem_cons_of_mem _ hmem)]
  · induction taken with
    | nil => rfl
    | cons d u ih =>
      have hd : d ≠ c := fun he => hs (by simp [he])
      simp [splitBehind, hd, ih fun hmem => hs (List.mem_cons_of_mem _ hmem)]

theorem exists_cutBehind (c : Char) (s : Text) : ∃ taken rest, CutBehind c s taken rest := by
  by_cases hs : c ∈ s
  · obtain ⟨u, rest, rfl, hu⟩ := List.eq_append_cons_of_mem hs
    exact ⟨u ++ [c], rest, Or.inl ⟨u, hu, rfl, rfl⟩⟩
  · exact ⟨s, [], Or.inr ⟨hs, rfl, rfl⟩⟩

/-- What is cut off behind a head and a stretch outside quotes. -/
theorem cutMarker_of_outside {head p t : Text} (hhead : Head (p ++ t) head) (hp : Outside p)
    (start : Nat) : cutMarker start (head ++ (p ++ t)) =
      (cutBody start (opensValue p) (start + byteLength (head ++ p)) t).prepend (head ++ p) := by
  simp only [cutMarker, hhead.splitHead, cutBody_of_outside hp]
  simp [Cut.prepend, Nat.add_assoc]

theorem Marks.opensTag {start : Nat} {s : Text} {k : Cut} (h : Marks start s k) :
    opensTag s = true := by
  cases h with
  | complete hhead hp => exact hhead.opensTag
  | bracket hhead hp => exact hhead.opensTag
  | quote hhead hp hopens hq hopen hcut => exact hhead.opensTag
  | ended hhead hp => exact hhead.opensTag

/-- What the grammar says is cut off. -/
theorem Marks.cutMarker_eq {start : Nat} {s : Text} {k : Cut} (h : Marks start s k) :
    cutMarker start s = k := by
  cases h with
  | complete hhead hp =>
    rw [cutMarker_of_outside hhead hp, cutBody]
    simp [Cut.prepend]
  | bracket hhead hp =>
    rw [cutMarker_of_outside hhead hp, cutBody]
    simp [Cut.prepend]
  | quote hhead hp hopens hq hopen hcut =>
    have hbracket := ne_bracket_of_isQuote hq
    rw [cutMarker_of_outside hhead hp, cutBody_open_value hbracket.1 hbracket.2
      (by simp [hopens, hq]) ((skipQuoted_eq_none_iff hq).2 hopen), splitBehind_of_cutBehind hcut]
    simp [Cut.prepend]
  | @ended head p hhead hp =>
    have hhead' : Head (p ++ []) head := by rwa [List.append_nil]
    have hcut := cutMarker_of_outside hhead' hp start
    rw [List.append_nil] at hcut
    rw [hcut, cutBody]
    simp [Cut.prepend]

/-- Something is cut off wherever a marker opens. -/
theorem exists_marks (start : Nat) {s : Text} (h : opensTag s = true) : ∃ k, Marks start s k := by
  obtain ⟨head, body, rfl, hhead⟩ := exists_head h
  obtain ⟨p, rest, rfl, hp, hstop⟩ := exists_outside .nil body
  rw [List.nil_append] at hp hstop
  rcases hstop with rfl | ⟨r, rfl⟩ | ⟨r, rfl⟩ | ⟨q, r, rfl, hq, hopens, hs⟩
  · rw [List.append_nil] at hhead ⊢
    exact ⟨_, .ended hhead hp⟩
  · exact ⟨_, .complete hhead hp⟩
  · exact ⟨_, .bracket hhead hp⟩
  · obtain ⟨taken, rest, hcut⟩ := exists_cutBehind ']' (q :: r)
    exact ⟨_, .quote hhead hp hopens hq ((skipQuoted_eq_none_iff hq).1 hs) hcut⟩

/-- **A marker is cut off just as the grammar says.** -/
theorem cutMarker_eq_iff {start : Nat} {s : Text} {k : Cut} (h : opensTag s = true) :
    cutMarker start s = k ↔ Marks start s k := by
  constructor
  · rintro rfl
    obtain ⟨k, hk⟩ := exists_marks start h
    rwa [hk.cutMarker_eq]
  · exact Marks.cutMarker_eq

/-! ## Segments -/

/-- Text in which no marker opens is split off up to the one behind it. -/
theorem splitAtTag_of_text {t rest : Text}
    (htext : ∀ u v, t = u ++ v → v ≠ [] → opensTag (v ++ rest) = false)
    (hrest : rest = [] ∨ opensTag rest = true) : splitAtTag (t ++ rest) = (t, rest) := by
  induction t with
  | nil =>
    cases rest with
    | nil => rfl
    | cons c r => simp [splitAtTag, hrest.resolve_left (by simp)]
  | cons c t ih =>
    have hc : opensTag (c :: (t ++ rest)) = false := htext [] (c :: t) rfl (by simp)
    have ht := ih fun u v huv => htext (c :: u) v (by rw [huv]; rfl)
    simp [splitAtTag, hc, ht]

theorem opensTag_of_splitAtTag {s u v : Text} (h : (splitAtTag s).1 = u ++ v) (hv : v ≠ []) :
    opensTag (v ++ (splitAtTag s).2) = false := by
  induction s generalizing u with
  | nil =>
    have hnil := (List.append_eq_nil_iff.1 h.symm).2
    exact absurd hnil hv
  | cons c r ih =>
    by_cases hc : opensTag (c :: r) = true
    · have hnil : splitAtTag (c :: r) = ([], c :: r) := by simp [splitAtTag, hc]
      rw [hnil] at h
      exact absurd (List.append_eq_nil_iff.1 h.symm).2 hv
    · have hs : splitAtTag (c :: r) = (c :: (splitAtTag r).1, (splitAtTag r).2) := by
        simp [splitAtTag, hc]
      rw [hs] at h ⊢
      cases u with
      | nil =>
        rw [← (List.nil_append v ▸ h : c :: (splitAtTag r).1 = v), List.cons_append,
          splitAtTag_append]
        simpa using hc
      | cons d u => exact ih (List.cons.inj h).2

/-- **A text scans to the segments that the grammar gives it.** -/
theorem scanFrom_eq_iff {pos : Nat} {s : Text} {xs : List Segment} :
    scanFrom pos s = xs ↔ Scans pos s xs := by
  constructor
  · rintro rfl
    fun_induction scanFrom pos s with
    | case1 pos => exact .nil pos
    | case2 pos c r hopens k _ ih => exact .marker ((cutMarker_eq_iff hopens).1 rfl) ih
    | case3 pos c r hopens k _ ih =>
      have hlit : Scans pos (k.1 ++ k.2) (.literal k.1 :: scanFrom (pos + byteLength k.1) k.2) :=
        .literal (splitAtTag_ne_nil (by simpa using hopens))
          (fun u v huv hv => opensTag_of_splitAtTag huv hv) (opensTag_splitAtTag _) ih
      rwa [splitAtTag_append] at hlit
  · intro h
    induction h with
    | nil pos => simp [scanFrom]
    | @literal pos t rest xs ht htext hrest hxs ih =>
      have hsplit := splitAtTag_of_text htext hrest
      have hopens : opensTag (t ++ rest) = false := htext [] t rfl ht
      rw [scanFrom_literal (by simp [ht]) hopens, hsplit, ih]
    | @marker pos s k xs hk hxs ih => rw [scanFrom_marker hk.opensTag, hk.cutMarker_eq, ih]

/-- In front of a marker that opens text ends. -/
theorem Scans.opensTag_literal {pos : Nat} {s : Text} {xs : List Segment} (h : Scans pos s xs) :
    ∀ {a b : List Segment} {t u v : Text}, xs = a ++ .literal t :: b → t = u ++ v → v ≠ [] →
      opensTag (v ++ (b.map Segment.raw).flatten) = false := by
  induction h with
  | nil pos =>
    intro a b t u v hxs
    simp at hxs
  | @literal pos t rest xs ht htext hrest hscans ih =>
    intro a b t' u v hxs huv hv
    cases a with
    | nil =>
      cases hxs
      rw [← scanFrom_eq_iff.2 hscans, flatten_scanFrom]
      exact htext u v huv hv
    | cons x a => exact ih (List.cons.inj hxs).2 huv hv
  | @marker pos s k xs hk hscans ih =>
    intro a b t u v hxs huv hv
    cases a with
    | nil => exact absurd (List.cons.inj hxs).1 (k.segment_ne_literal pos t)
    | cons x a => exact ih (List.cons.inj hxs).2 huv hv

/-- **Scanning recognizes just its grammar.**  No marker opens in literal text, not with what stands
behind it either; wherever a marker opens in the text, what is cut off there is what the grammar
says; and the segments are the text between markers and the markers, one after the other. -/
theorem scan_grammar (s : Text) :
    (∀ a b t u v, scan s = a ++ .literal t :: b → t = u ++ v → v ≠ [] →
      opensTag (v ++ (b.map Segment.raw).flatten) = false) ∧
    (∀ u v, s = u ++ v → opensTag v = true →
      ∀ k, cutMarker (byteLength u) v = k ↔ Marks (byteLength u) v k) ∧
    ∀ xs, scan s = xs ↔ Scans 0 s xs := by
  refine ⟨fun a b t u v hscan huv hv => ?_, fun u v _ hopens k => cutMarker_eq_iff hopens,
    fun xs => scanFrom_eq_iff⟩
  have hscans : Scans 0 s (scan s) := scanFrom_eq_iff.1 rfl
  exact hscans.opensTag_literal hscan huv hv

end Tagtext
