import Tagtext.Document
import Tagtext.Proofs.Cut
import Tagtext.Proofs.Quoting

/-!
# The inside of a marker

`skim` goes over a text the way a marker is cut, as long as no bracket stands
outside quotes and every quoted value is closed, and notes the quoted values.
A marker ends at the first closing bracket outside quotes:

    skim v pos s = some (quotes, w) →
      cutBody start v pos (s ++ t) = (cutBody start w (pos + byteLength s) t).prepend s
                                                                    (cutBody_of_skim)
    a cut without fault takes a text that can be skimmed and a closing bracket
                                                                    (exists_skim_of_cutBody)

Text without blanks in which no quote stands behind an equals sign holds no
quoted value (`skim_plain`).
-/

namespace Tagtext

/-- A quoted value of a document: the offset of its opening quote, and how it is written, both
quotes included. -/
structure QuotedSpan where
  start : Nat
  raw : Text
  deriving DecidableEq, Repr

/-- Goes over the inside of a marker from the offset `pos` on: the quoted values, and whether one
may open directly behind the text. -/
def skim (valueStart : Bool) (pos : Nat) (s : Text) : Option (List QuotedSpan × Bool) :=
  match s with
  | [] => some ([], valueStart)
  | c :: r =>
    if c = ']' then none
    else if c = '[' then none
    else if valueStart && isQuote c then
      match h : skipQuoted c r with
      | some (inside, rest) =>
        have : rest.length ≤ r.length := length_skipQuoted h
        (skim false (pos + byteLength (c :: inside)) rest).map fun (quotes, w) =>
          (⟨pos, c :: inside⟩ :: quotes, w)
      | none => none
    else skim (c == '=' || isAsciiBlank c) (pos + c.utf8Size) r
termination_by s.length
decreasing_by all_goals simp_wf <;> omega

/-- No quote stands directly behind an equals sign. -/
def NoneBehindEquals (s : Text) : Prop := s.IsChain fun c d => c = '=' → isQuote d = false

instance : DecidablePred NoneBehindEquals := fun s =>
  inferInstanceAs (Decidable (s.IsChain fun c d => c = '=' → isQuote d = false))

/-! ## Lemmas -/

section
variable {v : Bool} {pos : Nat} {c : Char} {r : Text}

theorem skim_nil : skim v pos [] = some ([], v) := by
  rw [skim]

theorem skim_value {inside rest : Text} (hclose : c ≠ ']') (hopen : c ≠ '[')
    (hv : (v && isQuote c) = true) (h : skipQuoted c r = some (inside, rest)) :
    skim v pos (c :: r) =
      (skim false (pos + byteLength (c :: inside)) rest).map fun (quotes, w) =>
        (⟨pos, c :: inside⟩ :: quotes, w) := by
  rw [skim]
  simp only [hclose, hopen, hv, if_true, if_false]
  split
  · next h' =>
    rw [h] at h'
    cases h'
    rfl
  · next h' =>
    rw [h] at h'
    cases h'

theorem skim_open (hclose : c ≠ ']') (hopen : c ≠ '[') (hv : (v && isQuote c) = true)
    (h : skipQuoted c r = none) : skim v pos (c :: r) = none := by
  rw [skim]
  simp only [hclose, hopen, hv, if_true, if_false]
  split
  · next h' =>
    rw [h] at h'
    cases h'
  · rfl

theorem skim_other (hclose : c ≠ ']') (hopen : c ≠ '[') (hv : (v && isQuote c) ≠ true) :
    skim v pos (c :: r) = skim (c == '=' || isAsciiBlank c) (pos + c.utf8Size) r := by
  rw [skim]
  simp only [hclose, hopen, if_false]
  rw [if_neg hv]

/-- No bracket is passed over outside quotes. -/
theorem ne_bracket_of_skim {k : List QuotedSpan × Bool} (h : skim v pos (c :: r) = some k) :
    c ≠ ']' ∧ c ≠ '[' := by
  rw [skim] at h
  constructor
  · rintro rfl
    simp at h
  · rintro rfl
    simp at h

end

/-- What is skimmed may end anywhere outside quotes. -/
theorem skim_append {v w : Bool} {pos : Nat} {s : Text} {quotes : List QuotedSpan}
    (h : skim v pos s = some (quotes, w)) (t : Text) :
    skim v pos (s ++ t) =
      (skim w (pos + byteLength s) t).map fun (more, w') => (quotes ++ more, w') := by
  fun_induction skim v pos s generalizing quotes w with
  | case1 v pos =>
    cases h
    simp
  | case2 => cases h
  | case3 => cases h
  | case4 v pos c r hclose hopen hv inside rest hs _ ih =>
    obtain ⟨⟨more, w'⟩, hmore, he⟩ := Option.map_eq_some_iff.1 h
    cases he
    have hs' : skipQuoted c (r ++ t) = some (inside, rest ++ t) := by
      rw [← skipQuoted_append hs, List.append_assoc]
      exact skipQuoted_cut (Bool.and_eq_true_iff.1 hv).2 hs (rest ++ t)
    rw [List.cons_append, skim_value hclose hopen hv hs', ih hmore, Option.map_map]
    simp [← skipQuoted_append hs, Nat.add_assoc, Function.comp_def]
  | case5 => cases h
  | case6 v pos c r hclose hopen hv ih =>
    rw [List.cons_append, skim_other hclose hopen hv, ih h]
    simp [Nat.add_assoc]

/-- A cut passes over what is skimmed. -/
theorem cutBody_of_skim {v w : Bool} {pos : Nat} {s : Text} {quotes : List QuotedSpan}
    (h : skim v pos s = some (quotes, w)) (start : Nat) (t : Text) :
    cutBody start v pos (s ++ t) = (cutBody start w (pos + byteLength s) t).prepend s := by
  fun_induction skim v pos s generalizing quotes w with
  | case1 v pos =>
    cases h
    rfl
  | case2 => cases h
  | case3 => cases h
  | case4 v pos c r hclose hopen hv inside rest hs _ ih =>
    obtain ⟨⟨more, w'⟩, hmore, he⟩ := Option.map_eq_some_iff.1 h
    cases he
    have hs' : skipQuoted c (r ++ t) = some (inside, rest ++ t) := by
      rw [← skipQuoted_append hs, List.append_assoc]
      exact skipQuoted_cut (Bool.and_eq_true_iff.1 hv).2 hs (rest ++ t)
    rw [List.cons_append, cutBody_value hclose hopen hv hs', ih hmore]
    simp [← skipQuoted_append hs, Cut.prepend, Nat.add_assoc]
  | case5 => cases h
  | case6 v pos c r hclose hopen hv ih =>
    rw [List.cons_append, cutBody_other hclose hopen hv, ih h]
    simp [Cut.prepend, Nat.add_assoc]

/-- A text that can be skimmed and a closing bracket are cut off without fault. -/
theorem cutBody_close {v w : Bool} {pos : Nat} {s : Text} {quotes : List QuotedSpan}
    (h : skim v pos s = some (quotes, w)) (start : Nat) (t : Text) :
    cutBody start v pos (s ++ ']' :: t) = ⟨s ++ [']'], t, none⟩ := by
  rw [cutBody_of_skim h, cutBody]
  simp [Cut.prepend]

/-- **A marker ends at the first closing bracket outside quotes.**  A cut without fault takes a text
that can be skimmed and a closing bracket. -/
theorem exists_skim_of_cutBody {start : Nat} {v : Bool} {pos : Nat} {t : Text}
    (h : (cutBody start v pos t).fault = none) :
    ∃ s quotes w, skim v pos s = some (quotes, w) ∧
      (cutBody start v pos t).taken = s ++ [']'] := by
  fun_induction cutBody start v pos t with
  | case1 => cases h
  | case2 v pos r => exact ⟨[], [], v, skim_nil, rfl⟩
  | case3 => cases h
  | case4 v pos c r hclose hopen hv inside rest hs _ ih =>
    obtain ⟨s, quotes, w, hskim, htaken⟩ := ih h
    have hs' := skipQuoted_cut (Bool.and_eq_true_iff.1 hv).2 hs s
    refine ⟨c :: (inside ++ s), ⟨pos, c :: inside⟩ :: quotes, w, ?_, ?_⟩
    · rw [skim_value hclose hopen hv hs', hskim]
      rfl
    · rw [Cut.taken_prepend, htaken]
      simp
  | case5 => cases h
  | case6 v pos c r hclose hopen hv ih =>
    obtain ⟨s, quotes, w, hskim, htaken⟩ := ih h
    refine ⟨c :: s, quotes, w, ?_, ?_⟩
    · rw [skim_other hclose hopen hv, hskim]
    · rw [Cut.taken_prepend, htaken]
      rfl

/-- Quoted values stand where the text does. -/
theorem le_start_of_skim {v w : Bool} {pos : Nat} {s : Text} {quotes : List QuotedSpan}
    (h : skim v pos s = some (quotes, w)) : ∀ q ∈ quotes, pos ≤ q.start := by
  fun_induction skim v pos s generalizing quotes w with
  | case1 =>
    cases h
    simp
  | case2 => cases h
  | case3 => cases h
  | case4 v pos c r _ _ _ inside rest _ _ ih =>
    obtain ⟨⟨more, w'⟩, hmore, he⟩ := Option.map_eq_some_iff.1 h
    cases he
    intro q hq
    rcases List.mem_cons.1 hq with rfl | hq
    · exact Nat.le_refl _
    · have := ih hmore q hq
      omega
  | case5 => cases h
  | case6 v pos c r _ _ _ ih =>
    intro q hq
    have := ih h q hq
    omega

/-! ## Text without quoted values -/

theorem noneBehindEquals_cons {c : Char} {r : Text} : NoneBehindEquals (c :: r) ↔
    (c = '=' → ∀ d ∈ r.head?, isQuote d = false) ∧ NoneBehindEquals r := by
  cases r with
  | nil => simp [NoneBehindEquals]
  | cons d r => simp [NoneBehindEquals, List.isChain_cons_cons]

theorem isEscapable_of_isBlank {c : Char} (h : isBlank c = true) : isEscapable c = false := by
  have hne : ∀ d, isBlank d = false → c ≠ d := by
    rintro d hd rfl
    rw [h] at hd
    cases hd
  simp [isEscapable, hne '\'' rfl, hne '"' rfl, hne '[' rfl, hne ']' rfl]

theorem plain_of_isBlank {c : Char} (h : isBlank c = true) :
    c ≠ ']' ∧ c ≠ '[' ∧ isQuote c = false := by
  have hesc := isEscapable_of_isBlank h
  simp only [isEscapable, Bool.or_eq_false_iff, beq_eq_false_iff_ne] at hesc
  exact ⟨hesc.2, hesc.1.2, by simp [isQuote, hesc.1.1]⟩

theorem isAsciiBlank_eq_false {c : Char} (h : isBlank c = false) : isAsciiBlank c = false := by
  cases ha : isAsciiBlank c with
  | false => rfl
  | true =>
    rw [isBlank_of_isAsciiBlank ha] at h
    cases h

/-- Whether a quote opens a value behind a text without blanks. -/
def opensBehind (v : Bool) (u : Text) : Bool := u.getLast?.elim v (· == '=')

theorem opensBehind_cons (v : Bool) (c : Char) (u : Text) :
    opensBehind v (c :: u) = opensBehind (c == '=') u := by
  unfold opensBehind
  rw [List.getLast?_cons]
  cases u.getLast? <;> rfl

theorem not_opens {v : Bool} {c : Char} (h : v = true → isQuote c = false) :
    (v && isQuote c) ≠ true := by
  intro ho
  obtain ⟨hv, hq⟩ := Bool.and_eq_true_iff.1 ho
  rw [h hv] at hq
  cases hq

section
variable {u : Text} (hblank : ∀ c ∈ u, isBlank c = false) (hchain : NoneBehindEquals u)
include hblank hchain

/-- Where no quote opens a value, text is gone over as it is. -/
theorem skim_plain (hu : ∀ c ∈ u, c ≠ ']' ∧ c ≠ '[') {v : Bool}
    (hv : v = true → ∀ c ∈ u.head?, isQuote c = false) (pos : Nat) (t : Text) :
    skim v pos (u ++ t) = skim (opensBehind v u) (pos + byteLength u) t := by
  induction u generalizing v pos with
  | nil => rfl
  | cons c u ih =>
    simp only [List.forall_mem_cons] at hblank hu
    obtain ⟨hc, hchain⟩ := noneBehindEquals_cons.1 hchain
    have hquote := not_opens fun hv' => hv hv' c rfl
    have ih := ih hblank.2 hchain hu.2 (v := c == '=') (fun he => hc (by simpa using he))
      (pos + c.utf8Size)
    rw [List.cons_append, skim_other hu.1.1 hu.1.2 hquote, isAsciiBlank_eq_false hblank.1,
      Bool.or_false, ih, opensBehind_cons, byteLength_cons, Nat.add_assoc]

/-- Where no quote opens a value, no bracket is gone over. -/
theorem ne_bracket_of_skim_plain {v : Bool}
    (hv : v = true → ∀ c ∈ u.head?, isQuote c = false) {pos : Nat} {t : Text}
    {k : List QuotedSpan × Bool} (h : skim v pos (u ++ t) = some k) :
    ∀ c ∈ u, c ≠ ']' ∧ c ≠ '[' := by
  induction u generalizing v pos with
  | nil => simp
  | cons c u ih =>
    simp only [List.forall_mem_cons] at hblank ⊢
    obtain ⟨hc, hchain⟩ := noneBehindEquals_cons.1 hchain
    have hbracket := ne_bracket_of_skim h
    have hquote := not_opens fun hv' => hv hv' c rfl
    rw [List.cons_append, skim_other hbracket.1 hbracket.2 hquote, isAsciiBlank_eq_false hblank.1,
      Bool.or_false] at h
    exact ⟨hbracket, ih hblank.2 hchain (fun he => hc (by simpa using he)) h⟩

end

/-- Between arguments no quoted value stands. -/
theorem exists_skim_separators {s : Text} (hs : ∀ c ∈ s, isBlank c = true ∨ c = '/') (v : Bool)
    (pos : Nat) : ∃ w, skim v pos s = some ([], w) := by
  induction s generalizing v pos with
  | nil => exact ⟨v, skim_nil⟩
  | cons c s ih =>
    obtain ⟨hc, hs⟩ := List.forall_mem_cons.1 hs
    obtain ⟨w, hw⟩ := ih hs (c == '=' || isAsciiBlank c) (pos + c.utf8Size)
    have hplain : c ≠ ']' ∧ c ≠ '[' ∧ isQuote c = false := by
      rcases hc with hc | rfl
      · exact plain_of_isBlank hc
      · decide
    obtain ⟨hclose, hopen, hq⟩ := hplain
    exact ⟨w, by rw [skim_other hclose hopen (not_opens fun _ => hq), hw]⟩

/-! ## Names -/

theorem isNameChar_eq_false_of_isBlank {c : Char} (h : isBlank c = true) :
    isNameChar c = false := by
  cases hn : isNameChar c with
  | false => rfl
  | true =>
    simp only [isBlank, Bool.or_eq_true, Bool.and_eq_true, decide_eq_true_eq, beq_iff_eq] at h
    delta isNameChar Char.isAlphanum Char.isAlpha Char.isUpper Char.isLower Char.isDigit at hn
    simp only [Bool.or_eq_true, Bool.and_eq_true, decide_eq_true_eq, UInt32.le_iff_toNat_le,
      ge_iff_le, beq_iff_eq] at hn
    change ((((65 ≤ c.toNat ∧ c.toNat ≤ 90) ∨ (97 ≤ c.toNat ∧ c.toNat ≤ 122)) ∨
      (48 ≤ c.toNat ∧ c.toNat ≤ 57)) ∨ c = '_') ∨ c = '-' at hn
    rcases hn with (hn | rfl) | rfl
    · omega
    · revert h
      decide
    · revert h
      decide

/-- A run of like characters ends where an unlike one stands. -/
theorem takeWhile_append_of_stop {p : Char → Bool} {u t : Text} (hu : ∀ c ∈ u, p c = true)
    (ht : ∀ c ∈ t.head?, p c = false) :
    (u ++ t).takeWhile p = u ∧ (u ++ t).dropWhile p = t := by
  rw [List.takeWhile_append_of_pos hu, List.dropWhile_append_of_pos hu]
  cases t with
  | nil => simp
  | cons c t =>
    have hc := ht c rfl
    simp [hc]

/-- What ends a name is no part of one. -/
theorem isNameChar_head?_of_endsName {rest : Text} (h : Tag.endsName rest = true) :
    ∀ c ∈ rest.head?, isNameChar c = false := by
  intro c hc
  cases rest with
  | nil => cases hc
  | cons d rest =>
    cases hc
    simp only [Tag.endsName, Bool.or_eq_true, beq_iff_eq] at h
    rcases h with h | rfl
    · exact isNameChar_eq_false_of_isBlank h
    · decide

/-- A name is taken off in front of what ends it. -/
theorem takeWhile_name {name rest : Text} (hname : isTagName name = true)
    (hrest : Tag.endsName rest = true) :
    (name ++ rest).takeWhile isNameChar = name ∧ (name ++ rest).dropWhile isNameChar = rest :=
  takeWhile_append_of_stop (isNameChar_of_mem hname) (isNameChar_head?_of_endsName hrest)

theorem opensTag_name {name : Text} (hname : isTagName name = true) (t : Text) :
    opensTag ('[' :: (name ++ t)) = true := by
  cases name with
  | nil => cases hname
  | cons c name =>
    have hc := (isTagName_cons_iff.1 hname).1
    have hslash : c ≠ '/' := by
      rintro rfl
      cases hc
    simpa [opensTag, hslash] using hc

/-- A marker starts with its name, which ends at a separator or at the closing bracket. -/
theorem splitHead_of_name {name rest : Text} (hname : isTagName name = true)
    (hrest : Tag.endsName rest = true) (t : Text) :
    splitHead ('[' :: (name ++ (rest ++ ']' :: t))) = ('[' :: name, rest ++ ']' :: t) := by
  have hstop : ∀ c ∈ (rest ++ ']' :: t).head?, isNameChar c = false := by
    cases rest with
    | nil =>
      intro c hc
      cases hc
      decide
    | cons d rest => exact isNameChar_head?_of_endsName hrest
  obtain ⟨htake, hdrop⟩ := takeWhile_append_of_stop (isNameChar_of_mem hname) hstop
  cases name with
  | nil => cases hname
  | cons c name =>
    have hslash : c ≠ '/' := by
      rintro rfl
      cases (isTagName_cons_iff.1 hname).1
    rw [List.cons_append] at htake hdrop ⊢
    rw [splitHead_name hslash, htake, hdrop]

/-- What a marker with a name is read as. -/
theorem Tag.parse_name {name rest : Text} (hname : isTagName name = true)
    (hrest : endsName rest = true) (start : Nat) :
    parse ('[' :: (name ++ (rest ++ [']']))) start =
      match Arguments.lex (start + 1 + byteLength name) (splitSlash (trimEnd rest)).1 with
      | .ok arguments => .ok ⟨name, (splitSlash (trimEnd rest)).2, arguments,
          '[' :: (name ++ (rest ++ [']'])), start⟩
      | .error e => .error e := by
  have hinner : inner? ('[' :: (name ++ (rest ++ [']']))) = some (name ++ rest) := by
    simp [inner?, ← List.append_assoc]
  obtain ⟨htake, hdrop⟩ := takeWhile_name hname hrest
  cases name with
  | nil => cases hname
  | cons c name =>
    have hslash : c ≠ '/' := by
      rintro rfl
      cases (isTagName_cons_iff.1 hname).1
    rw [parse, hinner]
    rw [List.cons_append] at htake hdrop ⊢
    split
    · next h => cases h
    · next h =>
      cases h
      exact absurd rfl hslash
    · next h =>
      cases h
      rw [htake, hdrop]
      exact if_pos (by rw [hname, hrest, Bool.and_self])

/-! ## Markers -/

/-- Every marker is cut off somewhere. -/
theorem exists_cutMarker_of_mem {pos start : Nat} {s raw : Text}
    (h : .marker raw start ∈ scanFrom pos s) :
    ∃ t, opensTag t = true ∧ (cutMarker start t).fault = none ∧
      (cutMarker start t).taken = raw := by
  fun_induction scanFrom pos s with
  | case1 => cases h
  | case2 pos c r hopens k _ ih =>
    rcases List.mem_cons.1 h with h | h
    · obtain ⟨hfault, htaken, rfl⟩ := Cut.segment_eq_marker_iff.1 h.symm
      exact ⟨c :: r, hopens, hfault, htaken⟩
    · exact ih h
  | case3 pos c r _ k _ ih =>
    rcases List.mem_cons.1 h with h | h
    · cases h
    · exact ih h

/-- A name, a text that can be skimmed and a closing bracket are a marker. -/
theorem cutMarker_close {start : Nat} {name rest : Text} (hname : isTagName name = true)
    (hrest : Tag.endsName rest = true) {k : List QuotedSpan × Bool}
    (h : skim false (start + 1 + byteLength name) rest = some k) (t : Text) :
    cutMarker start ('[' :: (name ++ (rest ++ ']' :: t))) =
      ⟨'[' :: (name ++ (rest ++ [']'])), t, none⟩ := by
  have hpos : start + byteLength ('[' :: name) = start + 1 + byteLength name := by
    rw [byteLength_cons, Nat.add_assoc]
    rfl
  simp only [cutMarker, splitHead_of_name hname hrest, hpos, cutBody_close h]
  simp [Cut.prepend]

/-- What stands between the name of a marker and its closing bracket can be skimmed. -/
theorem exists_skim_of_marker {pos start : Nat} {s name rest : Text}
    (h : .marker ('[' :: (name ++ (rest ++ [']']))) start ∈ scanFrom pos s)
    (hname : isTagName name = true) (hrest : Tag.endsName rest = true) :
    ∃ quotes w, skim false (start + 1 + byteLength name) rest = some (quotes, w) := by
  obtain ⟨t, _, hfault, htaken⟩ := exists_cutMarker_of_mem h
  obtain ⟨after, ht⟩ : ∃ after, t = '[' :: (name ++ (rest ++ ']' :: after)) := by
    have happ := cutMarker_append start t
    rw [htaken] at happ
    exact ⟨(cutMarker start t).rest, by simpa using happ.symm⟩
  have hhead : splitHead t = ('[' :: name, rest ++ ']' :: after) := by
    rw [ht]
    exact splitHead_of_name hname hrest after
  simp only [cutMarker, hhead, Cut.taken_prepend, Cut.fault_prepend] at hfault htaken
  obtain ⟨u, quotes, w, hskim, hu⟩ := exists_skim_of_cutBody hfault
  rw [hu] at htaken
  have hur : u = rest := by simpa using htaken
  have hpos : start + byteLength ('[' :: name) = start + 1 + byteLength name := by
    rw [byteLength_cons, Nat.add_assoc]
    rfl
  rw [hur, hpos] at hskim
  exact ⟨quotes, w, hskim⟩

end Tagtext
