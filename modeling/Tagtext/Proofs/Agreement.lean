import Tagtext.Proofs.Lexeme

/-!
# Where scanning and reading agree on quotes

A marker is cut off before its arguments are read, and each of the two passes
decides by a rule of its own where a quote opens a value: skimming behind an
equals sign or an ASCII blank, reading where the value of an argument begins.
They find the same quoted values in the arguments that are *tidy*:

* a quoted value without name stands directly behind an ASCII blank, and
* no quote stands behind an equals sign in a bare value.

    skim opens pos (s ++ tail) = some (skipped, w) → lexemes pos s = .ok ls →
      (quotesOf ls = skipped ↔ isTidy opens pos s)       (agrees_of_skim)

Where they do not agree, a bracket that one takes to be quoted is bare to the
other, and a value that is closed to one is open to the other
(`quotesOf_marker_untidy`).
-/

namespace Tagtext.Arguments

/-! ## Tidy arguments -/

/-- Whether skimming finds the quoted value of an argument and no other; `opens` tells whether a
quote in front of the argument opens a value. -/
def Lexeme.isTidy (opens : Bool) (l : Lexeme) : Bool :=
  match l.argument.name, l.quote with
  | none, some _ => opens
  | some _, none => decide (NoneBehindEquals l.argument.value)
  | _, _ => true

/-- Whether all arguments that a text spells are tidy, up to the first that cannot be read. -/
def isTidy (opens : Bool) (pos : Nat) (s : Text) : Bool :=
  match s with
  | [] => true
  | c :: r =>
    if hc : isBlank c then isTidy (isAsciiBlank c) (pos + c.utf8Size) r
    else
      match h : readItem pos (c :: r) with
      | .error _ => opens || !isQuote c
      | .ok (a, rest) =>
        have : rest.length < (c :: r).length := length_readItem (by simpa using hc) h
        let written := (c :: r).take ((c :: r).length - rest.length)
        Lexeme.isTidy opens ⟨a, quoteIn pos written⟩ &&
          isTidy false (pos + (byteLength (c :: r) - byteLength rest)) rest
termination_by s.length
decreasing_by
  · exact Nat.lt_succ_self _
  · exact this

/-- No closing bracket stands in the name of an argument, nor in its value if that is bare. -/
structure Lexeme.IsFree (l : Lexeme) : Prop where
  name : ∀ name, l.argument.name = some name → ']' ∉ name
  value : l.quote = none → ']' ∉ l.argument.value

/-- Reading a text finds the quoted values that skimming has found, if its arguments are tidy and
only then. -/
structure Agrees (opens : Bool) (pos : Nat) (s : Text) (skipped : List QuotedSpan) : Prop where
  closed : isTidy opens pos s = true → ∀ o, lexemes pos s ≠ .error (.unterminatedQuote o)
  quotes : ∀ ls, lexemes pos s = .ok ls →
    (quotesOf ls = skipped ↔ isTidy opens pos s = true)
  free : isTidy opens pos s = true → ∀ ls, lexemes pos s = .ok ls → ∀ l ∈ ls, l.IsFree

/-! ## Lemmas -/

@[simp] theorem isTidy_nil (opens : Bool) (pos : Nat) : isTidy opens pos [] = true := by
  rw [isTidy.eq_def]

theorem isTidy_blank {c : Char} (hc : isBlank c = true) (opens : Bool) (pos : Nat) (r : Text) :
    isTidy opens pos (c :: r) = isTidy (isAsciiBlank c) (pos + c.utf8Size) r := by
  rw [isTidy.eq_def]
  simp only [hc, dite_true]

theorem isTidy_error {pos : Nat} {c : Char} {r : Text} {e : ParseError} (hc : isBlank c = false)
    (h : readItem pos (c :: r) = .error e) (opens : Bool) :
    isTidy opens pos (c :: r) = (opens || !isQuote c) := by
  rw [isTidy.eq_def]
  simp only [hc, Bool.false_eq_true, dite_false]
  split
  · rfl
  · next h' =>
    rw [h] at h'
    cases h'

theorem isTidy_item {pos : Nat} {u rest : Text} {l : Lexeme} (h : Item pos u l)
    (hrest : l.quote = none → EndsItem rest) (opens : Bool) :
    isTidy opens pos (u ++ rest) = (l.isTidy opens && isTidy false (pos + byteLength u) rest) := by
  have hread := readItem_of_reads (Reads.item h hrest)
  have hlen : (u ++ rest).length - rest.length = u.length := by simp
  have hbytes : byteLength (u ++ rest) - byteLength rest = byteLength u := by simp
  obtain ⟨c, r, rfl, hc⟩ := h.exists_cons
  rw [List.cons_append] at hread hlen hbytes ⊢
  rw [isTidy.eq_def]
  simp only [hc, Bool.false_eq_true, dite_false]
  split
  · next h' =>
    rw [hread] at h'
    cases h'
  · next a rest' h' =>
    rw [hread] at h'
    cases h'
    rw [hlen, hbytes, ← List.cons_append, List.take_left', quoteIn_of_item h]
    rfl

/-- What stands in front of a blank does not tell whether the arguments behind it are tidy. -/
theorem isTidy_of_endsItem {s : Text} (h : EndsItem s) (opens opens' : Bool) (pos : Nat) :
    isTidy opens pos s = isTidy opens' pos s := by
  cases s with
  | nil => simp
  | cons c s =>
    have hc : isBlank c = true := h c rfl
    rw [isTidy_blank hc, isTidy_blank hc]

theorem byteLength_named (w b : Text) :
    byteLength (w ++ '=' :: b) = byteLength w + 1 + byteLength b := by
  rw [byteLength_append, byteLength_cons, Nat.add_assoc]
  rfl

/-- A quoted value that is open in front of the end of the arguments stays open. -/
theorem skipQuoted_separators {q : Char} (hq : isQuote q = true) {s tail : Text}
    (htail : ∀ c ∈ tail, isBlank c = true ∨ c = '/') (h : skipQuoted q s = none) :
    skipQuoted q (s ++ tail) = none := by
  have hplain : ∀ c ∈ tail, c ≠ q ∧ isEscapable c = false := by
    intro c hc
    have hne : isEscapable c = false := by
      rcases htail c hc with hb | rfl
      · exact isEscapable_of_isBlank hb
      · rfl
    refine ⟨?_, hne⟩
    rintro rfl
    rw [isEscapable_of_isQuote hq] at hne
    cases hne
  have hnone : skipQuoted q tail = none := by
    cases hs : skipQuoted q tail with
    | none => rfl
    | some k =>
      obtain ⟨inside, rest⟩ := k
      have hmem : q ∈ tail := by
        rw [← skipQuoted_append hs]
        exact List.mem_append_left _ (List.mem_of_getLast? (getLast?_of_skipQuoted hs))
      exact absurd rfl (hplain q hmem).1
  fun_induction skipQuoted q s with
  | case1 => exact hnone
  | case2 => cases h
  | case3 c hc =>
    cases tail with
    | nil => simp [skipQuoted, hc]
    | cons d tail =>
      have hd := (hplain d List.mem_cons_self).2
      simp [skipQuoted, hc, hd, hnone]
  | case4 c d r hesc ih =>
    rw [Option.map_eq_none_iff] at h
    simp [skipQuoted, hesc, ih h]
  | case5 => cases h
  | case6 c d r hesc hc ih =>
    rw [Option.map_eq_none_iff] at h
    simp only [List.cons_append] at ih ⊢
    simp [skipQuoted, hesc, hc, ih h]

/-! ## Items -/

theorem Item.le_start {pos : Nat} {u : Text} {l : Lexeme} (h : Item pos u l) :
    ∀ q ∈ l.quote, pos ≤ q.start := by
  intro q hq
  cases h with
  | quoted h =>
    cases hq
    exact Nat.le_refl _
  | word hw => cases hq
  | namedQuoted hw h =>
    cases hq
    show pos ≤ pos + _ + 1
    omega
  | namedBare hw hb => cases hq

/-- Arguments are read from left to right. -/
theorem le_start_of_lexemes {pos : Nat} {s : Text} {ls : List Lexeme}
    (h : lexemes pos s = .ok ls) : ∀ q ∈ quotesOf ls, pos ≤ q.start := by
  induction pos, s using item_induction generalizing ls with
  | nil pos =>
    rw [lexemes_nil] at h
    cases h
    simp
  | blank pos c r hc ih =>
    rw [lexemes_blank hc] at h
    intro q hq
    have := ih h q hq
    omega
  | fault pos c r e hc hr =>
    rw [lexemes_error hc (readItem_of_reads hr)] at h
    cases h
  | item pos u rest l hl hrest ih =>
    obtain ⟨more, hmore, rfl⟩ := exists_of_lexemes_item hl hrest h
    intro q hq
    rw [quotesOf_cons, List.mem_append, Option.mem_toList] at hq
    rcases hq with hq | hq
    · exact hl.le_start q hq
    · have := ih hmore q hq
      omega

/-- A tidy item is gone over for what it is. -/
theorem exists_skim_item {opens w : Bool} {pos : Nat} {u t : Text} {l : Lexeme}
    {skipped : List QuotedSpan} (h : Item pos u l) (htidy : l.isTidy opens = true)
    (hskim : skim opens pos (u ++ t) = some (skipped, w)) :
    ∃ more opens', skim opens' (pos + byteLength u) t = some (more, w) ∧
      skipped = l.quote.toList ++ more ∧ (l.quote ≠ none → opens' = false) ∧ l.IsFree := by
  have free : ∀ {u : Text}, (∀ c ∈ u, c ≠ ']' ∧ c ≠ '[') → ']' ∉ u :=
    fun hu hmem => (hu ']' hmem).1 rfl
  have value : ∀ {pos : Nat} {q : Char} {inside : Text}, IsInside q inside →
      skim true pos (q :: (inside ++ t)) = some (skipped, w) →
      ∃ more, skim false (pos + byteLength (q :: inside)) t = some (more, w) ∧
        skipped = ⟨pos, q :: inside⟩ :: more := by
    intro pos q inside hq hskim
    have hne := ne_bracket_of_isQuote hq.1
    rw [skim_value hne.1 hne.2 (by simpa using hq.1) (hq.skipQuoted_append t)] at hskim
    obtain ⟨⟨more, w'⟩, hmore, he⟩ := Option.map_eq_some_iff.1 hskim
    cases he
    exact ⟨more, hmore, rfl⟩
  cases h with
  | quoted h =>
    have hopens : opens = true := htidy
    subst hopens
    obtain ⟨more, hmore, hskipped⟩ := value h hskim
    exact ⟨more, false, hmore, hskipped, fun _ => rfl, by simp [Argument.positional], by simp⟩
  | word hw =>
    have hfree := ne_bracket_of_skim_word hw hskim
    rw [skim_word hw hfree] at hskim
    exact ⟨skipped, false, hskim, rfl, by simp, by simp [Argument.positional], fun _ => free hfree⟩
  | namedQuoted hw h =>
    rw [List.append_assoc] at hskim
    have hfree := ne_bracket_of_skim_word hw hskim
    rw [List.cons_append, skim_named hw hfree] at hskim
    obtain ⟨more, hmore, hskipped⟩ := value h hskim
    rw [byteLength_named, ← Nat.add_assoc, ← Nat.add_assoc]
    refine ⟨more, false, hmore, hskipped, fun _ => rfl, fun name hname => ?_, by simp⟩
    cases hname
    exact free hfree
  | namedBare hw hb =>
    rw [List.append_assoc] at hskim
    have hfree := ne_bracket_of_skim_word hw hskim
    rw [List.cons_append, skim_named hw hfree] at hskim
    have hchain : NoneBehindEquals _ := of_decide_eq_true htidy
    have hvalue := ne_bracket_of_skim_plain hb.all hchain (fun _ => hb.head) hskim
    rw [skim_plain hb.all hchain hvalue (fun _ => hb.head)] at hskim
    rw [byteLength_named, ← Nat.add_assoc, ← Nat.add_assoc]
    refine ⟨skipped, _, hskim, rfl, by simp, fun name hname => ?_, fun _ => free hvalue⟩
    cases hname
    exact free hfree

/-- In a text without blanks a quote that is taken to open a value, does so in the text. -/
theorem exists_start_lt_of_skim {v w : Bool} {pos : Nat} {b t : Text} {skipped : List QuotedSpan}
    (hskim : skim v pos (b ++ t) = some (skipped, w))
    (hb : v = true ∧ (∃ c ∈ b.head?, isQuote c = true) ∨ ¬ NoneBehindEquals b) :
    ∃ q ∈ skipped, q.start < pos + byteLength b := by
  induction b generalizing v pos skipped with
  | nil => exact absurd hb (by simp [NoneBehindEquals])
  | cons c b ih =>
    have hbracket := ne_bracket_of_skim hskim
    by_cases hopens : (v && isQuote c) = true
    · cases hs : skipQuoted c (b ++ t) with
      | none =>
        rw [List.cons_append, skim_open hbracket.1 hbracket.2 hopens hs] at hskim
        cases hskim
      | some k =>
        rw [List.cons_append, skim_value hbracket.1 hbracket.2 hopens hs] at hskim
        obtain ⟨⟨more, w'⟩, _, he⟩ := Option.map_eq_some_iff.1 hskim
        cases he
        refine ⟨_, List.mem_cons_self, ?_⟩
        have := Char.utf8Size_pos c
        simp only [byteLength_cons]
        omega
    · rw [List.cons_append, skim_other hbracket.1 hbracket.2 hopens] at hskim
      have hb' : (c == '=' || isAsciiBlank c) = true ∧ (∃ d ∈ b.head?, isQuote d = true) ∨
          ¬ NoneBehindEquals b := by
        rcases hb with ⟨rfl, d, hd, hq⟩ | hb
        · cases hd
          exact absurd hq (by simpa using hopens)
        · rw [noneBehindEquals_cons, not_and_or] at hb
          refine hb.imp_left fun hb => ?_
          push Not at hb
          obtain ⟨rfl, d, hd, hq⟩ := hb
          exact ⟨rfl, d, hd, by simpa using hq⟩
      obtain ⟨q, hq, hlt⟩ := ih hskim hb'
      refine ⟨q, hq, ?_⟩
      simp only [byteLength_cons]
      omega

/-- Where an item is not tidy, other values are found. -/
theorem ne_of_skim_item {opens w : Bool} {pos : Nat} {u t : Text} {l : Lexeme}
    {skipped more : List QuotedSpan} (h : Item pos u l) (htidy : l.isTidy opens = false)
    (hskim : skim opens pos (u ++ t) = some (skipped, w))
    (hmore : ∀ q ∈ more, pos + byteLength u ≤ q.start) : l.quote.toList ++ more ≠ skipped := by
  rintro rfl
  cases h with
  | quoted h =>
    -- the quote is passed over, so every value stands behind it
    rename_i q inside
    have hopens : opens = false := htidy
    have hne := ne_bracket_of_isQuote h.1
    rw [List.cons_append, skim_other hne.1 hne.2 (by simp [hopens])] at hskim
    have hle : pos + q.utf8Size ≤ pos := le_start_of_skim hskim _ List.mem_cons_self
    have := Char.utf8Size_pos q
    omega
  | word hw => cases htidy
  | namedQuoted hw h => cases htidy
  | namedBare hw hb =>
    rw [List.append_assoc] at hskim
    have hfree := ne_bracket_of_skim_word hw hskim
    rw [List.cons_append, skim_named hw hfree] at hskim
    obtain ⟨q, hq, hlt⟩ := exists_start_lt_of_skim hskim (Or.inr (of_decide_eq_false htidy))
    have := hmore q hq
    rw [byteLength_named] at this
    omega

/-! ## All arguments -/

/-- A quoted value that is not closed is tidy only if skimming does not come past it. -/
theorem not_unterminated_of_skim {opens : Bool} {pos : Nat} {s tail : Text}
    (htail : ∀ c ∈ tail, isBlank c = true ∨ c = '/') {k : List QuotedSpan × Bool}
    (hskim : skim opens pos (s ++ tail) = some k) {e : ParseError} (hr : Reads pos s (.error e))
    (htidy : ∀ c ∈ s.head?, opens = true ∨ isQuote c = false) :
    ∀ o, e ≠ .unterminatedQuote o := by
  have value : ∀ {pos : Nat} {q : Char} {r : Text}, isQuote q = true → skipQuoted q r = none →
      skim true pos (q :: (r ++ tail)) = none := by
    intro pos q r hq h
    have hne := ne_bracket_of_isQuote hq
    exact skim_open hne.1 hne.2 (by simpa using hq) (skipQuoted_separators hq htail h)
  rintro o rfl
  cases hr with
  | unclosed hq h =>
    have hopens : opens = true := (htidy _ rfl).resolve_right (by simp [hq])
    rw [hopens, List.cons_append, value hq h] at hskim
    cases hskim
  | namedUnclosed hw hq h =>
    rw [List.append_assoc] at hskim
    have hfree := ne_bracket_of_skim_word hw hskim
    rw [List.cons_append, skim_named hw hfree, List.cons_append, value hq h] at hskim
    cases hskim

/-- What agrees behind an item agrees from the item on. -/
theorem Agrees.item {opens w : Bool} {pos : Nat} {u rest tail : Text} {l : Lexeme}
    {skipped : List QuotedSpan} (hl : Item pos u l) (hrest : l.quote = none → EndsItem rest)
    (hskim : skim opens pos (u ++ (rest ++ tail)) = some (skipped, w))
    (hmore : ∀ opens' more, skim opens' (pos + byteLength u) (rest ++ tail) = some (more, w) →
      Agrees opens' (pos + byteLength u) rest more) : Agrees opens pos (u ++ rest) skipped := by
  have htext := isTidy_item hl hrest opens
  cases htidy : l.isTidy opens with
  | false =>
    rw [htidy, Bool.false_and] at htext
    refine ⟨by simp [htext], fun ls hls => ?_, by simp [htext]⟩
    obtain ⟨more, hrests, rfl⟩ := exists_of_lexemes_item hl hrest hls
    have hne := ne_of_skim_item hl htidy hskim (le_start_of_lexemes hrests)
    simp [htext, quotesOf_cons, hne]
  | true =>
    obtain ⟨more, opens', hskim', rfl, hflag, hfree⟩ := exists_skim_item hl htidy hskim
    obtain ⟨hclosed, hquotes, hfrees⟩ := hmore opens' more hskim'
    have hsame : isTidy opens pos (u ++ rest) = isTidy opens' (pos + byteLength u) rest := by
      rw [htext, htidy, Bool.true_and]
      by_cases hq : l.quote = none
      · exact isTidy_of_endsItem (hrest hq) _ _ _
      · rw [hflag hq]
    rw [← hsame] at hclosed hquotes hfrees
    refine ⟨fun ht o herr => ?_, fun ls hls => ?_, fun ht ls hls => ?_⟩
    · rw [lexemes_item hl hrest] at herr
      cases hs : lexemes (pos + byteLength u) rest with
      | error e =>
        rw [hs] at herr
        cases herr
        exact hclosed ht o hs
      | ok more =>
        rw [hs] at herr
        cases herr
    · obtain ⟨more', hrests, rfl⟩ := exists_of_lexemes_item hl hrest hls
      rw [quotesOf_cons, List.append_cancel_left_eq]
      exact hquotes more' hrests
    · obtain ⟨more', hrests, rfl⟩ := exists_of_lexemes_item hl hrest hls
      exact List.forall_mem_cons.2 ⟨hfree, hfrees ht more' hrests⟩

/-- **Reading agrees with skimming on tidy arguments, and on no others**, whatever separators follow
them. -/
theorem agrees_of_skim {opens w : Bool} {pos : Nat} {s tail : Text} {skipped : List QuotedSpan}
    (htail : ∀ c ∈ tail, isBlank c = true ∨ c = '/')
    (hskim : skim opens pos (s ++ tail) = some (skipped, w)) : Agrees opens pos s skipped := by
  induction pos, s using item_induction generalizing opens skipped with
  | nil pos =>
    obtain ⟨w', hw'⟩ := exists_skim_separators htail opens pos
    rw [List.nil_append, hw'] at hskim
    cases hskim
    exact ⟨by simp, by simp, by simp⟩
  | blank pos c r hc ih =>
    obtain ⟨hclose, hopen, hq⟩ := plain_of_isBlank hc
    have hflag : (c == '=' || isAsciiBlank c) = isAsciiBlank c := by
      simp [ne_equals_of_isBlank hc]
    rw [List.cons_append, skim_other hclose hopen (not_opens fun _ => hq), hflag] at hskim
    obtain ⟨hclosed, hquotes, hfree⟩ := ih hskim
    rw [← lexemes_blank hc, ← isTidy_blank hc opens] at *
    exact ⟨hclosed, hquotes, hfree⟩
  | fault pos c r e hc hr =>
    have hread := readItem_of_reads hr
    have hlex := lexemes_error hc hread
    have htidy := isTidy_error hc hread opens
    refine ⟨fun ht o herr => ?_, by simp [hlex], by simp [hlex]⟩
    rw [hlex] at herr
    cases herr
    rw [htidy, Bool.or_eq_true, Bool.not_eq_true'] at ht
    exact not_unterminated_of_skim htail hskim hr (by simpa using ht) o rfl
  | item pos u rest l hl hrest ih =>
    rw [List.append_assoc] at hskim
    exact .item hl hrest hskim fun opens' more hmore => ih hmore

/-! ## Markers -/

/-- Behind the arguments of a tag stand blanks and a slash at most. -/
theorem exists_splitSlash_append (rest : Text) :
    ∃ tail, (Tag.splitSlash (trimEnd rest)).1 ++ tail = rest ∧
      ∀ c ∈ tail, isBlank c = true ∨ c = '/' := by
  obtain ⟨blanks, happ, hblanks⟩ := exists_trimEnd_append rest
  unfold Tag.splitSlash
  split
  · next hlast =>
    refine ⟨'/' :: blanks, ?_, ?_⟩
    · rw [← List.singleton_append, ← List.append_assoc, List.dropLast_append_getLast? _ hlast, happ]
    · intro c hc
      rcases List.mem_cons.1 hc with rfl | hc
      · exact Or.inr rfl
      · exact Or.inl (hblanks c hc)
  · exact ⟨blanks, happ, fun c hc => Or.inl (hblanks c hc)⟩

/-- **The quoted values of a marker.**  What stands between the name of a marker and its closing
bracket is skimmed when the marker is cut off, and its arguments are read afterwards.  If they are
tidy, then no quoted value is left open, and reading finds the values that were skipped, and no
bracket outside them; if they are not tidy and can be read, it finds other values. -/
theorem quotesOf_marker (input name rest : Text) (start : Nat) (hname : isTagName name = true)
    (hrest : Tag.endsName rest = true)
    (h : .marker ('[' :: (name ++ (rest ++ [']']))) start ∈ scan input) :
    let pos := start + 1 + byteLength name
    let body := (Tag.splitSlash (trimEnd rest)).1
    let read := Tag.parse ('[' :: (name ++ (rest ++ [']']))) start
    ∃ skipped w, skim false pos rest = some (skipped, w) ∧
      (isTidy false pos body = true → ∀ o, read ≠ .error (.unterminatedQuote o)) ∧
      ∀ tag, read = .ok tag → ∃ ls, lexemes pos body = .ok ls ∧
        ls.map (·.argument) = tag.arguments ∧
        (quotesOf ls = skipped ↔ isTidy false pos body = true) ∧
        (isTidy false pos body = true → ∀ l ∈ ls, l.IsFree) := by
  intro pos body read
  obtain ⟨skipped, w, hskim⟩ := exists_skim_of_marker h hname hrest
  obtain ⟨tail, happ, htail⟩ := exists_splitSlash_append rest
  have hagrees : Agrees false pos body skipped := agrees_of_skim htail (by rwa [happ])
  have hread : read = match lexemes pos body with
      | .ok ls => .ok ⟨name, (Tag.splitSlash (trimEnd rest)).2, ls.map (·.argument),
          '[' :: (name ++ (rest ++ [']'])), start⟩
      | .error e => .error e := by
    show Tag.parse _ _ = _
    rw [Tag.parse_name hname hrest, lex_eq_lexemes]
    cases lexemes pos body <;> rfl
  refine ⟨skipped, w, hskim, fun ht o ho => ?_, fun tag htag => ?_⟩
  · cases hls : lexemes pos body with
    | error e =>
      rw [hread, hls] at ho
      cases ho
      exact hagrees.closed ht o hls
    | ok ls =>
      rw [hread, hls] at ho
      cases ho
  · cases hls : lexemes pos body with
    | error e =>
      rw [hread, hls] at htag
      cases htag
    | ok ls =>
      rw [hread, hls] at htag
      cases htag
      exact ⟨ls, rfl, rfl, hagrees.quotes ls hls, fun ht => hagrees.free ht ls hls⟩

/-- Brackets in a quoted value and in a named one, and an equals sign in a bare one. -/
theorem quotesOf_marker_tidy :
    let raw := "[t '[' k=\"]\" x=y=z /]".toList
    .marker raw 1 ∈ scan ('.' :: raw) ∧ isTidy false 3 " '[' k=\"]\" x=y=z ".toList = true ∧
      ∀ o, Tag.parse raw 1 ≠ .error (.unterminatedQuote o) := by
  intro raw
  have hmem : .marker raw 1 ∈ scan ('.' :: raw) := by decide +kernel
  have htidy : isTidy false 3 " '[' k=\"]\" x=y=z ".toList = true := by decide +kernel
  obtain ⟨_, _, _, hclosed, _⟩ := quotesOf_marker ('.' :: raw) ['t'] " '[' k=\"]\" x=y=z /".toList 1
    (by decide) (by decide) hmem
  exact ⟨hmem, htidy, hclosed htidy⟩

/-- A quote behind an equals sign in a bare value is skipped as a quoted value and is not read as
one, so that the bare value holds a closing bracket; and a quote directly behind a quoted value is
passed over when the marker is cut off, and is read as one that opens a value. -/
theorem quotesOf_marker_untidy :
    let bare := "[t x=y=']']".toList
    let adjacent := "[t 'x''y]".toList
    .marker bare 0 ∈ scan bare ∧
      skim false 2 " x=y=']'".toList = some ([⟨7, "']'".toList⟩], false) ∧
      lexemes 2 " x=y=']'".toList = .ok [⟨.named "x".toList "y=']'".toList, none⟩] ∧
      (Tag.parse bare 0).toOption.map (·.arguments) = some [.named "x".toList "y=']'".toList] ∧
      .marker adjacent 0 ∈ scan adjacent ∧
      Tag.parse adjacent 0 = .error (.unterminatedQuote 6) := by
  decide +kernel

end Tagtext.Arguments
