import Tagtext.Proofs.Written

/-!
# The grammar of tags

What a text is read as, said of the text alone.  `Arguments.Reading` takes blanks
and arguments off the front of a text, each as far as it goes; what is left when
nothing more can be taken is empty or at fault (`Arguments.Faults`):

    lex pos s = .ok args   ↔ Reading pos s args p [] for some p       (lex_eq_ok_iff)
    lex pos s = .error e   ↔ Reading pos s args p rest and Faults p rest e
                             for some args, p and rest                (lex_eq_error_iff)

`Tag.Parses` says how a whole marker is read, one constructor for a closing tag,
one for all other tags, and the faults:

    Tag.parse raw start = x ↔ Tag.Parses raw start x                  (parse_eq_iff)
-/

namespace Tagtext

/-! ## Grammar -/

namespace Arguments

/-- How an argument is written in front of `rest`: as a quoted value or a bare word, or with a name,
an equals sign, and a quoted or a bare value.  What is bare goes on up to a blank. -/
inductive Spelled : Text → Argument → Text → Prop
  | quoted {q : Char} {v : Text} (hq : isQuote q = true) (hv : Unbroken q v) (rest : Text) :
      Spelled (q :: (v ++ [q])) (.positional (unescape v)) rest
  | word {w rest : Text} (hw : IsWord w) (hrest : EndsItem rest) : Spelled w (.positional w) rest
  | namedQuoted {w v : Text} {q : Char} (hw : IsWord w) (hq : isQuote q = true)
      (hv : Unbroken q v) (rest : Text) :
      Spelled (w ++ '=' :: q :: (v ++ [q])) (.named w (unescape v)) rest
  | namedBare {w b rest : Text} (hw : IsWord w) (hb : IsBare b) (hrest : EndsItem rest) :
      Spelled (w ++ '=' :: b) (.named w b) rest

/-- The arguments that are read from the front of a text at the offset `pos`, as far as the offset
`p`, and what is left there. -/
inductive Reading : Nat → Text → Arguments → Nat → Text → Prop
  | here (pos : Nat) (s : Text) : Reading pos s [] pos s
  | blank {pos p : Nat} {c : Char} {s rest : Text} {args : Arguments} (hc : isBlank c = true)
      (h : Reading (pos + c.utf8Size) s args p rest) : Reading pos (c :: s) args p rest
  | item {pos p : Nat} {u s rest : Text} {a : Argument} {args : Arguments} (hu : Spelled u a s)
      (h : Reading (pos + byteLength u) s args p rest) : Reading pos (u ++ s) (a :: args) p rest

/-- An argument at the offset `pos` whose quoted value does not close; the quote is at `o`. -/
inductive Unclosed (pos : Nat) : Text → Nat → Prop
  | quoted {q : Char} {r : Text} (hq : isQuote q = true)
      (hopen : ∀ v z, Unbroken q v → r ≠ v ++ q :: z) : Unclosed pos (q :: r) pos
  | named {w r : Text} {q : Char} (hw : IsWord w) (hq : isQuote q = true)
      (hopen : ∀ v z, Unbroken q v → r ≠ v ++ q :: z) :
      Unclosed pos (w ++ '=' :: q :: r) (pos + byteLength w + 1)

/-- Why no argument can be read from the front of a text at the offset `pos`. -/
inductive Faults (pos : Nat) : Text → ParseError → Prop
  | unnamed (r : Text) : Faults pos ('=' :: r) (.emptyArgumentName pos)
  | unclosed {s : Text} {o : Nat} (h : Unclosed pos s o) : Faults pos s (.unterminatedQuote o)

end Arguments

namespace Tag

/-- `raw` is a name, as long as it goes, and `rest` in brackets; a blank or a slash ends the name,
unless it is all there is. -/
structure Opens (raw name rest : Text) : Prop where
  raw_eq : raw = '[' :: (name ++ (rest ++ [']']))
  isTagName : isTagName name = true
  longest : ∀ c ∈ rest.head?, isNameChar c = false
  separated : endsName rest = true

/-- What is left of a text without the blanks at its end and then without one slash.  A slash makes
the tag stand alone. -/
inductive Body : Text → Text → TagKind → Prop
  | opening {body blanks : Text} (hblanks : ∀ c ∈ blanks, isBlank c = true)
      (hbody : ∀ c ∈ body.getLast?, isBlank c = false ∧ c ≠ '/') :
      Body (body ++ blanks) body .opening
  | selfClosing {body blanks : Text} (hblanks : ∀ c ∈ blanks, isBlank c = true) :
      Body (body ++ '/' :: blanks) body .selfClosing

/-- The arguments of the marker `raw` at the offset `start` are read as far as the offset `p`, and
`tail` is left there. -/
def ReadsTo (raw : Text) (start : Nat) (name : Text) (kind : TagKind) (args : Arguments) (p : Nat)
    (tail : Text) : Prop :=
  ∃ rest body, Opens raw name rest ∧ Body rest body kind ∧
    Arguments.Reading (start + 1 + byteLength name) body args p tail

/-- A name and blanks. -/
def IsCloser (name inner : Text) : Prop :=
  isTagName name = true ∧ ∃ blanks, (∀ c ∈ blanks, isBlank c = true) ∧ inner = name ++ blanks

/-- Why a text at the offset `start` is no tag. -/
inductive Faults (raw : Text) (start : Nat) : ParseError → Prop
  | unbracketed (h : ∀ inner, raw ≠ '[' :: (inner ++ [']'])) :
      Faults raw start (.unterminatedTag start)
  | closer {inner : Text} (hraw : raw = '[' :: '/' :: (inner ++ [']']))
      (hno : ∀ name, ¬ IsCloser name inner) : Faults raw start (.invalidCloseTag raw start)
  | name {inner : Text} (hraw : raw = '[' :: (inner ++ [']'])) (hslash : inner.head? ≠ some '/')
      (hno : ∀ name rest, ¬ Opens raw name rest) :
      Faults raw start (.invalidTagName (firstWord inner) start)
  | argument {name tail : Text} {kind : TagKind} {args : Arguments} {p : Nat} {e : ParseError}
      (h : ReadsTo raw start name kind args p tail) (hfault : Arguments.Faults p tail e) :
      Faults raw start e

/-- What a text at the offset `start` is read as. -/
inductive Parses (raw : Text) (start : Nat) : Except ParseError Tag → Prop
  | closing {name inner : Text} (hraw : raw = '[' :: '/' :: (inner ++ [']']))
      (h : IsCloser name inner) : Parses raw start (.ok ⟨name, .closing, [], raw, start⟩)
  | other {name : Text} {kind : TagKind} {args : Arguments} {p : Nat}
      (h : ReadsTo raw start name kind args p []) :
      Parses raw start (.ok ⟨name, kind, args, raw, start⟩)
  | fault {e : ParseError} (h : Faults raw start e) : Parses raw start (.error e)

end Tag

/-! ## Arguments -/

namespace Arguments

/-- An argument is written as an item. -/
theorem Spelled.exists_item {u s : Text} {a : Argument} (h : Spelled u a s) (pos : Nat) :
    ∃ quote, Item pos u ⟨a, quote⟩ ∧ (quote = none → EndsItem s) := by
  have hinside : ∀ {q : Char} {v : Text}, isQuote q = true → Unbroken q v →
      IsInside q (v ++ [q]) ∧ (v ++ [q]).dropLast = v :=
    fun hq hv => ⟨⟨hq, hv.skipQuoted hq []⟩, by simp⟩
  cases h with
  | quoted hq hv rest =>
    obtain ⟨hin, hdrop⟩ := hinside hq hv
    have hitem : Item pos _ _ := .quoted hin
    rw [hdrop] at hitem
    exact ⟨_, hitem, nofun⟩
  | word hw hrest => exact ⟨none, .word hw, fun _ => hrest⟩
  | namedQuoted hw hq hv rest =>
    obtain ⟨hin, hdrop⟩ := hinside hq hv
    have hitem : Item pos _ _ := .namedQuoted hw hin
    rw [hdrop] at hitem
    exact ⟨_, hitem, nofun⟩
  | namedBare hw hb hrest => exact ⟨none, .namedBare hw hb, fun _ => hrest⟩

/-- An item is written as an argument. -/
theorem Item.spelled {pos : Nat} {u s : Text} {l : Lexeme} (h : Item pos u l)
    (hs : l.quote = none → EndsItem s) : Spelled u l.argument s := by
  have hunbroken : ∀ {q : Char} {inside : Text}, IsInside q inside →
      ∃ v, Unbroken q v ∧ inside = v ++ [q] := fun hin => by
    obtain ⟨v, hv, hin', _⟩ := (skipQuoted_eq_some_iff hin.1).1 hin.2
    exact ⟨v, hv, hin'⟩
  cases h with
  | quoted hin =>
    obtain ⟨v, hv, rfl⟩ := hunbroken hin
    rw [List.dropLast_concat]
    exact .quoted hin.1 hv s
  | word hw => exact .word hw (hs rfl)
  | namedQuoted hw hin =>
    obtain ⟨v, hv, rfl⟩ := hunbroken hin
    rw [List.dropLast_concat]
    exact .namedQuoted hw hin.1 hv s
  | namedBare hw hb => exact .namedBare hw hb (hs rfl)

/-- What is read off the front is lexed first. -/
theorem Reading.lex_eq {pos p : Nat} {s rest : Text} {args : Arguments}
    (h : Reading pos s args p rest) : lex pos s = (lex p rest).map (args ++ ·) := by
  induction h with
  | here pos s => cases lex pos s <;> rfl
  | blank hc h ih => rw [lex_blank hc, ih]
  | @item pos p u s rest a args hu h ih =>
    obtain ⟨quote, hitem, hrest⟩ := hu.exists_item pos
    rw [lex_item hitem hrest, ih]
    cases lex p rest <;> rfl

/-- Where a reading has come to follows from what it has taken off. -/
theorem Reading.exists_append {pos p : Nat} {s rest : Text} {args : Arguments}
    (h : Reading pos s args p rest) : ∃ u, s = u ++ rest ∧ p = pos + byteLength u := by
  induction h with
  | here pos s => exact ⟨[], rfl, rfl⟩
  | @blank pos p c s rest args hc h ih =>
    obtain ⟨u, rfl, rfl⟩ := ih
    exact ⟨c :: u, rfl, by simp [Nat.add_assoc]⟩
  | @item pos p w s rest a args hw h ih =>
    obtain ⟨u, rfl, rfl⟩ := ih
    exact ⟨w ++ u, by simp, by simp [Nat.add_assoc]⟩

theorem Faults.lex_eq {pos : Nat} {s : Text} {e : ParseError} (h : Faults pos s e) :
    lex pos s = .error e := by
  have hword : ∀ {w : Text}, IsWord w → ∃ c w', w = c :: w' ∧ isBlank c = false := by
    intro w hw
    cases w with
    | nil => exact absurd rfl hw.ne_nil
    | cons c w => exact ⟨c, w, rfl, hw.isBlank c List.mem_cons_self⟩
  cases h with
  | unnamed r => exact lex_error (by decide) (readItem_of_reads (.unnamed r))
  | unclosed h =>
    cases h with
    | quoted hq hopen =>
      exact lex_error (isBlank_of_isWordChar (isWordChar_of_isQuote hq))
        (readItem_of_reads (.unclosed hq ((skipQuoted_eq_none_iff hq).2 hopen)))
    | named hw hq hopen =>
      have hreads : Reads pos _ _ := .namedUnclosed hw hq ((skipQuoted_eq_none_iff hq).2 hopen)
      have hread := readItem_of_reads hreads
      obtain ⟨c, w', rfl, hc⟩ := hword hw
      exact lex_error hc hread

theorem Reads.faults {pos : Nat} {s : Text} {e : ParseError} (h : Reads pos s (.error e)) :
    Faults pos s e := by
  cases h with
  | unclosed hq h => exact .unclosed (.quoted hq ((skipQuoted_eq_none_iff hq).1 h))
  | namedUnclosed hw hq h => exact .unclosed (.named hw hq ((skipQuoted_eq_none_iff hq).1 h))
  | unnamed r => exact .unnamed r

/-- A text is read to its end or to a fault. -/
theorem exists_reading (pos : Nat) (s : Text) : ∃ args p rest, Reading pos s args p rest ∧
    (rest = [] ∨ ∃ e, Faults p rest e) := by
  induction pos, s using item_induction with
  | nil pos => exact ⟨[], pos, [], .here pos [], Or.inl rfl⟩
  | blank pos c r hc ih =>
    obtain ⟨args, p, rest, h, hend⟩ := ih
    exact ⟨args, p, rest, .blank hc h, hend⟩
  | fault pos c r e hc h => exact ⟨[], pos, c :: r, .here pos _, Or.inr ⟨e, h.faults⟩⟩
  | item pos u rest l hl hrest ih =>
    obtain ⟨args, p, tail, h, hend⟩ := ih
    exact ⟨l.argument :: args, p, tail, .item (hl.spelled hrest) h, hend⟩

/-- **A text spells the arguments that are read up to its end.** -/
theorem lex_eq_ok_iff {pos : Nat} {s : Text} {args : Arguments} :
    lex pos s = .ok args ↔ ∃ p, Reading pos s args p [] := by
  constructor
  · intro h
    obtain ⟨args', p, rest, hread, rfl | ⟨e, hfault⟩⟩ := exists_reading pos s
    · rw [hread.lex_eq, lex.eq_def] at h
      cases h
      refine ⟨p, ?_⟩
      show Reading pos s (args' ++ []) p []
      rwa [List.append_nil]
    · rw [hread.lex_eq, hfault.lex_eq] at h
      cases h
  · rintro ⟨p, hread⟩
    rw [hread.lex_eq, lex.eq_def]
    exact congrArg Except.ok (List.append_nil args)

/-- **A text is at fault where the first argument that cannot be read begins.** -/
theorem lex_eq_error_iff {pos : Nat} {s : Text} {e : ParseError} :
    lex pos s = .error e ↔ ∃ args p rest, Reading pos s args p rest ∧ Faults p rest e := by
  constructor
  · intro h
    obtain ⟨args, p, rest, hread, rfl | ⟨e', hfault⟩⟩ := exists_reading pos s
    · rw [hread.lex_eq, lex.eq_def] at h
      cases h
    · rw [hread.lex_eq, hfault.lex_eq] at h
      cases h
      exact ⟨args, p, rest, hread, hfault⟩
  · rintro ⟨args, p, rest, hread, hfault⟩
    rw [hread.lex_eq, hfault.lex_eq]
    rfl

end Arguments

/-! ## Ends of a text -/

/-- Blanks at the end are dropped, and nothing in front of them. -/
theorem trimEnd_append_blanks {t blanks : Text} (ht : ∀ c ∈ t.getLast?, isBlank c = false)
    (hblanks : ∀ c ∈ blanks, isBlank c = true) : trimEnd (t ++ blanks) = t := by
  have hnil : trimEnd blanks = [] := by
    induction blanks with
    | nil => rfl
    | cons c blanks ih =>
      rw [List.forall_mem_cons] at hblanks
      simp [trimEnd, ih hblanks.2, hblanks.1]
  induction t with
  | nil => exact hnil
  | cons c t ih =>
    cases t with
    | nil => simp [trimEnd, hnil, ht c rfl]
    | cons d t =>
      rw [List.cons_append, trimEnd, ih (by simpa [List.getLast?_cons] using ht)]

theorem isBlank_of_getLast?_trimEnd {t : Text} : ∀ c ∈ (trimEnd t).getLast?, isBlank c = false := by
  induction t with
  | nil => simp [trimEnd]
  | cons c t ih =>
    unfold trimEnd
    split
    · cases hc : isBlank c with
      | true => simp
      | false => simpa using hc
    · next d r h =>
      rw [h] at ih
      simpa [List.getLast?_cons] using ih

/-- Blanks and then a slash are split off the end in one way. -/
theorem Tag.body_iff {rest body : Text} {kind : TagKind} :
    Body rest body kind ↔ splitSlash (trimEnd rest) = (body, kind) := by
  constructor
  · intro h
    cases h with
    | @opening body blanks hblanks hbody =>
      rw [trimEnd_append_blanks (fun c hc => (hbody c hc).1) hblanks, splitSlash, if_neg]
      exact fun hlast => (hbody '/' hlast).2 rfl
    | @selfClosing body blanks hblanks =>
      have happ : body ++ '/' :: blanks = (body ++ ['/']) ++ blanks := by simp
      rw [happ, trimEnd_append_blanks (by simp; decide) hblanks, splitSlash, if_pos (by simp),
        List.dropLast_concat]
  · intro h
    obtain ⟨blanks, happ, hblanks⟩ := exists_trimEnd_append rest
    have hlast := isBlank_of_getLast?_trimEnd (t := rest)
    generalize trimEnd rest = t at h happ hlast
    unfold splitSlash at h
    split at h
    · next hslash =>
      cases h
      rw [← happ, ← List.dropLast_append_getLast? _ hslash, List.append_assoc,
        List.dropLast_concat]
      exact .selfClosing hblanks
    · next hslash =>
      cases h
      rw [← happ]
      refine .opening hblanks fun c hc => ⟨hlast c hc, ?_⟩
      rintro rfl
      exact hslash hc

/-! ## Tags -/

namespace Tag

theorem inner?_eq_some_iff {raw inner : Text} :
    inner? raw = some inner ↔ raw = '[' :: (inner ++ [']']) := by
  constructor
  · intro h
    unfold inner? at h
    split at h
    · split at h
      · next r hlast =>
        cases h
        rw [List.dropLast_append_getLast? _ hlast]
      · cases h
    · cases h
  · rintro rfl
    simp [inner?]

theorem inner?_eq_none_iff {raw : Text} :
    inner? raw = none ↔ ∀ inner, raw ≠ '[' :: (inner ++ [']']) := by
  simp only [Option.eq_none_iff_forall_ne_some, ne_eq, inner?_eq_some_iff]

/-- A name and blanks are told apart. -/
theorem isCloser_iff {name inner : Text} :
    IsCloser name inner ↔ isTagName name = true ∧ trimEnd inner = name := by
  refine and_congr_right fun hname => ?_
  constructor
  · rintro ⟨blanks, hblanks, rfl⟩
    refine trimEnd_append_blanks (fun c hc => ?_) hblanks
    have hchar := isNameChar_of_mem hname c (List.mem_of_getLast? hc)
    cases hblank : isBlank c with
    | false => rfl
    | true =>
      rw [isNameChar_eq_false_of_isBlank hblank] at hchar
      cases hchar
  · rintro rfl
    obtain ⟨blanks, happ, hblanks⟩ := exists_trimEnd_append inner
    exact ⟨blanks, hblanks, happ.symm⟩

/-- A name is split off in one way. -/
theorem opens_iff {raw inner name rest : Text} (hraw : raw = '[' :: (inner ++ [']'])) :
    Opens raw name rest ↔ inner.takeWhile isNameChar = name ∧ inner.dropWhile isNameChar = rest ∧
      isTagName name = true ∧ endsName rest = true := by
  constructor
  · rintro ⟨hraw', hname, _, hrest⟩
    have hinner : inner = name ++ rest := by
      rw [hraw, List.cons.injEq, ← List.append_assoc] at hraw'
      exact List.append_cancel_right hraw'.2
    obtain ⟨htake, hdrop⟩ := takeWhile_name hname hrest
    exact ⟨by rw [hinner, htake], by rw [hinner, hdrop], hname, hrest⟩
  · rintro ⟨rfl, rfl, hname, hrest⟩
    refine ⟨?_, hname, isNameChar_head?_of_endsName hrest, hrest⟩
    rw [hraw, ← List.append_assoc, List.takeWhile_append_dropWhile]

theorem parse_of_opens {raw name rest : Text} (h : Opens raw name rest) (start : Nat) :
    parse raw start =
      match Arguments.lex (start + 1 + byteLength name) (splitSlash (trimEnd rest)).1 with
      | .ok args => .ok ⟨name, (splitSlash (trimEnd rest)).2, args, raw, start⟩
      | .error e => .error e := by
  rw [h.raw_eq]
  exact parse_name h.isTagName h.separated start

theorem parse_closer {raw inner : Text} (hraw : raw = '[' :: '/' :: (inner ++ [']']))
    (start : Nat) : parse raw start =
      if isTagName (trimEnd inner) then .ok ⟨trimEnd inner, .closing, [], raw, start⟩
      else .error (.invalidCloseTag raw start) := by
  have hinner : inner? raw = some ('/' :: inner) := inner?_eq_some_iff.2 hraw
  simp only [parse, hinner]

theorem parse_other {raw inner : Text} (hraw : raw = '[' :: (inner ++ [']']))
    (hslash : inner.head? ≠ some '/') (hno : ∀ name rest, ¬ Opens raw name rest) (start : Nat) :
    parse raw start = .error (.invalidTagName (firstWord inner) start) := by
  have hinner : inner? raw = some inner := inner?_eq_some_iff.2 hraw
  have hsplit : (isTagName (inner.takeWhile isNameChar) &&
      endsName (inner.dropWhile isNameChar)) ≠ true := by
    intro h
    rw [Bool.and_eq_true] at h
    exact hno _ _ ((opens_iff hraw).2 ⟨rfl, rfl, h.1, h.2⟩)
  rw [parse, hinner]
  split
  · next h => cases h
  · next h =>
    cases h
    exact absurd rfl hslash
  · next h =>
    cases h
    exact if_neg hsplit

/-- A tag is read for what the grammar says. -/
theorem Parses.parse_eq {raw : Text} {start : Nat} {x : Except ParseError Tag}
    (h : Parses raw start x) : parse raw start = x := by
  cases h with
  | closing hraw h =>
    obtain ⟨hname, rfl⟩ := isCloser_iff.1 h
    rw [parse_closer hraw, if_pos hname]
  | other h =>
    obtain ⟨rest, body, hopens, hbody, hread⟩ := h
    simp only [parse_of_opens hopens, body_iff.1 hbody, Arguments.lex_eq_ok_iff.2 ⟨_, hread⟩]
  | fault h =>
    cases h with
    | unbracketed h =>
      rw [parse, inner?_eq_none_iff.2 h]
    | @closer inner hraw hno =>
      rw [parse_closer hraw, if_neg]
      exact fun hname => hno _ (isCloser_iff.2 ⟨hname, rfl⟩)
    | name hraw hslash hno => exact parse_other hraw hslash hno start
    | argument h hfault =>
      obtain ⟨rest, body, hopens, hbody, hread⟩ := h
      simp only [parse_of_opens hopens, body_iff.1 hbody,
        Arguments.lex_eq_error_iff.2 ⟨_, _, _, hread, hfault⟩]

/-- The grammar says something of every text. -/
theorem exists_parses (raw : Text) (start : Nat) : ∃ x, Parses raw start x := by
  by_cases hbracket : ∃ inner, raw = '[' :: (inner ++ [']'])
  · obtain ⟨inner, hraw⟩ := hbracket
    by_cases hslash : inner.head? = some '/'
    · obtain ⟨r, rfl⟩ := List.head?_eq_some_iff.1 hslash
      by_cases hcloser : ∃ name, IsCloser name r
      · obtain ⟨name, hname⟩ := hcloser
        exact ⟨_, .closing hraw hname⟩
      · exact ⟨_, .fault (.closer hraw fun name hname => hcloser ⟨name, hname⟩)⟩
    · by_cases hopens : ∃ name rest, Opens raw name rest
      · obtain ⟨name, rest, hopens⟩ := hopens
        obtain ⟨body, kind, hsplit⟩ : ∃ body kind, splitSlash (trimEnd rest) = (body, kind) :=
          ⟨_, _, rfl⟩
        obtain ⟨args, p, tail, hread, rfl | ⟨e, hfault⟩⟩ :=
          Arguments.exists_reading (start + 1 + byteLength name) body
        · exact ⟨_, .other ⟨rest, body, hopens, body_iff.2 hsplit, hread⟩⟩
        · exact ⟨_, .fault (.argument ⟨rest, body, hopens, body_iff.2 hsplit, hread⟩ hfault)⟩
      · exact ⟨_, .fault (.name hraw hslash fun name rest h => hopens ⟨name, rest, h⟩)⟩
  · exact ⟨_, .fault (.unbracketed fun inner h => hbracket ⟨inner, h⟩)⟩

theorem parse_eq_iff {raw : Text} {start : Nat} {x : Except ParseError Tag} :
    parse raw start = x ↔ Parses raw start x := by
  constructor
  · rintro rfl
    obtain ⟨x, hx⟩ := exists_parses raw start
    rwa [hx.parse_eq]
  · exact Parses.parse_eq

theorem parse_eq_error_iff {raw : Text} {start : Nat} {e : ParseError} :
    parse raw start = .error e ↔ Faults raw start e := by
  rw [parse_eq_iff]
  constructor
  · rintro ⟨⟩
    assumption
  · exact .fault

/-- The kind that is left of a marker is not that of a closing tag. -/
theorem Body.ne_closing {rest body : Text} {kind : TagKind} (h : Body rest body kind) :
    kind ≠ .closing := by
  cases h <;> simp

/-- **A text is read as a tag just as the grammar says.**  A closing tag is a name and blanks behind
`[/`.  Any other tag is a name, and behind it the arguments that can be read up to the end, without
the blanks and then one slash that end them.  What is no tag has no brackets around it, or is no
closing tag though it starts like one, or has no separated name, or the first argument that cannot be
read starts with an equals sign or does not close its quote. -/
theorem parse_grammar (raw : Text) (start : Nat) :
    (∀ t, parse raw start = .ok t → t.raw = raw ∧ t.start = start) ∧
    (∀ name args, parse raw start = .ok ⟨name, .closing, args, raw, start⟩ ↔
      args = [] ∧ ∃ inner, raw = '[' :: '/' :: (inner ++ [']']) ∧ IsCloser name inner) ∧
    (∀ name kind args, kind ≠ .closing →
      (parse raw start = .ok ⟨name, kind, args, raw, start⟩ ↔
        ∃ p, ReadsTo raw start name kind args p [])) ∧
    (∀ o, parse raw start = .error (.unterminatedTag o) ↔
      o = start ∧ ∀ inner, raw ≠ '[' :: (inner ++ [']'])) ∧
    (∀ r o, parse raw start = .error (.invalidCloseTag r o) ↔ r = raw ∧ o = start ∧
      ∃ inner, raw = '[' :: '/' :: (inner ++ [']']) ∧ ∀ name, ¬ IsCloser name inner) ∧
    (∀ w o, parse raw start = .error (.invalidTagName w o) ↔ o = start ∧
      ∃ inner, raw = '[' :: (inner ++ [']']) ∧ inner.head? ≠ some '/' ∧ w = firstWord inner ∧
        ∀ name rest, ¬ Opens raw name rest) ∧
    (∀ o, parse raw start = .error (.emptyArgumentName o) ↔
      ∃ name kind args r, ReadsTo raw start name kind args o ('=' :: r)) ∧
    (∀ o, parse raw start = .error (.unterminatedQuote o) ↔
      ∃ name kind args p tail, ReadsTo raw start name kind args p tail ∧
        Arguments.Unclosed p tail o) ∧
    ∀ e, parse raw start = .error e → (∃ o, e = .unterminatedTag o) ∨
      (∃ r o, e = .invalidCloseTag r o) ∨ (∃ w o, e = .invalidTagName w o) ∨
      (∃ o, e = .emptyArgumentName o) ∨ ∃ o, e = .unterminatedQuote o := by
  simp only [parse_eq_error_iff]
  refine ⟨fun t ht => raw_start_of_parse ht, fun name args => ?_, fun name kind args hkind => ?_,
    fun o => ?_, fun r o => ?_, fun w o => ?_, fun o => ?_, fun o => ?_, fun e he => ?_⟩
  · rw [parse_eq_iff]
    constructor
    · intro h
      cases h with
      | closing hraw h => exact ⟨rfl, _, hraw, h⟩
      | other h =>
        obtain ⟨rest, body, _, hbody, _⟩ := h
        exact absurd rfl hbody.ne_closing
    · rintro ⟨rfl, inner, hraw, h⟩
      exact .closing hraw h
  · rw [parse_eq_iff]
    constructor
    · intro h
      cases h with
      | closing hraw h => exact absurd rfl hkind
      | other h => exact ⟨_, h⟩
    · rintro ⟨p, h⟩
      exact .other h
  · constructor
    · rintro (h | _ | _ | ⟨_, ⟨⟩⟩)
      exact ⟨rfl, h⟩
    · rintro ⟨rfl, h⟩
      exact .unbracketed h
  · constructor
    · intro h
      cases h with
      | closer hraw hno => exact ⟨rfl, rfl, _, hraw, hno⟩
      | argument h hfault => cases hfault
    · rintro ⟨rfl, rfl, inner, hraw, hno⟩
      exact .closer hraw hno
  · constructor
    · intro h
      cases h with
      | name hraw hslash hno => exact ⟨rfl, _, hraw, hslash, rfl, hno⟩
      | argument h hfault => cases hfault
    · rintro ⟨rfl, inner, hraw, hslash, rfl, hno⟩
      exact .name hraw hslash hno
  · constructor
    · intro h
      cases h with
      | argument h hfault =>
        cases hfault with
        | unnamed r => exact ⟨_, _, _, r, h⟩
    · rintro ⟨name, kind, args, r, h⟩
      exact .argument h (.unnamed r)
  · constructor
    · intro h
      cases h with
      | argument h hfault =>
        cases hfault with
        | unclosed hopen => exact ⟨_, _, _, _, _, h, hopen⟩
    · rintro ⟨name, kind, args, p, tail, h, hopen⟩
      exact .argument h (.unclosed hopen)
  · cases he with
    | unbracketed h => exact Or.inl ⟨_, rfl⟩
    | closer hraw hno => exact Or.inr (Or.inl ⟨_, _, rfl⟩)
    | name hraw hslash hno => exact Or.inr (Or.inr (Or.inl ⟨_, _, rfl⟩))
    | argument h hfault =>
      cases hfault with
      | unnamed r => exact Or.inr (Or.inr (Or.inr (Or.inl ⟨_, rfl⟩)))
      | unclosed hopen => exact Or.inr (Or.inr (Or.inr (Or.inr ⟨_, rfl⟩)))

end Tag

end Tagtext
