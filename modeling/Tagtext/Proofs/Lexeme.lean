import Tagtext.Argument
import Tagtext.Proofs.Skim

/-!
# Arguments as they are written

`Item pos u l` says how one argument is written; `Reads pos s r` adds what may
be wrong and what may follow, one constructor for each way.  `readItem` does
just that:

    Reads pos s r → readItem pos s = r                              (readItem_of_reads)
    Reads pos (c :: s) r for some r, if c is not blank              (exists_reads)

`lexemes` reads arguments as `lex` does and notes the quoted values.
-/

namespace Tagtext.Arguments

/-! ## Items -/

/-- An argument, and the quoted value it is read from unless its value is bare. -/
structure Lexeme where
  argument : Argument
  quote : Option QuotedSpan
  deriving DecidableEq, Repr

/-- A bare word, or the name of an argument. -/
structure IsWord (w : Text) : Prop where
  ne_nil : w ≠ []
  all : ∀ c ∈ w, isWordChar c = true
  head : ∀ c ∈ w.head?, isQuote c = false

/-- A text behind an opening quote that ends with the closing one. -/
def IsInside (q : Char) (inside : Text) : Prop :=
  isQuote q = true ∧ skipQuoted q inside = some (inside, [])

/-- A bare value, which may be empty. -/
structure IsBare (b : Text) : Prop where
  all : ∀ c ∈ b, isBlank c = false
  head : ∀ c ∈ b.head?, isQuote c = false

/-- How an argument at the offset `pos` is written. -/
inductive Item (pos : Nat) : Text → Lexeme → Prop
  | quoted {q : Char} {inside : Text} (h : IsInside q inside) :
      Item pos (q :: inside) ⟨.positional (unescape inside.dropLast), some ⟨pos, q :: inside⟩⟩
  | word {w : Text} (hw : IsWord w) : Item pos w ⟨.positional w, none⟩
  | namedQuoted {w : Text} {q : Char} {inside : Text} (hw : IsWord w) (h : IsInside q inside) :
      Item pos (w ++ '=' :: q :: inside)
        ⟨.named w (unescape inside.dropLast), some ⟨pos + byteLength w + 1, q :: inside⟩⟩
  | namedBare {w b : Text} (hw : IsWord w) (hb : IsBare b) :
      Item pos (w ++ '=' :: b) ⟨.named w b, none⟩

/-- A text ends here, or goes on with a blank. -/
def EndsItem (s : Text) : Prop := ∀ c ∈ s.head?, isBlank c = true

/-- What reading the item at the start of a text comes to, `pos` being its offset. -/
inductive Reads (pos : Nat) : Text → Except ParseError (Argument × Text) → Prop
  | item {u rest : Text} {l : Lexeme} (h : Item pos u l) (hrest : l.quote = none → EndsItem rest) :
      Reads pos (u ++ rest) (.ok (l.argument, rest))
  /-- A quoted value that does not end. -/
  | unclosed {q : Char} {r : Text} (hq : isQuote q = true) (h : skipQuoted q r = none) :
      Reads pos (q :: r) (.error (.unterminatedQuote pos))
  | namedUnclosed {w : Text} {q : Char} {r : Text} (hw : IsWord w) (hq : isQuote q = true)
      (h : skipQuoted q r = none) :
      Reads pos (w ++ '=' :: q :: r) (.error (.unterminatedQuote (pos + byteLength w + 1)))
  /-- An equals sign without a name. -/
  | unnamed (r : Text) : Reads pos ('=' :: r) (.error (.emptyArgumentName pos))

/-! ## Lemmas -/

theorem isWordChar_of_isQuote {c : Char} (h : isQuote c = true) : isWordChar c = true := by
  simp only [isQuote, Bool.or_eq_true, beq_iff_eq] at h
  rcases h with rfl | rfl <;> decide

theorem isBlank_of_isWordChar {c : Char} (h : isWordChar c = true) : isBlank c = false := by
  simp only [isWordChar, Bool.and_eq_true, Bool.not_eq_true'] at h
  exact h.1

theorem isQuote_of_isBlank {c : Char} (h : isBlank c = true) : isQuote c = false :=
  (plain_of_isBlank h).2.2

theorem ne_equals_of_isBlank {c : Char} (h : isBlank c = true) : c ≠ '=' := by
  rintro rfl
  revert h
  decide

theorem isInside_of_skipQuoted {q : Char} {s inside rest : Text} (hq : isQuote q = true)
    (h : skipQuoted q s = some (inside, rest)) : IsInside q inside :=
  ⟨hq, by simpa using skipQuoted_cut hq h []⟩

theorem IsInside.skipQuoted_append {q : Char} {inside : Text} (h : IsInside q inside) (x : Text) :
    skipQuoted q (inside ++ x) = some (inside, x) :=
  skipQuoted_cut h.1 h.2 x

/-! ## Words in a marker -/

section
variable {w : Text} (hw : IsWord w)
include hw

theorem IsWord.isBlank : ∀ c ∈ w, isBlank c = false :=
  fun c hc => isBlank_of_isWordChar (hw.all c hc)

theorem IsWord.ne_equals : ∀ c ∈ w, c ≠ '=' := by
  rintro c hc rfl
  cases hw.all '=' hc

theorem IsWord.noneBehindEquals : NoneBehindEquals w := by
  have hne := hw.ne_equals
  clear hw
  induction w with
  | nil => exact .nil
  | cons c w ih =>
    simp only [List.forall_mem_cons] at hne
    exact noneBehindEquals_cons.2 ⟨fun he => absurd he hne.1, ih hne.2⟩

theorem IsWord.opensBehind (v : Bool) : opensBehind v w = false := by
  unfold Tagtext.opensBehind
  cases hl : w.getLast? with
  | none => exact absurd (List.getLast?_eq_none_iff.1 hl) hw.ne_nil
  | some c => simpa using hw.ne_equals c (List.mem_of_getLast? hl)

/-- A word is gone over as it is; no quote opens a value behind it. -/
theorem skim_word (hb : ∀ c ∈ w, c ≠ ']' ∧ c ≠ '[') (v : Bool) (pos : Nat) (t : Text) :
    skim v pos (w ++ t) = skim false (pos + byteLength w) t := by
  rw [skim_plain hw.isBlank hw.noneBehindEquals hb (fun _ => hw.head), hw.opensBehind]

/-- Behind a name and its equals sign a quote opens a value. -/
theorem skim_named (hb : ∀ c ∈ w, c ≠ ']' ∧ c ≠ '[') (v : Bool) (pos : Nat) (t : Text) :
    skim v pos (w ++ '=' :: t) = skim true (pos + byteLength w + 1) t := by
  rw [skim_word hw hb, skim_other (by decide) (by decide) (by simp)]
  rfl

theorem ne_bracket_of_skim_word {v : Bool} {pos : Nat} {t : Text} {k : List QuotedSpan × Bool}
    (h : skim v pos (w ++ t) = some k) : ∀ c ∈ w, c ≠ ']' ∧ c ≠ '[' :=
  ne_bracket_of_skim_plain hw.isBlank hw.noneBehindEquals (fun _ => hw.head) h

end

/-! ## Reading -/

/-- The value behind an equals sign, quoted. -/
theorem readValue_quoted {q : Char} (hq : isQuote q = true) (pos : Nat) (r : Text) :
    readValue pos (q :: r) =
      match skipQuoted q r with
      | some (inside, rest) => .ok (unescape inside.dropLast, rest)
      | none => .error (.unterminatedQuote pos) := by
  rw [readValue]
  simp only [hq, if_true, readQuoted_eq hq]
  cases skipQuoted q r <;> rfl

/-- The value behind an equals sign, bare. -/
theorem readValue_bare {b rest : Text} (hb : IsBare b) (hrest : EndsItem rest) (pos : Nat) :
    readValue pos (b ++ rest) = .ok (b, rest) := by
  have hstop : ∀ c ∈ rest.head?, (!isBlank c) = false := by
    intro c hc
    simp [hrest c hc]
  obtain ⟨htake, hdrop⟩ :=
    takeWhile_append_of_stop (p := (!isBlank ·)) (by simpa using hb.all) hstop
  have hhead : ∀ c ∈ (b ++ rest).head?, isQuote c = false := by
    intro c hc
    cases b with
    | nil => exact isQuote_of_isBlank (hrest c hc)
    | cons d b => exact hb.head c hc
  cases hs : b ++ rest with
  | nil =>
    obtain ⟨rfl, rfl⟩ := List.append_eq_nil_iff.1 hs
    rfl
  | cons c s =>
    rw [hs] at hhead htake hdrop
    have hc : isQuote c = false := hhead c rfl
    simp only [readValue, hc, Bool.false_eq_true, if_false, htake, hdrop]

/-- A bare value ends at a blank. -/
theorem exists_bare {s : Text} (hs : ∀ c ∈ s.head?, isQuote c = false) :
    ∃ b rest, s = b ++ rest ∧ IsBare b ∧ EndsItem rest := by
  refine ⟨s.takeWhile (!isBlank ·), s.dropWhile (!isBlank ·), ?_, ⟨fun c hc => ?_, ?_⟩, ?_⟩
  · exact List.takeWhile_append_dropWhile.symm
  · simpa using List.all_eq_true.1 List.all_takeWhile c hc
  · intro c hc
    cases s with
    | nil => cases hc
    | cons d s =>
      cases hd : isBlank d with
      | true => simp [hd] at hc
      | false =>
        simp only [List.takeWhile_cons, hd, Bool.not_false, if_true] at hc
        exact hs c hc
  · intro c hc
    have h := List.head?_dropWhile_not (!isBlank ·) s
    rw [Option.mem_def.1 hc] at h
    simpa using h

theorem readItem_word {w rest : Text} (hw : IsWord w) (hrest : EndsItem rest) (pos : Nat) :
    readItem pos (w ++ rest) = .ok (.positional w, rest) := by
  have hstop : ∀ c ∈ rest.head?, isWordChar c = false := by
    intro c hc
    simp [isWordChar, hrest c hc]
  obtain ⟨htake, hdrop⟩ := takeWhile_append_of_stop hw.all hstop
  cases w with
  | nil => exact absurd rfl hw.ne_nil
  | cons c w =>
    have hq : isQuote c = false := hw.head c rfl
    rw [List.cons_append] at htake hdrop ⊢
    simp only [readItem, hq, Bool.false_eq_true, if_false, htake, hdrop]
    split
    · exact absurd rfl (ne_equals_of_isBlank (hrest '=' rfl))
    · rfl

theorem readItem_named {w : Text} (hw : IsWord w) (pos : Nat) (behind : Text) :
    readItem pos (w ++ '=' :: behind) =
      match readValue (pos + byteLength w + 1) behind with
      | .ok (value, rest) => .ok (.named w value, rest)
      | .error e => .error e := by
  have hstop : ∀ c ∈ ('=' :: behind).head?, isWordChar c = false := by
    intro c hc
    cases hc
    decide
  obtain ⟨htake, hdrop⟩ := takeWhile_append_of_stop hw.all hstop
  cases w with
  | nil => exact absurd rfl hw.ne_nil
  | cons c w =>
    have hq : isQuote c = false := hw.head c rfl
    rw [List.cons_append] at htake hdrop ⊢
    rw [readItem, if_neg (by simp [hq]), htake, hdrop]
    exact if_neg (by simp)

/-- What is listed is read for what is said. -/
theorem readItem_of_reads {pos : Nat} {s : Text} {x : Except ParseError (Argument × Text)}
    (h : Reads pos s x) : readItem pos s = x := by
  cases h with
  | item h hrest =>
    cases h with
    | quoted h =>
      rw [List.cons_append, readItem]
      simp [h.1, readQuoted_eq h.1, h.skipQuoted_append]
    | word hw => exact readItem_word hw (hrest rfl) pos
    | namedQuoted hw h =>
      rw [List.append_assoc, List.cons_append, List.cons_append, readItem_named hw]
      simp only [readValue_quoted h.1, h.skipQuoted_append]
    | namedBare hw hb =>
      rw [List.append_assoc, List.cons_append, readItem_named hw]
      simp only [readValue_bare hb (hrest rfl)]
  | unclosed hq h => simp [readItem, hq, readQuoted_eq hq, h]
  | namedUnclosed hw hq h =>
    rw [readItem_named hw]
    simp only [readValue_quoted hq, h]
  | unnamed r => rfl

/-- What stands behind a name and its equals sign is one of the listed things. -/
theorem exists_reads_named {w : Text} (hw : IsWord w) (pos : Nat) (behind : Text) :
    ∃ x, Reads pos (w ++ '=' :: behind) x := by
  by_cases hbare : ∀ c ∈ behind.head?, isQuote c = false
  · obtain ⟨b, rest, rfl, hb, hrest⟩ := exists_bare hbare
    have h : Reads pos ((w ++ '=' :: b) ++ rest) _ := .item (.namedBare hw hb) fun _ => hrest
    rw [List.append_assoc] at h
    exact ⟨_, h⟩
  · cases behind with
    | nil => simp at hbare
    | cons q r =>
      have hq : isQuote q = true := by simpa using hbare
      cases hs : skipQuoted q r with
      | none => exact ⟨_, .namedUnclosed hw hq hs⟩
      | some k =>
        have h : Reads pos ((w ++ '=' :: q :: k.1) ++ k.2) _ :=
          .item (.namedQuoted hw (isInside_of_skipQuoted hq hs)) nofun
        rw [List.append_assoc, List.cons_append, List.cons_append, skipQuoted_append hs] at h
        exact ⟨_, h⟩

/-- What begins with a word is one of the listed things: what the word ends at tells which. -/
theorem exists_reads_word {c : Char} (hc : isWordChar c = true) (hq : isQuote c = false) (pos : Nat)
    (r : Text) : ∃ x, Reads pos (c :: r) x := by
  have hword : IsWord ((c :: r).takeWhile isWordChar) := by
    refine ⟨by simp [hc], List.all_eq_true.1 List.all_takeWhile, ?_⟩
    simpa [hc] using hq
  have hsplit := List.takeWhile_append_dropWhile (p := isWordChar) (l := c :: r)
  have hstop := List.head?_dropWhile_not isWordChar (c :: r)
  generalize (c :: r).takeWhile isWordChar = w at hword hsplit
  generalize (c :: r).dropWhile isWordChar = behind at hsplit hstop
  rw [← hsplit]
  cases behind with
  | nil => exact ⟨_, .item (.word hword) fun _ => by simp [EndsItem]⟩
  | cons d behind =>
    by_cases hd : d = '='
    · subst hd
      exact exists_reads_named hword pos behind
    · refine ⟨_, .item (.word hword) fun _ e he => ?_⟩
      cases he
      simpa [isWordChar, hd] using hstop

/-- Every item is one of the listed ones. -/
theorem exists_reads (pos : Nat) {c : Char} (hc : isBlank c = false) (r : Text) :
    ∃ x, Reads pos (c :: r) x := by
  by_cases hq : isQuote c = true
  · cases hs : skipQuoted c r with
    | none => exact ⟨_, .unclosed hq hs⟩
    | some k =>
      have h : Reads pos ((c :: k.1) ++ k.2) _ :=
        .item (.quoted (isInside_of_skipQuoted hq hs)) nofun
      rw [List.cons_append, skipQuoted_append hs] at h
      exact ⟨_, h⟩
  · by_cases he : c = '='
    · subst he
      exact ⟨_, .unnamed r⟩
    · exact exists_reads_word (by simp [isWordChar, hc, he]) (by simpa using hq) pos r

/-! ## All arguments -/

/-- The quoted value in an item that is written like this. -/
def quoteIn (pos : Nat) : Text → Option QuotedSpan
  | [] => none
  | c :: r =>
    if isQuote c then some ⟨pos, c :: r⟩
    else
      match (c :: r).dropWhile isWordChar with
      | '=' :: q :: inside =>
        if isQuote q then
          some ⟨pos + byteLength ((c :: r).takeWhile isWordChar) + 1, q :: inside⟩
        else none
      | _ => none

/-- The arguments that a text spells, as `lex` reads them, each with its quoted value. -/
def lexemes (pos : Nat) (s : Text) : Except ParseError (List Lexeme) :=
  match s with
  | [] => .ok []
  | c :: r =>
    if hc : isBlank c then lexemes (pos + c.utf8Size) r
    else
      match h : readItem pos (c :: r) with
      | .error e => .error e
      | .ok (a, rest) =>
        have : rest.length < (c :: r).length := length_readItem (by simpa using hc) h
        let written := (c :: r).take ((c :: r).length - rest.length)
        match lexemes (pos + (byteLength (c :: r) - byteLength rest)) rest with
        | .error e => .error e
        | .ok more => .ok (⟨a, quoteIn pos written⟩ :: more)
termination_by s.length
decreasing_by
  · exact Nat.lt_succ_self _
  · exact this

/-- The quoted values among some arguments. -/
def quotesOf (ls : List Lexeme) : List QuotedSpan := ls.filterMap (·.quote)

@[simp] theorem quotesOf_nil : quotesOf [] = [] := rfl

theorem quotesOf_cons (l : Lexeme) (ls : List Lexeme) :
    quotesOf (l :: ls) = l.quote.toList ++ quotesOf ls := by
  unfold quotesOf
  rw [List.filterMap_cons]
  cases l.quote <;> rfl

/-- The quoted value of an item is found where it stands. -/
theorem quoteIn_of_item {pos : Nat} {u : Text} {l : Lexeme} (h : Item pos u l) :
    quoteIn pos u = l.quote := by
  cases h with
  | quoted h => simp [quoteIn, h.1]
  | word hw =>
    cases u with
    | nil => rfl
    | cons c w =>
      have hdrop : (c :: w).dropWhile isWordChar = [] := by
        simpa only [List.append_nil] using (takeWhile_append_of_stop (t := []) hw.all (by simp)).2
      simp only [quoteIn, hw.head c rfl, hdrop, Bool.false_eq_true, if_false]
  | namedQuoted hw h =>
    rename_i w q inside
    obtain ⟨htake, hdrop⟩ :=
      takeWhile_append_of_stop (t := '=' :: q :: inside) hw.all (by simp [isWordChar])
    cases w with
    | nil => exact absurd rfl hw.ne_nil
    | cons c w =>
      rw [List.cons_append] at htake hdrop ⊢
      simp only [quoteIn, hw.head c rfl, hdrop, htake, h.1, Bool.false_eq_true, if_false, if_true]
  | namedBare hw hb =>
    rename_i w b
    obtain ⟨htake, hdrop⟩ := takeWhile_append_of_stop (t := '=' :: b) hw.all (by simp [isWordChar])
    cases w with
    | nil => exact absurd rfl hw.ne_nil
    | cons c w =>
      rw [List.cons_append] at htake hdrop ⊢
      cases b with
      | nil => simp only [quoteIn, hw.head c rfl, hdrop, Bool.false_eq_true, if_false]
      | cons q b =>
        simp only [quoteIn, hw.head c rfl, hb.head q rfl, hdrop, Bool.false_eq_true, if_false]

theorem Item.exists_cons {pos : Nat} {u : Text} {l : Lexeme} (h : Item pos u l) :
    ∃ c r, u = c :: r ∧ isBlank c = false := by
  have word : ∀ {w : Text}, IsWord w → ∃ c r, w = c :: r ∧ isBlank c = false := by
    intro w hw
    cases w with
    | nil => exact absurd rfl hw.ne_nil
    | cons c w => exact ⟨c, w, rfl, isBlank_of_isWordChar (hw.all c List.mem_cons_self)⟩
  cases h with
  | quoted h => exact ⟨_, _, rfl, isBlank_of_isWordChar (isWordChar_of_isQuote h.1)⟩
  | word hw => exact word hw
  | namedQuoted hw _ =>
    obtain ⟨c, r, rfl, hc⟩ := word hw
    exact ⟨c, _, rfl, hc⟩
  | namedBare hw _ =>
    obtain ⟨c, r, rfl, hc⟩ := word hw
    exact ⟨c, _, rfl, hc⟩

@[simp] theorem lexemes_nil (pos : Nat) : lexemes pos [] = .ok [] := by
  rw [lexemes.eq_def]

theorem lexemes_blank {c : Char} (hc : isBlank c = true) (pos : Nat) (r : Text) :
    lexemes pos (c :: r) = lexemes (pos + c.utf8Size) r := by
  rw [lexemes.eq_def]
  simp only [hc, dite_true]

theorem lexemes_error {pos : Nat} {c : Char} {r : Text} {e : ParseError} (hc : isBlank c = false)
    (h : readItem pos (c :: r) = .error e) : lexemes pos (c :: r) = .error e := by
  rw [lexemes.eq_def]
  simp only [hc, Bool.false_eq_true, dite_false]
  split
  · next e' h' =>
    rw [h] at h'
    cases h'
    rfl
  · next h' =>
    rw [h] at h'
    cases h'

theorem lexemes_item {pos : Nat} {u rest : Text} {l : Lexeme} (h : Item pos u l)
    (hrest : l.quote = none → EndsItem rest) :
    lexemes pos (u ++ rest) = (lexemes (pos + byteLength u) rest).map (l :: ·) := by
  have hread := readItem_of_reads (Reads.item h hrest)
  have hlen : (u ++ rest).length - rest.length = u.length := by simp
  have hbytes : byteLength (u ++ rest) - byteLength rest = byteLength u := by simp
  obtain ⟨c, r, rfl, hc⟩ := h.exists_cons
  rw [List.cons_append] at hread hlen hbytes ⊢
  rw [lexemes.eq_def]
  simp only [hc, Bool.false_eq_true, dite_false]
  split
  · next h' =>
    rw [hread] at h'
    cases h'
  · next a rest' h' =>
    rw [hread] at h'
    cases h'
    rw [hlen, hbytes, ← List.cons_append, List.take_left', quoteIn_of_item h]
    · cases lexemes (pos + byteLength (c :: r)) rest <;> rfl
    · rfl

theorem exists_of_lexemes_item {pos : Nat} {u rest : Text} {l : Lexeme} {ls : List Lexeme}
    (h : Item pos u l) (hrest : l.quote = none → EndsItem rest)
    (hls : lexemes pos (u ++ rest) = .ok ls) :
    ∃ more, lexemes (pos + byteLength u) rest = .ok more ∧ ls = l :: more := by
  rw [lexemes_item h hrest] at hls
  cases hmore : lexemes (pos + byteLength u) rest with
  | error e =>
    rw [hmore] at hls
    cases hls
  | ok more =>
    rw [hmore] at hls
    cases hls
    exact ⟨more, rfl, rfl⟩

/-- What holds of the empty text, and behind a blank, at a fault and behind an item if it holds of
what follows, holds of every text. -/
@[elab_as_elim]
theorem item_induction {motive : Nat → Text → Prop} (nil : ∀ pos, motive pos [])
    (blank : ∀ pos c r, isBlank c = true → motive (pos + c.utf8Size) r → motive pos (c :: r))
    (fault : ∀ pos c r e, isBlank c = false → Reads pos (c :: r) (.error e) → motive pos (c :: r))
    (item : ∀ pos u rest l, Item pos u l → (l.quote = none → EndsItem rest) →
      motive (pos + byteLength u) rest → motive pos (u ++ rest))
    (pos : Nat) (s : Text) : motive pos s := by
  induction hn : s.length using Nat.strongRecOn generalizing pos s with
  | ind n ih =>
    cases s with
    | nil => exact nil pos
    | cons c r =>
      subst hn
      cases hc : isBlank c with
      | true => exact blank pos c r hc (ih r.length (Nat.lt_succ_self _) _ r rfl)
      | false =>
        obtain ⟨x, hx⟩ := exists_reads pos hc r
        cases x with
        | error e => exact fault pos c r e hc hx
        | ok k =>
          generalize hs : c :: r = s at hx ih ⊢
          cases hx with
          | item h hrest =>
            refine item pos _ _ _ h hrest (ih _ ?_ _ _ rfl)
            obtain ⟨d, t, rfl, _⟩ := h.exists_cons
            simp only [List.cons_append, List.length_cons, List.length_append]
            omega

theorem lex_blank {c : Char} (hc : isBlank c = true) (pos : Nat) (r : Text) :
    lex pos (c :: r) = lex (pos + c.utf8Size) r := by
  rw [lex.eq_def]
  simp only [hc, dite_true]

theorem lex_error {pos : Nat} {c : Char} {r : Text} {e : ParseError} (hc : isBlank c = false)
    (h : readItem pos (c :: r) = .error e) : lex pos (c :: r) = .error e := by
  rw [lex.eq_def]
  simp only [hc, Bool.false_eq_true, dite_false]
  split
  · next e' h' =>
    rw [h] at h'
    cases h'
    rfl
  · next h' =>
    rw [h] at h'
    cases h'

theorem lex_item {pos : Nat} {u rest : Text} {l : Lexeme} (h : Item pos u l)
    (hrest : l.quote = none → EndsItem rest) :
    lex pos (u ++ rest) = (lex (pos + byteLength u) rest).map (l.argument :: ·) := by
  have hread := readItem_of_reads (Reads.item h hrest)
  have hbytes : byteLength (u ++ rest) - byteLength rest = byteLength u := by simp
  obtain ⟨c, r, rfl, hc⟩ := h.exists_cons
  rw [List.cons_append] at hread hbytes ⊢
  rw [lex.eq_def]
  simp only [hc, Bool.false_eq_true, dite_false]
  split
  · next h' =>
    rw [hread] at h'
    cases h'
  · next a rest' h' =>
    rw [hread] at h'
    cases h'
    rw [hbytes]
    cases lex (pos + byteLength (c :: r)) rest <;> rfl

/-- Lexemes are the arguments that are read. -/
theorem lex_eq_lexemes (pos : Nat) (s : Text) :
    lex pos s = (lexemes pos s).map fun ls => ls.map (·.argument) := by
  induction pos, s using item_induction with
  | nil pos =>
    rw [lex.eq_def, lexemes_nil]
    rfl
  | blank pos c r hc ih => rw [lex_blank hc, lexemes_blank hc, ih]
  | fault pos c r e hc h =>
    have hread := readItem_of_reads h
    rw [lex_error hc hread, lexemes_error hc hread]
    rfl
  | item pos u rest l h hrest ih =>
    rw [lex_item h hrest, lexemes_item h hrest, ih]
    cases lexemes (pos + byteLength u) rest <;> rfl

end Tagtext.Arguments
