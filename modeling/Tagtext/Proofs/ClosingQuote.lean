import Tagtext.Proofs.ByteScan

/-!
# Where a quoted value closes

Two readers look for the end of a quoted value.  The scanner walks over the bytes
of the document from the offset of the opening quote and keeps nothing but an
offset (`Bytewise.skipValue`); the reader of arguments walks over characters and
collects the value (`readQuoted`).  Both stop behind the position that
`ClosesFirst` names: the first quote of the kind that no backslash takes
literally.  A backslash is never taken itself, so of a run of them only the last
can take anything, and one look at the character behind it tells.

    unescape v = stripped v                                            (unescape_eq)
    skipQuoted q s = some (s.take (n + 1), s.drop (n + 1)) for the n
      with ClosesFirst q s n, if there is one                    (skipQuoted_eq_iff)
    skipValue (u ++ q :: s) |u| = the offset where readQuoted q s
      stops, or the fault                                         (skipValue_append)
    a marker goes on where skipValue stops                          (stopFrom_value)
    one closing quote, one value, whatever is cut off behind   (quote_readers_agree)
-/

namespace Tagtext

/-! ## Algorithm -/

namespace Bytewise

/-- The offset behind the first closing quote at or behind the offset `i`. -/
def closeFrom (bs : List UInt8) (quote : UInt8) (i : Nat) : Option Nat :=
  match h : bs[i]? with
  | none => none
  | some b =>
    have : i < bs.length := (List.getElem?_eq_some_iff.1 h).1
    if glyph b = '\\' ∧ (bs[i + 1]?.any fun d => isEscapable (glyph d)) = true then
      closeFrom bs quote (i + 2)
    else if b = quote then some (i + 1)
    else closeFrom bs quote (i + 1)
termination_by bs.length - i

/-- Skips the quoted value that opens at an offset: the offset behind its closing quote, or the
fault and the offset at which scanning goes on.  No result behind the end of the text or where the
slice fails. -/
def skipValue (t : Text) (start : Nat) : Option (Except (ParseError × Nat) Nat) := do
  let quote ← (bytes t)[start]?
  match closeFrom (bytes t) quote (start + 1) with
  | some stop => return .ok stop
  | none =>
    let behind ← slice? t start (byteLength t)
    let resume := match find? ']' behind with
      | some n => start + n + 1
      | none => byteLength t
    return .error (.unterminatedQuote start, resume)

end Bytewise

/-! ## Positions -/

/-- Whether a backslash stands at this position and takes the character behind it literally. -/
def takesNext (s : Text) (i : Nat) : Bool := s[i]? == some '\\' && s[i + 1]?.any isEscapable

/-- The characters of a text in their order, less each backslash that takes the one behind it. -/
def stripped (s : Text) : Text :=
  ((List.range s.length).filter fun i => !takesNext s i).filterMap (s[·]?)

/-- The first quote of the kind `q` that no backslash takes stands at this position. -/
structure ClosesFirst (q : Char) (s : Text) (n : Nat) : Prop where
  quote : s[n]? = some q
  free : ∀ i, i + 1 = n → takesNext s i = false
  /-- Each quote of the kind in front of it is taken. -/
  taken : ∀ m < n, s[m]? = some q → ∃ i, i + 1 = m ∧ takesNext s i = true

/-! ## Lemmas -/

theorem takesNext_cons_succ (c : Char) (s : Text) (i : Nat) :
    takesNext (c :: s) (i + 1) = takesNext s i := rfl

theorem takesNext_cons_zero (c : Char) (s : Text) :
    takesNext (c :: s) 0 = (c == '\\' && s.head?.any isEscapable) := by
  simp [takesNext, List.head?_eq_getElem?]

theorem takesNext_zero_iff {c d : Char} {s : Text} :
    takesNext (c :: d :: s) 0 = true ↔ c = '\\' ∧ isEscapable d = true := by
  simp [takesNext]

/-- What a backslash takes is no backslash, and takes nothing itself. -/
theorem takesNext_of_isEscapable {d : Char} (hd : isEscapable d = true) (s : Text) :
    takesNext (d :: s) 0 = false := by
  simp [takesNext, ne_backslash_of_isEscapable hd]

/-- Position by position, the first character is kept unless it is a backslash that takes the
next one. -/
theorem stripped_cons (c : Char) (s : Text) :
    stripped (c :: s) = if takesNext (c :: s) 0 then stripped s else c :: stripped s := by
  have htail : (((List.range s.length).map Nat.succ).filter
      fun i => !takesNext (c :: s) i).filterMap ((c :: s)[·]?) = stripped s := by
    rw [List.filter_map, List.filterMap_map]
    rfl
  rw [stripped, List.length_cons, List.range_succ_eq_map, List.filter_cons]
  cases takesNext (c :: s) 0 with
  | true => exact htail
  | false => exact congrArg (c :: ·) htail

/-- What is read of a quoted value is all of it but the backslashes that take something. -/
theorem unescape_eq (v : Text) : unescape v = stripped v := by
  fun_induction unescape v with
  | case1 => rfl
  | case2 c => simp [stripped, takesNext]
  | case3 c d r hesc ih =>
    rw [stripped_cons, if_pos (takesNext_zero_iff.2 hesc), stripped_cons,
      takesNext_of_isEscapable hesc.2, if_neg Bool.false_ne_true, ih]
  | case4 c d r hesc ih =>
    rw [stripped_cons, if_neg (mt takesNext_zero_iff.1 hesc), ih]

/-! ## The closing position -/

namespace ClosesFirst

variable {q c d : Char} {s : Text} {n : Nat}

theorem unique {m : Nat} (h : ClosesFirst q s n) (h' : ClosesFirst q s m) : n = m := by
  have hle : ∀ {n m : Nat}, ClosesFirst q s n → ClosesFirst q s m → n ≤ m := by
    intro n m h h'
    by_contra hlt
    obtain ⟨i, hi, htakes⟩ := h.taken m (by omega) h'.quote
    rw [h'.free i hi] at htakes
    cases htakes
  exact Nat.le_antisymm (hle h h') (hle h' h)

/-- The closing quote in front of which nothing stands. -/
theorem zero (s : Text) : ClosesFirst q (q :: s) 0 := ⟨rfl, nofun, nofun⟩

/-- A character that is no quote of the kind and takes nothing moves the closing quote by one. -/
theorem succ_iff (hc : c ≠ q) (htakes : takesNext (c :: s) 0 = false) :
    ClosesFirst q (c :: s) (n + 1) ↔ ClosesFirst q s n := by
  constructor
  · intro h
    refine ⟨h.quote, fun i hi => h.free (i + 1) (by omega), fun m hm hmq => ?_⟩
    obtain ⟨i, hi, hit⟩ := h.taken (m + 1) (by omega) hmq
    cases i with
    | zero =>
      rw [htakes] at hit
      cases hit
    | succ i => exact ⟨i, by omega, hit⟩
  · intro h
    refine ⟨h.quote, fun i hi => ?_, fun m hm hmq => ?_⟩
    · cases i with
      | zero => exact htakes
      | succ i => exact h.free i (by omega)
    · cases m with
      | zero => exact absurd (Option.some.inj hmq) hc
      | succ m =>
        obtain ⟨i, hi, hit⟩ := h.taken m (by omega) hmq
        exact ⟨i + 1, by omega, hit⟩

/-- A backslash and what it takes move the closing quote by two. -/
theorem add_two_iff (hd : isEscapable d = true) (hq : q ≠ '\\') :
    ClosesFirst q ('\\' :: d :: s) (n + 2) ↔ ClosesFirst q s n := by
  have htakes : takesNext ('\\' :: d :: s) 0 = true := takesNext_zero_iff.2 ⟨rfl, hd⟩
  have hfree : takesNext (d :: s) 0 = false := takesNext_of_isEscapable hd s
  constructor
  · intro h
    refine ⟨h.quote, fun i hi => h.free (i + 2) (by omega), fun m hm hmq => ?_⟩
    obtain ⟨i, hi, hit⟩ := h.taken (m + 2) (by omega) hmq
    obtain _ | _ | i := i
    · omega
    · rw [takesNext_cons_succ, hfree] at hit
      cases hit
    · exact ⟨i, by omega, hit⟩
  · intro h
    refine ⟨h.quote, fun i hi => ?_, fun m hm hmq => ?_⟩
    · obtain _ | _ | i := i
      · omega
      · exact hfree
      · exact h.free i (by omega)
    · obtain _ | _ | m := m
      · exact absurd (Option.some.inj hmq).symm hq
      · exact ⟨0, rfl, htakes⟩
      · obtain ⟨i, hi, hit⟩ := h.taken m (by omega) hmq
        exact ⟨i + 2, by omega, hit⟩

end ClosesFirst

/-- What quotes enclose closes at its end. -/
theorem Unbroken.closesFirst {q : Char} (hq : isQuote q = true) {v : Text} (hv : Unbroken q v)
    (rest : Text) : ClosesFirst q (v ++ q :: rest) v.length := by
  have hslash : q ≠ '\\' := ne_backslash_of_isEscapable (isEscapable_of_isQuote hq)
  induction hv with
  | nil => exact .zero rest
  | escaped hd hv ih => exact (ClosesFirst.add_two_iff hd hslash).2 ih
  | @plain c v hc hlone hv ih =>
    refine (ClosesFirst.succ_iff hc ?_).2 ih
    rw [takesNext_cons_zero, Bool.and_eq_false_imp, beq_iff_eq]
    intro hb
    obtain ⟨d, hd, hlit⟩ := hlone hb
    show (v ++ q :: rest).head?.any isEscapable = false
    rw [List.head?_append, Option.mem_def.1 hd]
    exact hlit

/-- What stands in front of the closing quote is what quotes may enclose. -/
theorem ClosesFirst.unbroken {q : Char} (hq : isQuote q = true) {s : Text} {n : Nat}
    (h : ClosesFirst q s n) : Unbroken q (s.take n) := by
  have hescq := isEscapable_of_isQuote hq
  have hslash : q ≠ '\\' := ne_backslash_of_isEscapable hescq
  fun_induction unescape s generalizing n with
  | case1 => cases h.quote
  | case2 c =>
    cases n with
    | zero => exact .nil
    | succ n => cases h.quote
  | case3 c d r hesc ih =>
    obtain ⟨rfl, hd⟩ := hesc
    obtain _ | _ | n := n
    · exact .nil
    · -- the quote behind the backslash would be taken
      have := h.free 0 rfl
      rw [takesNext_zero_iff.2 ⟨rfl, hd⟩] at this
      cases this
    · exact .escaped hd (ih ((ClosesFirst.add_two_iff hd hslash).1 h))
  | case4 c d r hesc ih =>
    have htakes : takesNext (c :: d :: r) 0 = false := by
      rw [← Bool.not_eq_true, takesNext_zero_iff]
      exact hesc
    cases n with
    | zero => exact .nil
    | succ n =>
      have hc : c ≠ q := by
        rintro rfl
        obtain ⟨i, hi, -⟩ := h.taken 0 (Nat.succ_pos n) rfl
        cases hi
      have hrest := (ClosesFirst.succ_iff hc htakes).1 h
      refine .plain hc (fun hb => ?_) (ih hrest)
      have hd : isEscapable d = false := by simpa [hb] using hesc
      cases n with
      | zero =>
        rw [Option.some.inj hrest.quote, hescq] at hd
        cases hd
      | succ n => exact ⟨d, rfl, hd⟩

/-- **A quoted value is skipped up to the first quote of its kind that no backslash takes.** -/
theorem skipQuoted_eq_iff {q : Char} (hq : isQuote q = true) {s inside rest : Text} :
    skipQuoted q s = some (inside, rest) ↔
      ∃ n, ClosesFirst q s n ∧ inside = s.take (n + 1) ∧ rest = s.drop (n + 1) := by
  rw [skipQuoted_eq_some_iff hq]
  constructor
  · rintro ⟨v, hv, rfl, rfl⟩
    exact ⟨v.length, hv.closesFirst hq rest, by rw [List.take_length_add_append]; rfl, by simp⟩
  · rintro ⟨n, h, rfl, rfl⟩
    obtain ⟨hn, hquote⟩ := List.getElem?_eq_some_iff.1 h.quote
    refine ⟨s.take n, h.unbroken hq, ?_, ?_⟩
    · rw [List.take_succ_eq_append_getElem hn, hquote]
    · rw [← hquote, ← List.drop_eq_getElem_cons hn, List.take_append_drop]

/-! ## The walk over the bytes -/

namespace Bytewise

/-- One step over the bytes behind an opening quote. -/
theorem closing?_step (q : Char) (b : UInt8) (bs : List UInt8) : closing? q (b :: bs) =
    if glyph b = '\\' ∧ (bs.head?.any fun d => isEscapable (glyph d)) = true then
      (closing? q bs.tail).map (2 + ·)
    else if glyph b = q then some 1
    else (closing? q bs).map (1 + ·) := by
  cases bs with
  | nil => simp [closing?]
  | cons d bs => rfl

/-- By offsets, the closing quote is found where it is found on the bytes that are left. -/
theorem closeFrom_eq (bs : List UInt8) (quote : UInt8) (i : Nat) :
    closeFrom bs quote i = (closing? (glyph quote) (bs.drop i)).map (i + ·) := by
  have hcons : ∀ {i : Nat} {b : UInt8}, bs[i]? = some b → bs.drop i = b :: bs.drop (i + 1) := by
    intro i b h
    obtain ⟨hi, rfl⟩ := List.getElem?_eq_some_iff.1 h
    exact List.drop_eq_getElem_cons hi
  have hmap : ∀ (i k : Nat) (o : Option Nat), o.map (i + k + ·) = (o.map (k + ·)).map (i + ·) := by
    intro i k o
    cases o <;> simp [Nat.add_assoc]
  fun_induction closeFrom bs quote i with
  | case1 i h => rw [List.drop_eq_nil_of_le (List.getElem?_eq_none_iff.1 h)]; rfl
  | case2 i b h _ hesc ih =>
    rw [hcons h, closing?_step, List.head?_drop, if_pos hesc, List.tail_drop, ih, hmap]
  | case3 i h _ hesc =>
    rw [hcons h, closing?_step, List.head?_drop, if_neg hesc, if_pos rfl]
    rfl
  | case4 i b h _ hesc hne ih =>
    rw [hcons h, closing?_step, List.head?_drop, if_neg hesc, if_neg (mt glyph_inj.1 hne), ih, hmap]

section
variable {q : Char} (hq : isQuote q = true) (u s : Text)
include hq

/-- Behind an opening quote stand the bytes of what follows it. -/
theorem drop_bytes_quote : (bytes (u ++ q :: s)).drop (byteLength u + 1) = bytes s := by
  obtain ⟨-, -, hsize, -⟩ := bytes_quote hq
  have hdrop := drop_bytes (u ++ [q]) s
  rwa [List.append_assoc, List.singleton_append, byteLength_append, byteLength_cons, hsize] at hdrop

/-- Skipping a value looks at the bytes behind its opening quote; where none of them closes it,
scanning goes on behind the first closing bracket. -/
theorem skipValue_eq : skipValue (u ++ q :: s) (byteLength u) = some (
    match closing? q (bytes s) with
    | some n => .ok (byteLength u + 1 + n)
    | none => .error (.unterminatedQuote (byteLength u),
        byteLength u + byteLength (splitBehind ']' (q :: s)).1)) := by
  obtain ⟨b, rfl, -, hb⟩ := bytes_quote hq
  have hsplit : bytes (u ++ glyph b :: s) = bytes u ++ b :: bytes s := by rw [bytes_append, hb]
  have hget : (bytes (u ++ glyph b :: s))[byteLength u]? = some b := by
    rw [hsplit, ← length_bytes, List.getElem?_append_right (Nat.le_refl _), Nat.sub_self]
    rfl
  have hclose := closeFrom_eq (bytes (u ++ glyph b :: s)) b (byteLength u + 1)
  rw [drop_bytes_quote hq] at hclose
  have hbracket : ']'.utf8Size = 1 := rfl
  rw [skipValue, hget]
  simp only [Option.bind_eq_bind, Option.bind_some, hclose]
  cases closing? (glyph b) (bytes s) with
  | some n => rfl
  | none =>
    simp only [Option.map_none, slice?_rest, Option.bind_some, byteLength_splitBehind, hbracket]
    cases find? ']' (glyph b :: s) with
    | none => simp
    | some n => simp [Nat.add_assoc]

/-- **From the offset of an opening quote on, the walk over the bytes stops where the reader of
characters stops.** -/
theorem skipValue_append : skipValue (u ++ q :: s) (byteLength u) = some (
    match readQuoted q s with
    | some (_, rest) => .ok (byteLength (u ++ q :: s) - byteLength rest)
    | none => .error (.unterminatedQuote (byteLength u),
        byteLength u + byteLength (splitBehind ']' (q :: s)).1)) := by
  obtain ⟨-, -, hsize, -⟩ := bytes_quote hq
  rw [skipValue_eq hq, closing?_bytes hq, readQuoted_eq hq]
  cases hskip : skipQuoted q s with
  | none => rfl
  | some k =>
    obtain ⟨inside, rest⟩ := k
    have hlen : byteLength (u ++ q :: s) - byteLength rest =
        byteLength u + 1 + byteLength inside := by
      rw [← skipQuoted_append hskip, byteLength_append, byteLength_cons, byteLength_append, hsize]
      omega
    simp only [Option.map_some, hlen]

/-- A marker goes on behind the quoted value that is skipped, or ends with the fault. -/
theorem stopFrom_value (start : Nat) :
    stopFrom (u ++ q :: s) start true (byteLength u) (bytes (q :: s)) =
      (skipValue (u ++ q :: s) (byteLength u)).bind fun
        | .ok stop => stopFrom (u ++ q :: s) start false stop ((bytes (u ++ q :: s)).drop stop)
        | .error (e, resume) => some ⟨resume, some e⟩ := by
  rw [skipValue_eq hq]
  obtain ⟨b, rfl, -, hb⟩ := bytes_quote hq
  have hbracket := ne_bracket_of_isQuote hq
  have hopens : (true && isQuote (glyph b)) = true := hq
  rw [hb]
  cases hclose : closing? (glyph b) (bytes s) with
  | none => exact stopFrom_open hbracket.1 hbracket.2 hopens hclose
  | some n =>
    rw [stopFrom, if_neg hbracket.1, if_neg hbracket.2, if_pos hopens, hclose]
    simp only [Option.bind_some, ← List.drop_drop, drop_bytes_quote hq]

end

end Bytewise

/-! ## Both readers -/

section
variable {q : Char} (hq : isQuote q = true)
include hq

/-- The reader of characters stops behind the closing quote, with what stands in front of it less
the backslashes that take something. -/
theorem readQuoted_eq_some_iff {s value rest : Text} : readQuoted q s = some (value, rest) ↔
    ∃ n, ClosesFirst q s n ∧ value = stripped (s.take n) ∧ rest = s.drop (n + 1) := by
  have hvalue : ∀ {n}, ClosesFirst q s n →
      unescape (s.take (n + 1)).dropLast = stripped (s.take n) := by
    intro n h
    obtain ⟨hn, -⟩ := List.getElem?_eq_some_iff.1 h.quote
    rw [List.take_succ_eq_append_getElem hn, List.dropLast_concat, unescape_eq]
  rw [readQuoted_eq hq, Option.map_eq_some_iff]
  constructor
  · rintro ⟨⟨inside, behind⟩, hskip, he⟩
    obtain ⟨n, hn, rfl, rfl⟩ := (skipQuoted_eq_iff hq).1 hskip
    cases he
    exact ⟨n, hn, hvalue hn, rfl⟩
  · rintro ⟨n, hn, rfl, rfl⟩
    exact ⟨_, (skipQuoted_eq_iff hq).2 ⟨n, hn, rfl, rfl⟩, Prod.ext (hvalue hn) rfl⟩

/-- What stands behind the closing quote can be exchanged. -/
theorem readQuoted_exchange {front value rest : Text}
    (h : readQuoted q (front ++ rest) = some (value, rest)) (behind : Text) :
    readQuoted q (front ++ behind) = some (value, behind) := by
  rw [readQuoted_eq hq] at h ⊢
  obtain ⟨⟨inside, rest'⟩, hskip, he⟩ := Option.map_eq_some_iff.1 h
  cases he
  have happ := List.append_cancel_right (skipQuoted_append hskip)
  subst happ
  rw [skipQuoted_cut hq hskip behind]
  rfl

/-- **The two readers of quoted values find the same closing quote.**  From an opening quote on,
wherever it stands in a text, the walk over the bytes comes to an offset exactly when the reader of
characters comes to a value, and the text behind that offset is what the reader leaves; else both
report the quote.  They stop behind the first quote of the kind that no backslash takes, and the
value is what stands in front of it, less the backslashes that take a character.  Cutting the text
off anywhere behind the closing quote changes neither.  The scanner of a marker goes on where the walk
over the bytes stops, or ends with its fault. -/
theorem quote_readers_agree (u s : Text) :
    (∀ stop, Bytewise.skipValue (u ++ q :: s) (byteLength u) = some (.ok stop) ↔
      ∃ value rest, readQuoted q s = some (value, rest) ∧
        stop + byteLength rest = byteLength (u ++ q :: s)) ∧
    (readQuoted q s = none ↔ ∃ resume, Bytewise.skipValue (u ++ q :: s) (byteLength u) =
      some (.error (.unterminatedQuote (byteLength u), resume))) ∧
    (∀ value rest, readQuoted q s = some (value, rest) ↔
      ∃ n, ClosesFirst q s n ∧ value = stripped (s.take n) ∧ rest = s.drop (n + 1)) ∧
    (∀ front value kept cut, s = front ++ (kept ++ cut) →
      readQuoted q s = some (value, kept ++ cut) →
      readQuoted q (front ++ kept) = some (value, kept) ∧
        Bytewise.skipValue (u ++ q :: (front ++ kept)) (byteLength u) =
          Bytewise.skipValue (u ++ q :: s) (byteLength u)) ∧
    ∀ start, Bytewise.stopFrom (u ++ q :: s) start true (byteLength u) (bytes (q :: s)) =
      (Bytewise.skipValue (u ++ q :: s) (byteLength u)).bind fun
        | .ok stop => Bytewise.stopFrom (u ++ q :: s) start false stop ((bytes (u ++ q :: s)).drop stop)
        | .error (e, resume) => some ⟨resume, some e⟩ := by
  refine ⟨fun stop => ?_, ?_, fun value rest => readQuoted_eq_some_iff hq, ?_,
    Bytewise.stopFrom_value hq u s⟩
  · rw [Bytewise.skipValue_append hq]
    cases hread : readQuoted q s with
    | none => simp
    | some k =>
      obtain ⟨value, rest⟩ := k
      obtain ⟨n, -, -, hrest⟩ := (readQuoted_eq_some_iff hq).1 hread
      have hle : byteLength rest ≤ byteLength (u ++ q :: s) := by
        have happ := congrArg byteLength (List.take_append_drop (n + 1) s)
        rw [← hrest, byteLength_append] at happ
        rw [byteLength_append, byteLength_cons]
        omega
      constructor
      · rintro ⟨⟩
        exact ⟨value, rest, rfl, Nat.sub_add_cancel hle⟩
      · rintro ⟨_, _, ⟨⟩, hstop⟩
        simp only [← hstop, Nat.add_sub_cancel]
  · rw [Bytewise.skipValue_append hq]
    cases readQuoted q s with
    | none => simp
    | some k => simp
  · rintro front value kept cut rfl hread
    have hcut := readQuoted_exchange hq hread kept
    refine ⟨hcut, ?_⟩
    rw [Bytewise.skipValue_append hq, Bytewise.skipValue_append hq, hread, hcut]
    simp only [byteLength_append, byteLength_cons, Option.some.injEq, Except.ok.injEq]
    omega

end

/-- Three backslashes in front of a quote: the last of them takes it, and the value goes on. -/
theorem quote_readers_agree_behind_backslashes :
    isQuote '\'' = true ∧
    Bytewise.skipValue "é='\\\\\\'ü\\x' ]".toList 3 = some (.ok 13) ∧
    Bytewise.skipValue "é='\\\\\\'ü\\x'".toList 3 = some (.ok 13) ∧
    readQuoted '\'' "\\\\\\'ü\\x'".toList = some ("\\\\'ü\\x".toList, []) ∧
    ∃ n, ClosesFirst '\'' "\\\\\\'ü\\x' ]".toList n ∧
      stripped ("\\\\\\'ü\\x' ]".toList.take n) = "\\\\'ü\\x".toList := by
  have hread : readQuoted '\'' "\\\\\\'ü\\x' ]".toList =
      some ("\\\\'ü\\x".toList, " ]".toList) := by decide
  obtain ⟨hskip, -, hclose, hcut, -⟩ :=
    quote_readers_agree (q := '\'') (by decide) "é=".toList "\\\\\\'ü\\x' ]".toList
  have hstop := (hskip 13).2 ⟨_, _, hread, by decide⟩
  obtain ⟨hkept, hsame⟩ := hcut "\\\\\\'ü\\x'".toList _ [] " ]".toList (by decide) hread
  obtain ⟨n, hn, hvalue, -⟩ := (hclose _ _).1 hread
  exact ⟨by decide, hstop, hsame.trans hstop, hkept, n, hn, hvalue.symm⟩

end Tagtext
