import Tagtext.Proofs.Bytes
import Tagtext.Proofs.Recognition
import Tagtext.Proofs.Written

/-!
# Scanning by byte offsets

A scanner that never looks at characters: it walks over the bytes of the text,
keeps offsets, and takes each segment out as the slice between two of them.  A
slice can fail; `Bytewise.next` has no result where one does.  From the start of
any segment it yields that segment and the offset right behind it, so no slice
fails and the offsets of a scan only grow.

    closing? q (bytes s) = the length of what skipQuoted takes       (closing?_bytes)
    stopFrom … (bytes s) = where cutBody ends, and its fault         (stopFrom_bytes)
    nextTag (u ++ s) |u| = the offset splitAtTag splits s at         (nextTag_append)
    next (u ++ s) |u| = the first segment of s, and where it ends    (next_append)
    Yields (u ++ s) |u| (scanFrom |u| s)                             (yields_scanFrom)
-/

namespace Tagtext

namespace Bytewise

/-! ## Algorithm -/

/-- The number of bytes behind an opening quote up to its closing quote, that one included. -/
def closing? (quote : Char) : List UInt8 → Option Nat
  | [] => none
  | [b] => if glyph b = quote then some 1 else none
  | b :: d :: bs =>
    if glyph b = '\\' ∧ isEscapable (glyph d) = true then (closing? quote bs).map (2 + ·)
    else if glyph b = quote then some 1
    else (closing? quote (d :: bs)).map (1 + ·)

/-- The offset at which a marker ends, and the fault it met. -/
structure Stop where
  offset : Nat
  fault : Option ParseError

/-- Walks to the end of a marker, `i` being the offset of the bytes that are left. -/
def stopFrom (t : Text) (start : Nat) (valueStart : Bool) (i : Nat) (bs : List UInt8) :
    Option Stop :=
  match bs with
  | [] => some ⟨byteLength t, some (.unterminatedTag start)⟩
  | b :: r =>
    if glyph b = ']' then some ⟨i + 1, none⟩
    else if glyph b = '[' then some ⟨i, some (.unexpectedBracket i)⟩
    else if valueStart && isQuote (glyph b) then
      match closing? (glyph b) r with
      | some n => stopFrom t start false (i + 1 + n) (r.drop n)
      | none => do
        let behind ← slice? t i (byteLength t)
        let resume := match find? ']' behind with
          | some n => i + n + 1
          | none => byteLength t
        return ⟨resume, some (.unterminatedQuote i)⟩
    else stopFrom t start (glyph b == '=' || isAsciiBlank (glyph b)) (i + 1) r
termination_by bs.length
decreasing_by
  · simp only [List.length_drop, List.length_cons]
    omega
  · exact Nat.lt_succ_self _

/-- The bytes of a slash at the front. -/
def slash : List UInt8 → Nat
  | b :: _ => if glyph b = '/' then 1 else 0
  | [] => 0

/-- The end of the marker that opens at `start`: behind the bracket, one slash and the name are
passed over. -/
def stop (t : Text) (start : Nat) : Option Stop :=
  let behind := (bytes t).drop (start + 1)
  let i := slash behind
  let name := (behind.drop i).takeWhile fun b => isNameChar (glyph b)
  stopFrom t start false (start + 1 + i + name.length) (behind.drop (i + name.length))

theorem lt_of_find? {t s : Text} {c : Char} {i n : Nat} (hs : slice? t i (byteLength t) = some s)
    (hn : find? c s = some n) : i + n < byteLength t := by
  obtain ⟨x, y, -, -, hlen⟩ := slice?_eq_some_iff.1 hs
  obtain ⟨u, v, rfl, -, rfl⟩ := find?_eq_some_iff.1 hn
  have := c.utf8Size_pos
  simp only [byteLength_append, byteLength_cons] at hlen
  omega

/-- The offset of the first marker at or behind an offset. -/
def nextTag (t : Text) (search : Nat) : Option (Option Nat) :=
  match hs : slice? t search (byteLength t) with
  | none => none
  | some s =>
    match hn : find? '[' s with
    | none => some none
    | some n =>
      have : search + n < byteLength t := lt_of_find? hs hn
      if opensTag (((bytes t).drop (search + n)).map glyph) then some (some (search + n))
      else nextTag t (search + n + 1)
termination_by byteLength t - search

/-- The segment at an offset, and the offset at which scanning goes on; without a segment at the
end of the text, and no result where a slice fails. -/
def next (t : Text) (pos : Nat) : Option (Option (Segment × Nat)) :=
  if byteLength t ≤ pos then some none
  else do
    match ← nextTag t pos with
    | none =>
      let text ← slice? t pos (byteLength t)
      return some (.literal text, byteLength t)
    | some start =>
      if pos < start then
        let text ← slice? t pos start
        return some (.literal text, start)
      else
        let k ← stop t start
        let raw ← slice? t start k.offset
        match k.fault with
        | none => return some (.marker raw start, k.offset)
        | some e => return some (.malformed raw e, k.offset)

/-- From an offset on, scanning yields these segments one after the other.  Each goes on from
where the one before it ends, and moves on. -/
inductive Yields (t : Text) : Nat → List Segment → Prop
  | done {pos : Nat} : next t pos = some none → Yields t pos []
  | segment {pos stop : Nat} {x : Segment} {xs : List Segment} :
    next t pos = some (some (x, stop)) → pos < stop → slice? t pos stop = some x.raw →
    Yields t stop xs → Yields t pos (x :: xs)

/-! ## Quotes -/

/-- A byte that is no escape and no closing quote is passed over. -/
theorem closing?_cons {q : Char} {b : UInt8} {bs : List UInt8} (hq : glyph b ≠ q)
    (hesc : glyph b = '\\' → ∀ d ∈ bs.head?, isEscapable (glyph d) = false) :
    closing? q (b :: bs) = (closing? q bs).map (1 + ·) := by
  cases bs with
  | nil => simp [closing?, hq]
  | cons d bs =>
    have : ¬ (glyph b = '\\' ∧ isEscapable (glyph d) = true) := by
      rintro ⟨h, hd⟩
      rw [hesc h d rfl] at hd
      cases hd
    rw [closing?, if_neg this, if_neg hq]

theorem closing?_plain {q : Char} (hq : isQuote q = true) {bs : List UInt8}
    (hbs : ∀ b ∈ bs, IsPlain (glyph b)) (rest : List UInt8) :
    closing? q (bs ++ rest) = (closing? q rest).map (bs.length + ·) := by
  induction bs with
  | nil => simp
  | cons b bs ih =>
    rw [List.forall_mem_cons] at hbs
    rw [List.cons_append, closing?_cons (hbs.1.ne_of_isQuote hq)
      (fun h => absurd h hbs.1.backslash), ih hbs.2, Option.map_map]
    congr 1
    funext n
    simp only [Function.comp_apply, List.length_cons]
    omega

/-- The first byte of a character can be taken literally exactly when the character can. -/
theorem isEscapable_head (d : Char) (r : Text) : ∃ b bs, bytes (d :: r) = b :: bs ∧
    isEscapable (glyph b) = isEscapable d := by
  obtain ⟨b, bs, h, ⟨hb, -⟩ | ⟨hb, hd⟩⟩ := exists_head_bytes d r
  · exact ⟨b, bs, h, by rw [hb]⟩
  · exact ⟨b, bs, h, by rw [hb.escapable, hd.escapable]⟩

/-- Read off the bytes, a quoted value ends where it ends as text. -/
theorem closing?_bytes {q : Char} (hq : isQuote q = true) (s : Text) :
    closing? q (bytes s) = (skipQuoted q s).map fun k => byteLength k.1 := by
  fun_induction skipQuoted q s with
  | case1 => rfl
  | case2 =>
    obtain ⟨b, hb, hsize, h⟩ := bytes_quote hq
    rw [h, bytes_nil, closing?, if_pos hb]
    simp [hsize]
  | case3 c hne =>
    rcases bytes_cons c with ⟨b, hb, -, h⟩ | ⟨bs, -, -, hbs, -, h⟩
    · rw [h, bytes_nil, closing?, if_neg (by rw [hb]; exact hne)]
      rfl
    · rw [h, bytes_nil, closing?_plain hq hbs]
      rfl
  | case4 c d r hesc ih =>
    rcases bytes_cons c with ⟨b, hb, hb1, h⟩ | ⟨bs, -, -, -, hc, -⟩
    · rcases bytes_cons d with ⟨e, he, he1, hd⟩ | ⟨bs, -, -, -, hd, -⟩
      · rw [h, hd, closing?, if_pos (by rw [hb, he]; exact hesc), ih, Option.map_map,
          Option.map_map]
        congr 1
        funext k
        simp [hb1, he1]
        omega
      · rw [hd.escapable] at hesc
        cases hesc.2
    · exact absurd hesc.1 hc.backslash
  | case5 d r hesc =>
    obtain ⟨b, hb, hsize, h⟩ := bytes_quote hq
    obtain ⟨e, es, hd, hesc'⟩ := isEscapable_head d r
    rw [h, hd, closing?, if_neg (by rw [hb, hesc']; exact hesc), if_pos hb]
    simp [hsize]
  | case6 c d r hesc hne ih =>
    rw [Option.map_map]
    rcases bytes_cons c with ⟨b, hb, hsize, h⟩ | ⟨bs, -, hlen, hbs, -, h⟩
    · obtain ⟨e, es, hd, hesc'⟩ := isEscapable_head d r
      rw [h, closing?_cons (by rw [hb]; exact hne), ih, Option.map_map]
      · congr 1
        funext k
        simp [hsize]
      · rw [hd, hb]
        rintro hback f hf
        cases hf
        rw [hesc']
        simpa [hback] using hesc
    · rw [h, closing?_plain hq hbs, ih, Option.map_map, hlen]
      rfl

/-! ## The end of a marker -/

/-- The first `c` is the last character of what is split off behind it. -/
theorem byteLength_splitBehind (c : Char) (s : Text) : byteLength (splitBehind c s).1 =
    match find? c s with
    | some n => n + c.utf8Size
    | none => byteLength s := by
  induction s with
  | nil => rfl
  | cons d r ih =>
    by_cases h : d = c
    · simp [splitBehind, find?, h]
    · simp only [splitBehind, find?, if_neg h, byteLength_cons, ih]
      cases find? c r with
      | none => rfl
      | some n => exact (Nat.add_assoc _ _ _).symm

section

variable {t : Text} {start : Nat} {v : Bool} {i : Nat}

/-- Plain bytes are passed over, and no value starts behind them. -/
theorem stopFrom_plain {bs : List UInt8} (hne : bs ≠ []) (hbs : ∀ b ∈ bs, IsPlain (glyph b))
    (rest : List UInt8) :
    stopFrom t start v i (bs ++ rest) = stopFrom t start false (i + bs.length) rest := by
  induction bs generalizing v i with
  | nil => exact absurd rfl hne
  | cons b bs ih =>
    rw [List.forall_mem_cons] at hbs
    obtain ⟨hb, hbs⟩ := hbs
    have hquote : ¬ (v && isQuote (glyph b)) = true := by simp [hb.quote]
    have hvalue : (glyph b == '=' || isAsciiBlank (glyph b)) = false := by
      simp [hb.equals, hb.asciiBlank]
    rw [List.cons_append, stopFrom, if_neg hb.closing, if_neg hb.opening, if_neg hquote, hvalue]
    by_cases hrest : bs = []
    · subst hrest
      rfl
    · rw [ih hrest hbs, List.length_cons, Nat.add_assoc, Nat.add_comm 1]

/-- Where no quote closes, the marker ends behind the first closing bracket, or with the text. -/
theorem stopFrom_open {u r : Text} {b : UInt8} (hclose : glyph b ≠ ']') (hopen : glyph b ≠ '[')
    (hv : (v && isQuote (glyph b)) = true) {bs : List UInt8}
    (hbs : closing? (glyph b) bs = none) :
    stopFrom (u ++ r) start v (byteLength u) (b :: bs) =
      some ⟨byteLength u + byteLength (splitBehind ']' r).1,
        some (.unterminatedQuote (byteLength u))⟩ := by
  have hsize : ']'.utf8Size = 1 := rfl
  rw [stopFrom, if_neg hclose, if_neg hopen, if_pos hv]
  simp only [hbs, slice?_rest, byteLength_splitBehind]
  cases hfind : find? ']' r with
  | none => simp [hfind]
  | some n => simp [hfind, hsize, Nat.add_assoc]

/-- Read off the bytes, a marker ends where it ends as text. -/
theorem stopFrom_bytes (u s : Text) (hi : byteLength u = i) :
    stopFrom (u ++ s) start v i (bytes s) = some ⟨i + byteLength (cutBody start v i s).taken,
      (cutBody start v i s).fault⟩ := by
  fun_induction cutBody start v i s generalizing u with
  | case1 => simp [stopFrom, hi]
  | case2 v i r =>
    rcases bytes_cons ']' with ⟨b, hb, hsize, h⟩ | ⟨bs, -, -, -, hc, -⟩
    · rw [h, stopFrom, if_pos hb]
      simp [hsize]
    · exact absurd rfl hc.closing
  | case3 v i r hclose =>
    rcases bytes_cons '[' with ⟨b, hb, -, h⟩ | ⟨bs, -, -, -, hc, -⟩
    · rw [h, stopFrom, if_neg (by rw [hb]; exact hclose), if_pos hb]
      simp
    · exact absurd rfl hc.opening
  | case4 v i c r hclose hopen hv inside rest hskip _ ih =>
    have hq : isQuote c = true := (Bool.and_eq_true_iff.1 hv).2
    obtain ⟨b, rfl, hsize, h⟩ := bytes_quote hq
    have hcount : closing? (glyph b) (bytes r) = some (byteLength inside) := by
      rw [closing?_bytes hq, hskip]
      rfl
    have hdrop : (bytes r).drop (byteLength inside) = bytes rest := by
      rw [← skipQuoted_append hskip, bytes_append, ← length_bytes, List.drop_left]
    have hrest := ih (u ++ glyph b :: inside) (by simp [hi])
    rw [List.append_assoc, List.cons_append, skipQuoted_append hskip, byteLength_cons, hsize,
      ← Nat.add_assoc] at hrest
    rw [h, stopFrom, if_neg hclose, if_neg hopen, if_pos hv, hcount]
    simp only [hdrop, Cut.taken_prepend, Cut.fault_prepend, byteLength_append, byteLength_cons,
      hsize, ← Nat.add_assoc]
    exact hrest
  | case5 v i c r hclose hopen hv hskip before after hs =>
    have hq : isQuote c = true := (Bool.and_eq_true_iff.1 hv).2
    obtain ⟨b, rfl, -, h⟩ := bytes_quote hq
    have hcount : closing? (glyph b) (bytes r) = none := by
      rw [closing?_bytes hq, hskip]
      rfl
    rw [h, ← hi, stopFrom_open hclose hopen hv hcount, hs]
  | case6 v i c r hclose hopen hv ih =>
    have hrest := ih (u ++ [c]) (by simp [hi])
    rw [List.append_assoc, List.singleton_append] at hrest
    rcases bytes_cons c with ⟨b, rfl, hsize, h⟩ | ⟨bs, hne, hlen, hbs, hc, h⟩
    · rw [hsize] at hrest
      rw [h, stopFrom, if_neg hclose, if_neg hopen, if_neg hv, hrest]
      simp [hsize, Nat.add_assoc]
    · have hvalue : (c == '=' || isAsciiBlank c) = false := by simp [hc.equals, hc.asciiBlank]
      rw [hvalue] at hrest ⊢
      rw [h, stopFrom_plain hne hbs, hlen, hrest]
      simp [Nat.add_assoc]

end

/-! ## The start of a marker -/

theorem opensTag_of_ne_slash {d : Char} (hd : d ≠ '/') (r : Text) :
    opensTag ('[' :: d :: r) = isNameStart d := by
  unfold opensTag
  split
  · next h => exact absurd (List.cons.inj (List.cons.inj h).2).1 hd
  · next h => rw [(List.cons.inj (List.cons.inj h).2).1]
  · next h => exact absurd rfl (h d r)

theorem opensTag_slash (r : Text) : opensTag ('[' :: '/' :: r) = r.head?.any isNameStart := by
  cases r with
  | nil => rfl
  | cons c r => rfl

/-- The first byte of a text starts a name exactly when its first character does. -/
theorem any_head?_glyphs (r : Text) :
    ((bytes r).map glyph).head?.any isNameStart = r.head?.any isNameStart := by
  cases r with
  | nil => rfl
  | cons c r =>
    obtain ⟨b, bs, h, ⟨rfl, -⟩ | ⟨hb, hc⟩⟩ := exists_head_bytes c r
    · rw [h]
      rfl
    · simp [h, hb.nameStart, hc.nameStart]

/-- A marker opens in the text where one opens in its bytes. -/
theorem opensTag_glyphs (s : Text) : opensTag ((bytes s).map glyph) = opensTag s := by
  cases s with
  | nil => rfl
  | cons c r =>
    obtain ⟨b, bs, h, ⟨rfl, rfl⟩ | ⟨hb, hc⟩⟩ := exists_head_bytes c r
    · rw [h, List.map_cons]
      by_cases hopen : glyph b = '['
      · rw [hopen]
        cases r with
        | nil => rfl
        | cons d r =>
          obtain ⟨e, es, h, ⟨rfl, rfl⟩ | ⟨he, hd⟩⟩ := exists_head_bytes d r
          · rw [h, List.map_cons]
            by_cases hslash : glyph e = '/'
            · rw [hslash, opensTag_slash, opensTag_slash, any_head?_glyphs]
            · rw [opensTag_of_ne_slash hslash, opensTag_of_ne_slash hslash]
          · rw [h, List.map_cons, opensTag_of_ne_slash he.slash, opensTag_of_ne_slash hd.slash,
              he.nameStart, hd.nameStart]
      · rw [opensTag_eq_false hopen, opensTag_eq_false hopen]
    · rw [h, List.map_cons, opensTag_eq_false hb.opening, opensTag_eq_false hc.opening]

/-- Without an opening bracket all is text. -/
theorem splitAtTag_of_no_bracket {s : Text} (hs : '[' ∉ s) : splitAtTag s = (s, []) := by
  induction s with
  | nil => rfl
  | cons c r ih =>
    rw [List.mem_cons, not_or] at hs
    rw [splitAtTag, opensTag_eq_false (Ne.symm hs.1), if_neg Bool.false_ne_true, ih hs.2]

/-- A bracket that opens nothing is text, as is all in front of it. -/
theorem splitAtTag_of_bracket {x y : Text} (hx : '[' ∉ x) (hy : opensTag ('[' :: y) = false) :
    splitAtTag (x ++ '[' :: y) = (x ++ '[' :: (splitAtTag y).1, (splitAtTag y).2) := by
  induction x with
  | nil => rw [List.nil_append, splitAtTag, hy, if_neg Bool.false_ne_true, List.nil_append]
  | cons c x ih =>
    rw [List.mem_cons, not_or] at hx
    rw [List.cons_append, splitAtTag, opensTag_eq_false (Ne.symm hx.1),
      if_neg Bool.false_ne_true, ih hx.2]
    rfl

theorem drop_bytes (u s : Text) : (bytes (u ++ s)).drop (byteLength u) = bytes s := by
  rw [bytes_append, ← length_bytes, List.drop_left]

/-- The next marker opens where the text in front of it ends. -/
theorem nextTag_append (u s : Text) : nextTag (u ++ s) (byteLength u) =
    some (if (splitAtTag s).2 = [] then none
      else some (byteLength u + byteLength (splitAtTag s).1)) := by
  induction hn : s.length using Nat.strong_induction_on generalizing u s with
  | _ n ih =>
  subst hn
  rw [nextTag]
  split
  · next h =>
    rw [slice?_rest] at h
    cases h
  · next s' h =>
    rw [slice?_rest] at h
    cases h
    split
    · next hnone => rw [splitAtTag_of_no_bracket (find?_eq_none_iff.1 hnone), if_pos rfl]
    · next m hm =>
      obtain ⟨x, y, rfl, hx, rfl⟩ := find?_eq_some_iff.1 hm
      dsimp only
      rw [← List.append_assoc, ← byteLength_append, drop_bytes, opensTag_glyphs]
      by_cases hopens : opensTag ('[' :: y) = true
      · rw [if_pos hopens, splitAtTag_of_not_mem hx hopens, if_neg (List.cons_ne_nil _ _),
          byteLength_append]
      · rw [Bool.not_eq_true] at hopens
        have hsize : '['.utf8Size = 1 := rfl
        have hrest := ih y.length (by simp; omega) (u ++ x ++ ['[']) y rfl
        rw [List.append_assoc, List.singleton_append, byteLength_append, byteLength_cons, hsize,
          byteLength_nil] at hrest
        rw [hopens, if_neg Bool.false_ne_true, hrest, splitAtTag_of_bracket hx hopens]
        simp [hsize, Nat.add_assoc]

/-! ## Segments -/

/-- The bytes of a name are the name characters among the bytes. -/
theorem takeWhile_bytes (r : Text) :
    (bytes r).takeWhile (fun b => isNameChar (glyph b)) = bytes (r.takeWhile isNameChar) := by
  induction r with
  | nil => rfl
  | cons c r ih =>
    rcases bytes_cons c with ⟨b, rfl, -, h⟩ | ⟨bs, hne, -, hbs, hc, h⟩
    · by_cases hname : isNameChar (glyph b) = true
      · rw [h, List.takeWhile_cons, if_pos hname, List.takeWhile_cons, if_pos hname, h, ih]
      · rw [h, List.takeWhile_cons, if_neg hname, List.takeWhile_cons, if_neg hname, bytes_nil]
    · obtain ⟨b, bs, rfl⟩ := List.exists_cons_of_ne_nil hne
      have hb := (hbs b List.mem_cons_self).nameChar
      rw [h, List.cons_append, List.takeWhile_cons, hb, List.takeWhile_cons, hc.nameChar]
      rfl

theorem slash_bytes (c : Char) (r : Text) :
    slash (bytes (c :: r)) = if c = '/' then 1 else 0 := by
  obtain ⟨b, bs, h, ⟨rfl, -⟩ | ⟨hb, hc⟩⟩ := exists_head_bytes c r
  · rw [h, slash]
  · rw [h, slash, if_neg hb.slash, if_neg hc.slash]

/-- Behind the bracket and the slash, the name and then the body are read. -/
theorem stop_of_name {u p name body : Text} (hp : p = [] ∨ p = ['/']) (hname : isTagName name = true)
    (hend : ∀ c ∈ body.head?, isNameChar c = false) :
    stop (u ++ '[' :: (p ++ (name ++ body))) (byteLength u) =
      stopFrom (u ++ '[' :: (p ++ name) ++ body) (byteLength u) false
        (byteLength (u ++ '[' :: (p ++ name))) (bytes body) := by
  have hsize : '['.utf8Size = 1 := rfl
  have hbehind := drop_bytes (u ++ ['[']) (p ++ (name ++ body))
  rw [byteLength_append, byteLength_cons, hsize, byteLength_nil, List.append_assoc,
    List.singleton_append] at hbehind
  have hslash : slash (bytes (p ++ (name ++ body))) = byteLength p := by
    obtain rfl | rfl := hp
    · cases name with
      | nil => cases hname
      | cons c name =>
        have hc : c ≠ '/' := by
          rintro rfl
          cases (isTagName_cons_iff.1 hname).1
        rw [List.nil_append, List.cons_append, slash_bytes, if_neg hc, byteLength_nil]
    · rw [List.singleton_append, slash_bytes, if_pos rfl]
      rfl
  have htake := (takeWhile_append_of_stop (isNameChar_of_mem hname) hend).1
  have hrest := drop_bytes (p ++ name) body
  rw [List.append_assoc, byteLength_append] at hrest
  rw [stop]
  simp only [Nat.add_zero] at hbehind
  simp only [hbehind, hslash, drop_bytes, takeWhile_bytes, htake, length_bytes, hrest]
  congr 1
  · simp
  · simp [hsize, Nat.add_assoc]

/-- The head of a marker takes as many bytes as characters. -/
theorem stop_append (u : Text) {s : Text} (hs : opensTag s = true) :
    stop (u ++ s) (byteLength u) =
      some ⟨byteLength u + byteLength (cutMarker (byteLength u) s).taken,
        (cutMarker (byteLength u) s).fault⟩ := by
  obtain ⟨head, body, rfl, hhead⟩ := exists_head hs
  have hstop : stop (u ++ (head ++ body)) (byteLength u) =
      stopFrom (u ++ head ++ body) (byteLength u) false (byteLength (u ++ head)) (bytes body) := by
    cases hhead with
    | opening hname hend => exact stop_of_name (.inl rfl) hname hend
    | closing hname hend => exact stop_of_name (.inr rfl) hname hend
  rw [hstop, stopFrom_bytes (u ++ head) body rfl, cutMarker, hhead.splitHead, byteLength_append]
  simp only [Cut.taken_prepend, Cut.fault_prepend, byteLength_append, Nat.add_assoc]

/-- At the offset where a segment starts, the bytes yield that segment. -/
theorem next_append (u : Text) {s : Text} {x : Segment} {xs : List Segment}
    (h : scanFrom (byteLength u) s = x :: xs) :
    next (u ++ s) (byteLength u) = some (some (x, byteLength u + byteLength x.raw)) := by
  have hs : s ≠ [] := by
    rintro rfl
    rw [scanFrom] at h
    cases h
  have hpos : ¬ byteLength (u ++ s) ≤ byteLength u := by
    have := byteLength_pos hs
    rw [byteLength_append]
    omega
  rw [next, if_neg hpos, nextTag_append]
  by_cases hopens : opensTag s = true
  · have hsplit := splitAtTag_of_not_mem (List.not_mem_nil (a := '[')) hopens
    rw [List.nil_append] at hsplit
    have hslice := slice?_append u (cutMarker (byteLength u) s).taken
      (cutMarker (byteLength u) s).rest
    rw [List.append_assoc, cutMarker_append] at hslice
    rw [scanFrom_marker hopens, List.cons.injEq] at h
    obtain ⟨rfl, -⟩ := h
    rw [hsplit, if_neg hs]
    simp only [byteLength_nil, Nat.add_zero, Nat.lt_irrefl, if_false, stop_append u hopens,
      Option.bind_eq_bind, Option.bind_some, hslice, Cut.segment]
    cases (cutMarker (byteLength u) s).fault with
    | none => rfl
    | some e => rfl
  · rw [Bool.not_eq_true] at hopens
    rw [scanFrom_literal hs hopens, List.cons.injEq] at h
    obtain ⟨rfl, -⟩ := h
    have happ := splitAtTag_append s
    by_cases hrest : (splitAtTag s).2 = []
    · rw [hrest, List.append_nil] at happ
      have hslice := slice?_rest u s
      rw [byteLength_append] at hslice
      rw [if_pos hrest]
      simp only [Option.bind_eq_bind, Option.bind_some, byteLength_append, hslice, happ,
        Segment.raw]
      rfl
    · have hslice := slice?_append u (splitAtTag s).1 (splitAtTag s).2
      rw [List.append_assoc, happ] at hslice
      have hlt : byteLength u < byteLength u + byteLength (splitAtTag s).1 := by
        have := byteLength_pos (t := (splitAtTag s).1) (by
          obtain ⟨c, r, rfl⟩ := List.exists_cons_of_ne_nil hs
          exact splitAtTag_ne_nil hopens)
        omega
      rw [if_neg hrest]
      simp only [Option.bind_eq_bind, Option.bind_some, if_pos hlt, hslice]
      rfl

/-- Behind its first segment, a text is scanned from where that segment ends. -/
theorem exists_rest_of_scanFrom {pos : Nat} {s : Text} {x : Segment} {xs : List Segment}
    (h : scanFrom pos s = x :: xs) :
    ∃ rest, s = x.raw ++ rest ∧ xs = scanFrom (pos + byteLength x.raw) rest := by
  by_cases hopens : opensTag s = true
  · rw [scanFrom_marker hopens, List.cons.injEq] at h
    obtain ⟨rfl, rfl⟩ := h
    rw [Cut.raw_segment]
    exact ⟨_, (cutMarker_append pos s).symm, rfl⟩
  · have hs : s ≠ [] := by
      rintro rfl
      rw [scanFrom] at h
      cases h
    rw [scanFrom_literal hs (by simpa using hopens), List.cons.injEq] at h
    obtain ⟨rfl, rfl⟩ := h
    exact ⟨_, (splitAtTag_append s).symm, rfl⟩

/-- **The bytes yield the segments of the text**, each in its place. -/
theorem yields_scanFrom (u s : Text) :
    Yields (u ++ s) (byteLength u) (scanFrom (byteLength u) s) := by
  induction hn : s.length using Nat.strong_induction_on generalizing u s with
  | _ n ih =>
  subst hn
  cases hscan : scanFrom (byteLength u) s with
  | nil =>
    have hs : s = [] := by
      rw [← flatten_scanFrom (byteLength u) s, hscan]
      rfl
    refine .done ?_
    rw [next, if_pos (by rw [hs, List.append_nil])]
  | cons x xs =>
    obtain ⟨rest, rfl, hxs⟩ := exists_rest_of_scanFrom hscan
    have hraw : x.raw ≠ [] := raw_ne_nil_of_mem_scanFrom (by rw [hscan]; exact List.mem_cons_self)
    have hpos := byteLength_pos hraw
    have hrest := ih rest.length (by
      have := List.length_pos_iff.2 hraw
      rw [List.length_append]
      omega) (u ++ x.raw) rest rfl
    rw [List.append_assoc, byteLength_append, ← hxs] at hrest
    have hslice := slice?_append u x.raw rest
    rw [List.append_assoc] at hslice
    exact .segment (next_append u hscan) (by omega) hslice hrest

end Bytewise

end Tagtext
