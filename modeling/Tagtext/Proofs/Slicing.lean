import Mathlib.Data.List.Chain
import Tagtext.Document
import Tagtext.Proofs.ByteScan

/-!
# Every slice is on character boundaries

What reads a document takes its pieces as slices of the text it reads: the
scanner its segments (`Bytewise.next`), a marker its name (`Bytewise.parseTag`),
its arguments their words (`Bytewise.readUntil`), and a document the text of a
tag (`Document.raw?`).  None of these slices fails, on any text, and what they
hold is what the readers of characters read.

    Bytewise.lex (u ++ s) base |u| s = some (Arguments.lex (base + |u|) s)   (lex_append)
    Bytewise.parseTag raw start = some (Tag.parse raw start)                  (parseTag_eq)
    scanning is lossless, moves on and stays on boundaries                    (scan_lossless)
-/

namespace Tagtext

namespace Bytewise

/-! ## Algorithm -/

/-- Passes over the characters at which `stop` does not hold, `i` being the offset reached. -/
def passUntil (stop : Char → Bool) (i : Nat) : Text → Nat × Text
  | [] => (i, [])
  | c :: r => if stop c then (i, c :: r) else passUntil stop (i + c.utf8Size) r

/-- The slice of `src` from the offset `i` up to a character at which `stop` holds, the offset it
ends at and what is left; `s` is the text from `i` on. -/
def readUntil (src : Text) (stop : Char → Bool) (i : Nat) (s : Text) :
    Option (Text × Nat × Text) := do
  let (j, rest) := passUntil stop i s
  let word ← slice? src i j
  return (word, j, rest)

/-- The value of the quote that opens at the offset `i`; it is put together without slices. -/
def quoted (base i : Nat) (quote : Char) (r : Text) : Except ParseError (Text × Nat × Text) :=
  match readQuoted quote r with
  | some (value, rest) => .ok (value, i + (byteLength (quote :: r) - byteLength rest), rest)
  | none => .error (.unterminatedQuote (base + i))

/-- The value behind an equals sign, at the offset `i` of `src`. -/
def value (src : Text) (base i : Nat) :
    Text → Option (Except ParseError (Text × Nat × Text))
  | [] => some (.ok ([], i, []))
  | c :: r =>
    if isQuote c then some (quoted base i c r)
    else if isBlank c then some (.ok ([], i, c :: r))
    else (readUntil src isBlank i (c :: r)).map .ok

/-- The argument at the offset `i` of `src`, where no blank stands. -/
def item (src : Text) (base i : Nat) :
    Text → Option (Except ParseError (Argument × Nat × Text))
  | [] => some (.ok (.positional [], i, []))
  | c :: r =>
    if isQuote c then
      some ((quoted base i c r).map fun (v, j, rest) => (.positional v, j, rest))
    else do
      let (word, j, rest) ← readUntil src (fun c => isBlank c || c == '=') i (c :: r)
      match rest with
      | '=' :: behind =>
        if word.isEmpty then return .error (.emptyArgumentName (base + i))
        else
          let found ← value src base (j + 1) behind
          return found.map fun (v, j, rest) => (.named word v, j, rest)
      | _ => return .ok (.positional word, j, rest)

/-- The arguments in `src` from the offset `i` on.  An item that takes nothing would never end. -/
def lex (src : Text) (base i : Nat) (s : Text) : Option (Except ParseError Arguments) :=
  match s with
  | [] => some (.ok [])
  | c :: r =>
    if isBlank c then lex src base (i + c.utf8Size) r
    else
      match item src base i (c :: r) with
      | none => none
      | some (.error e) => some (.error e)
      | some (.ok (a, j, rest)) =>
        if rest.length < (c :: r).length then
          (lex src base j rest).map fun found => found.map (a :: ·)
        else none
termination_by s.length
decreasing_by
  · exact Nat.lt_succ_self _
  · assumption

/-- Reads a marker: its name is split off at the byte where it ends. -/
def parseTag (raw : Text) (start : Nat) : Option (Except ParseError Tag) :=
  match Tag.inner? raw with
  | none => some (.error (.unterminatedTag start))
  | some ('/' :: r) =>
    let name := trimEnd r
    if isTagName name then some (.ok ⟨name, .closing, [], raw, start⟩)
    else some (.error (.invalidCloseTag raw start))
  | some inner => do
    let n := ((bytes inner).takeWhile fun b => isNameChar (glyph b)).length
    let (name, rest) ← splitAt? n inner
    if isTagName name && Tag.endsName rest then
      let (body, kind) := Tag.splitSlash (trimEnd rest)
      let found ← lex body (start + 1 + n) 0 body
      return found.map fun arguments => ⟨name, kind, arguments, raw, start⟩
    else return .error (.invalidTagName (firstWord inner) start)

end Bytewise

/-- The text of a tag, taken out of the document. -/
def Document.raw? (d : Document) (t : Tag) : Option Text := slice? d.source t.start t.stop

/-- Whether a segment is text that stands for itself. -/
def Segment.isLiteral : Segment → Bool
  | .literal _ => true
  | _ => false

/-! ## Arguments -/

namespace Bytewise

theorem passUntil_eq (stop : Char → Bool) (i : Nat) (s : Text) :
    passUntil stop i s = (i + byteLength (s.takeWhile (!stop ·)), s.dropWhile (!stop ·)) := by
  induction s generalizing i with
  | nil => rfl
  | cons c r ih =>
    by_cases h : stop c = true
    · simp [passUntil, h]
    · simp [passUntil, h, ih, Nat.add_assoc]

/-- A word is sliced off where it ends. -/
theorem readUntil_append (u s : Text) (stop : Char → Bool) :
    readUntil (u ++ s) stop (byteLength u) s =
      some (s.takeWhile (!stop ·), byteLength u + byteLength (s.takeWhile (!stop ·)),
        s.dropWhile (!stop ·)) := by
  have hslice := slice?_append u (s.takeWhile (!stop ·)) (s.dropWhile (!stop ·))
  rw [List.append_assoc, List.takeWhile_append_dropWhile] at hslice
  rw [readUntil, passUntil_eq]
  simp only [Option.bind_eq_bind, hslice, Option.bind_some]
  rfl

/-- What a reader has read of the text `s` at the offset `i`, and the offset where it stopped. -/
def located {α : Type} (i : Nat) (s : Text) (k : α × Text) : α × Nat × Text :=
  (k.1, i + (byteLength s - byteLength k.2), k.2)

theorem byteLength_takeWhile (p : Char → Bool) (s : Text) :
    byteLength s - byteLength (s.dropWhile p) = byteLength (s.takeWhile p) := by
  have h := congrArg byteLength (List.takeWhile_append_dropWhile (p := p) (l := s))
  rw [byteLength_append] at h
  omega

theorem value_append (u s : Text) (base : Nat) :
    value (u ++ s) base (byteLength u) s =
      some ((Arguments.readValue (base + byteLength u) s).map (located (byteLength u) s)) := by
  cases s with
  | nil => simp [value, Arguments.readValue, located, Except.map]
  | cons c r =>
    rw [value, Arguments.readValue]
    by_cases hq : isQuote c = true
    · rw [if_pos hq, if_pos hq, quoted]
      cases readQuoted c r with
      | none => rfl
      | some k => rfl
    · rw [if_neg hq, if_neg hq]
      by_cases hb : isBlank c = true
      · simp [hb, Except.map, located]
      · rw [if_neg hb, readUntil_append]
        simp only [Except.map, located, byteLength_takeWhile]
        rfl

theorem not_blank_or_equals :
    (fun c => !(isBlank c || c == '=')) = Arguments.isWordChar := by
  funext c
  rw [Bool.not_or]
  rfl

/-- A value ends within the text it is read from. -/
theorem byteLength_readValue {pos : Nat} {s v rest : Text}
    (h : Arguments.readValue pos s = .ok (v, rest)) : byteLength rest ≤ byteLength s := by
  cases s with
  | nil => cases h; exact Nat.le_refl _
  | cons c r =>
    rw [Arguments.readValue] at h
    by_cases hq : isQuote c = true
    · rw [if_pos hq, readQuoted_eq hq] at h
      cases hskip : skipQuoted c r with
      | none =>
        rw [hskip] at h
        cases h
      | some k =>
        rw [hskip] at h
        cases h
        rw [← skipQuoted_append hskip, byteLength_cons, byteLength_append]
        omega
    · rw [if_neg hq] at h
      cases h
      have happ := List.takeWhile_append_dropWhile (p := (!isBlank ·)) (l := c :: r)
      have hlen := congrArg byteLength happ
      rw [byteLength_append] at hlen
      omega

theorem item_append (u s : Text) (base : Nat) :
    item (u ++ s) base (byteLength u) s =
      some ((Arguments.readItem (base + byteLength u) s).map (located (byteLength u) s)) := by
  cases s with
  | nil => simp [item, Arguments.readItem, located, Except.map]
  | cons c r =>
    rw [item, Arguments.readItem]
    by_cases hq : isQuote c = true
    · rw [if_pos hq, if_pos hq, quoted]
      cases readQuoted c r with
      | none => rfl
      | some k => rfl
    · rw [if_neg hq, if_neg hq, readUntil_append, not_blank_or_equals]
      have happ := List.takeWhile_append_dropWhile (p := Arguments.isWordChar) (l := c :: r)
      generalize (c :: r).takeWhile Arguments.isWordChar = word at happ ⊢
      generalize (c :: r).dropWhile Arguments.isWordChar = left at happ ⊢
      have hlen := congrArg byteLength happ
      rw [byteLength_append] at hlen
      cases left with
      | nil =>
        have hword : byteLength word = byteLength (c :: r) := by simpa using hlen
        simp [Except.map, located, hword]
      | cons d behind =>
        by_cases hd : d = '='
        · subst hd
          have hsize : '='.utf8Size = 1 := rfl
          have hvalue := value_append (u ++ word ++ ['=']) behind base
          rw [List.append_assoc, List.singleton_append, List.append_assoc, happ,
            byteLength_append, byteLength_append, byteLength_cons, hsize, byteLength_nil,
            Nat.add_zero, ← Nat.add_assoc, ← Nat.add_assoc] at hvalue
          cases word with
          | nil => simp [Except.map]
          | cons e word =>
            simp only [Option.bind_eq_bind, Option.bind_some, List.isEmpty_cons, hvalue,
              Bool.false_eq_true, if_false]
            cases hread : Arguments.readValue _ behind with
            | error err => rfl
            | ok k =>
              have hle := byteLength_readValue hread
              rw [byteLength_cons '=', hsize] at hlen
              simp only [Except.map, located, Option.pure_def, Option.some.injEq, Except.ok.injEq,
                Prod.mk.injEq, and_true, true_and]
              omega
        · have hword : byteLength word = byteLength (c :: r) - byteLength (d :: behind) := by omega
          simp [hd, Except.map, located, hword]

theorem lex_append (u s : Text) (base : Nat) :
    lex (u ++ s) base (byteLength u) s = some (Arguments.lex (base + byteLength u) s) := by
  generalize hpos : base + byteLength u = pos
  induction pos, s using Arguments.item_induction generalizing u with
  | nil pos => rw [lex.eq_def, Arguments.lex.eq_def]
  | blank pos c r hc ih =>
    have hrest := ih (u ++ [c]) (by rw [← hpos]; simp [Nat.add_assoc])
    rw [List.append_assoc, List.singleton_append, byteLength_append] at hrest
    rw [lex.eq_def, Arguments.lex_blank hc]
    simp only [if_pos hc]
    exact hrest
  | fault pos c r e hc h =>
    have hread := Arguments.readItem_of_reads h
    have hitem := item_append u (c :: r) base
    rw [hpos, hread] at hitem
    rw [lex.eq_def, Arguments.lex_error hc hread]
    simp only [hc, Bool.false_eq_true, if_false, hitem, Except.map]
  | item pos x rest l h hrest ih =>
    have hread := Arguments.readItem_of_reads (Arguments.Reads.item h hrest)
    have hitem := item_append u (x ++ rest) base
    have hbehind := ih (u ++ x) (by rw [← hpos, byteLength_append, Nat.add_assoc])
    rw [List.append_assoc, byteLength_append] at hbehind
    rw [hpos, hread] at hitem
    rw [Arguments.lex_item h hrest]
    obtain ⟨c, r, rfl, hc⟩ := h.exists_cons
    rw [List.cons_append] at hitem hbehind ⊢
    have hlen : rest.length < (c :: (r ++ rest)).length := by
      rw [List.length_cons, List.length_append]
      omega
    have hstop : byteLength (c :: (r ++ rest)) - byteLength rest = byteLength (c :: r) := by
      rw [← List.cons_append, byteLength_append]
      omega
    rw [lex.eq_def]
    simp only [hc, Bool.false_eq_true, if_false, hitem, Except.map, located, if_pos hlen, hstop,
      hbehind, Option.map_some]

/-- **A marker is sliced where its parts end.** -/
theorem parseTag_eq (raw : Text) (start : Nat) :
    parseTag raw start = some (Tag.parse raw start) := by
  rw [parseTag, Tag.parse]
  cases Tag.inner? raw with
  | none => rfl
  | some inner =>
    split
    · next h => cases h
    · next r h =>
      cases h
      simp only
      split
      · rfl
      · rfl
    · next inner' hslash h =>
      cases h
      have hsplit := splitAt?_append (inner.takeWhile isNameChar) (inner.dropWhile isNameChar)
      rw [List.takeWhile_append_dropWhile] at hsplit
      have hlex : ∀ (base : Nat) (body : Text), lex body base 0 body =
          some (Arguments.lex base body) := fun base body => lex_append [] body base
      simp only [takeWhile_bytes, length_bytes, hsplit, hlex, Option.bind_eq_bind,
        Option.bind_some]
      split
      · cases Arguments.lex _ _ with
        | error e => rfl
        | ok arguments => rfl
      · rfl

end Bytewise

/-! ## Documents -/

theorem isLiteral_segment (pos : Nat) (k : Cut) : (k.segment pos).isLiteral = false := by
  unfold Cut.segment
  split
  · rfl
  · rfl

/-- Behind text stands no other text. -/
theorem isChain_scanFrom (pos : Nat) (s : Text) :
    (scanFrom pos s).IsChain fun x y => ¬ (x.isLiteral = true ∧ y.isLiteral = true) := by
  fun_induction scanFrom pos s with
  | case1 => exact .nil
  | case2 pos c r h k _ ih =>
    refine List.isChain_cons.2 ⟨fun y _ hxy => ?_, ih⟩
    rw [isLiteral_segment] at hxy
    cases hxy.1
  | case3 pos c r h k _ ih =>
    refine List.isChain_cons.2 ⟨fun y hy hxy => ?_, ih⟩
    rcases opensTag_splitAtTag (c :: r) with hnil | hopens
    · rw [hnil, scanFrom] at hy
      cases hy
    · rw [scanFrom_marker hopens] at hy
      cases hy
      rw [isLiteral_segment] at hxy
      cases hxy.2

/-- A marker stands at the offset it is given. -/
theorem slice?_of_marker {s raw : Text} {start : Nat} (h : Segment.marker raw start ∈ scan s) :
    slice? s start (start + byteLength raw) = some raw := by
  obtain ⟨a, b, hab⟩ := List.append_of_mem h
  have hstart := start_of_scanFrom hab
  rw [Nat.zero_add] at hstart
  have hs := rest_of_scanFrom hab
  rw [List.map_cons, List.flatten_cons, ← List.append_assoc] at hs
  exact slice?_eq_some_iff.2 ⟨_, _, hs, hstart.symm, rfl⟩

namespace Document

/-- A document takes the text of a tag out of the right place. -/
theorem raw?_eq {s : Text} {t : Tag} {p : Option Nat} (h : Node.tag t p ∈ (parse s).nodes) :
    (parse s).raw? t = some t.raw := by
  obtain ⟨i, hi⟩ := List.mem_iff_getElem?.1 h
  have htag : tagAt (parse s).nodes i = some t := by
    rw [tagAt, hi]
    rfl
  rw [raw?, source_parse]
  exact slice?_eq_some_iff.2 ⟨_, _, source_of_tagAt htag, (start_of_tagAt htag).symm, rfl⟩

end Document

/-- **Scanning loses nothing and stays in bounds.**  Read by byte offsets, every text yields its
segments and then ends: each segment is the slice from where the one before it ends, and is not
empty, no slice fails, and no two texts stand side by side.  What the segments hold, and what the
nodes of the document hold, is the whole text in order; markers and tags stand at their offsets.
Reading a marker by slices comes to the same as reading it, whatever the marker holds. -/
theorem scan_lossless (s : Text) :
    Bytewise.Yields s 0 (scan s) ∧
    (∀ x ∈ scan s, x.raw ≠ []) ∧
    (scan s).IsChain (fun x y => ¬ (x.isLiteral = true ∧ y.isLiteral = true)) ∧
    ((scan s).map Segment.raw).flatten = s ∧
    ((Document.parse s).nodes.map Node.raw).flatten = s ∧
    (∀ raw start, .marker raw start ∈ scan s →
      slice? s start (start + byteLength raw) = some raw) ∧
    (∀ t p, .tag t p ∈ (Document.parse s).nodes → slice? s t.start t.stop = some t.raw ∧
      (Document.parse s).raw? t = some t.raw) ∧
    ∀ raw start, Bytewise.parseTag raw start = some (Tag.parse raw start) := by
  refine ⟨?_, fun x => raw_ne_nil_of_mem_scan, isChain_scanFrom 0 s, flatten_scan s,
    Document.source_parse s, fun raw start => slice?_of_marker, fun t p h => ?_,
    Bytewise.parseTag_eq⟩
  · exact Bytewise.yields_scanFrom [] s
  · have hraw := Document.raw?_eq h
    have hslice := hraw
    rw [Document.raw?, Document.source_parse] at hslice
    exact ⟨hslice, hraw⟩

end Tagtext
