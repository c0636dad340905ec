import Tagtext.Proofs.Lexeme

/-!
# Reading further behind

Where a text stands in a document shows only in offsets.  With `n` more bytes in
front, a text is cut into the same segments, its tags are read the same way, and
every offset, those in faults included, is `n` larger:

    scanFrom (n + pos) s = (scanFrom pos s).map (Segment.shift n)   (scanFrom_shift)
    Arguments.lex (n + pos) s = (Arguments.lex pos s).mapError (ParseError.shift n)
                                                                    (Arguments.lex_shift)
    Node.ofSegment (x.shift n) = (Node.ofSegment x).shift n k       (Node.ofSegment_shift)
-/

namespace Tagtext

/-! ## Shifts -/

/-- The same cut with `n` more bytes in front. -/
def Cut.shift (n : Nat) (k : Cut) : Cut := { k with fault := k.fault.map (·.shift n) }

/-- The same segment with `n` more bytes in front. -/
def Segment.shift (n : Nat) : Segment → Segment
  | literal t => literal t
  | marker raw start => marker raw (n + start)
  | malformed raw e => malformed raw (e.shift n)

/-- The same tag with `n` more bytes in front. -/
def Tag.shift (n : Nat) (t : Tag) : Tag := { t with start := n + t.start }

/-- The same node with `n` more bytes and `k` more nodes in front. -/
def Node.shift (n k : Nat) : Node → Node
  | text t => text t
  | malformed raw e => malformed raw (e.shift n)
  | tag t partner => tag (t.shift n) (partner.map (k + ·))

/-! ## Lemmas -/

@[simp] theorem Segment.raw_shift (n : Nat) (x : Segment) : (x.shift n).raw = x.raw := by
  cases x <;> rfl

@[simp] theorem Tag.name_shift (n : Nat) (t : Tag) : (t.shift n).name = t.name := rfl
@[simp] theorem Tag.kind_shift (n : Nat) (t : Tag) : (t.shift n).kind = t.kind := rfl
@[simp] theorem Tag.arguments_shift (n : Nat) (t : Tag) :
    (t.shift n).arguments = t.arguments := rfl
@[simp] theorem Tag.raw_shift (n : Nat) (t : Tag) : (t.shift n).raw = t.raw := rfl
@[simp] theorem Tag.start_shift (n : Nat) (t : Tag) : (t.shift n).start = n + t.start := rfl

@[simp] theorem Node.raw_shift (n k : Nat) (x : Node) : (x.shift n k).raw = x.raw := by
  cases x <;> rfl

@[simp] theorem Node.tag?_shift (n k : Nat) (x : Node) :
    (x.shift n k).tag? = x.tag?.map (·.shift n) := by
  cases x <;> rfl

@[simp] theorem Node.partner?_shift (n k : Nat) (x : Node) :
    (x.shift n k).partner? = x.partner?.map (k + ·) := by
  cases x <;> rfl

@[simp] theorem Cut.shift_prepend (n : Nat) (t : Text) (k : Cut) :
    (k.prepend t).shift n = (k.shift n).prepend t := rfl

theorem Cut.segment_shift (n pos : Nat) (k : Cut) :
    (k.shift n).segment (n + pos) = (k.segment pos).shift n := by
  obtain ⟨taken, rest, fault⟩ := k
  cases fault <;> rfl

/-! ## Scanning -/

theorem cutBody_shift (n start : Nat) (v : Bool) (pos : Nat) (s : Text) :
    cutBody (n + start) v (n + pos) s = (cutBody start v pos s).shift n := by
  fun_induction cutBody start v pos s with
  | case1 => simp [cutBody, Cut.shift, ParseError.shift]
  | case2 => simp [cutBody, Cut.shift]
  | case3 => simp [cutBody, Cut.shift, ParseError.shift]
  | case4 v pos c r hclose hopen hv inside rest hs _ ih =>
    rw [cutBody_value hclose hopen hv hs, Nat.add_assoc, ih, Cut.shift_prepend]
  | case5 v pos c r hclose hopen hv hs before after hsplit =>
    rw [cutBody_open_value hclose hopen hv hs, hsplit]
    rfl
  | case6 v pos c r hclose hopen hv ih =>
    rw [cutBody_other hclose hopen hv, Nat.add_assoc, ih, Cut.shift_prepend]

theorem cutMarker_shift (n start : Nat) (s : Text) :
    cutMarker (n + start) s = (cutMarker start s).shift n := by
  simp only [cutMarker, Nat.add_assoc, cutBody_shift, Cut.shift_prepend]

/-- **Segments further behind** are the same but for their offsets. -/
theorem scanFrom_shift (n pos : Nat) (s : Text) :
    scanFrom (n + pos) s = (scanFrom pos s).map (Segment.shift n) := by
  fun_induction scanFrom pos s with
  | case1 => simp [scanFrom]
  | case2 pos c r hopens k _ ih =>
    rw [scanFrom_marker hopens, cutMarker_shift, Cut.segment_shift, List.map_cons, ← ih,
      Nat.add_assoc]
    rfl
  | case3 pos c r htext k _ ih =>
    rw [scanFrom_literal (List.cons_ne_nil c r) (Bool.eq_false_iff.2 htext), List.map_cons, ← ih,
      Nat.add_assoc]
    rfl

/-! ## Tags -/

namespace Arguments

theorem Item.shift {pos : Nat} {u : Text} {l : Lexeme} (h : Item pos u l) (n : Nat) :
    ∃ l', Item (n + pos) u l' ∧ l'.argument = l.argument ∧
      (l'.quote = none → l.quote = none) := by
  cases h with
  | quoted h => exact ⟨_, .quoted h, rfl, nofun⟩
  | word hw => exact ⟨_, .word hw, rfl, fun _ => rfl⟩
  | namedQuoted hw h => exact ⟨_, .namedQuoted hw h, rfl, nofun⟩
  | namedBare hw hb => exact ⟨_, .namedBare hw hb, rfl, fun _ => rfl⟩

theorem Reads.shift {pos : Nat} {s : Text} {e : ParseError} (h : Reads pos s (.error e))
    (n : Nat) : Reads (n + pos) s (.error (e.shift n)) := by
  cases h with
  | unclosed hq h => exact .unclosed hq h
  | namedUnclosed hw hq h =>
    show Reads (n + pos) _ (.error (.unterminatedQuote (n + (pos + _ + 1))))
    rw [← Nat.add_assoc, ← Nat.add_assoc]
    exact .namedUnclosed hw hq h
  | unnamed r => exact .unnamed r

/-- **Arguments further behind** are the same; a fault in them is the same but for its offset. -/
theorem lex_shift (n pos : Nat) (s : Text) :
    lex (n + pos) s = (lex pos s).mapError (ParseError.shift n) := by
  induction pos, s using item_induction with
  | nil pos =>
    rw [lex.eq_def, lex.eq_def]
    rfl
  | blank pos c r hc ih => rw [lex_blank hc, lex_blank hc, Nat.add_assoc, ih]
  | fault pos c r e hc h =>
    rw [lex_error hc (readItem_of_reads h), lex_error hc (readItem_of_reads (h.shift n))]
    rfl
  | item pos u rest l h hrest ih =>
    obtain ⟨l', h', hargument, hquote⟩ := h.shift n
    rw [lex_item h hrest, lex_item h' fun hnone => hrest (hquote hnone), hargument, Nat.add_assoc,
      ih]
    cases lex (pos + byteLength u) rest <;> rfl

end Arguments

/-- A marker further behind is read as the same tag. -/
theorem Tag.parse_shift (n : Nat) (raw : Text) (start : Nat) :
    parse raw (n + start) =
      ((parse raw start).map (Tag.shift n)).mapError (ParseError.shift n) := by
  unfold parse
  split
  · rfl
  · simp only
    split <;> rfl
  · next inner _ _ =>
    simp only
    split
    · rw [Nat.add_assoc, Nat.add_assoc, Arguments.lex_shift, Nat.add_assoc]
      cases Arguments.lex (start + (1 + byteLength (inner.takeWhile isNameChar)))
        (splitSlash (trimEnd (inner.dropWhile isNameChar))).1 <;> rfl
    · rfl

/-- A node further behind is the same but for its offset, as long as it has no partner. -/
theorem Node.ofSegment_shift (n k : Nat) (x : Segment) :
    ofSegment (x.shift n) = (ofSegment x).shift n k := by
  cases x with
  | literal t => rfl
  | malformed raw e => rfl
  | marker raw start =>
    simp only [Segment.shift, ofSegment, Tag.parse_shift]
    cases Tag.parse raw start <;> rfl

end Tagtext
