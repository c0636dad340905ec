import Tagtext.Argument
import Tagtext.Segment

/-!
# Texts as bytes

A text is kept in UTF-8, and an offset counts its bytes.  `splitAt?` cuts a text
at an offset and `slice?` takes what lies between two; both have no result
where an offset is behind the end or within a character, or where the two
offsets cross.

    splitAt? n t = some (u, v) ↔ t = u ++ v ∧ byteLength u = n       (splitAt?_eq_some_iff)
    slice? t i j = some u ↔ u stands in t from i up to j             (slice?_eq_some_iff)

Everything that marks a document up is ASCII: one byte, which is its character
(`glyph`).  A character beyond ASCII is two bytes or more, and the glyph of none
of them marks anything up (`bytes_cons`).
-/

namespace Tagtext

/-! ## Algorithm -/

/-- The UTF-8 bytes of a text. -/
def bytes (t : Text) : List UInt8 := t.flatMap String.utf8EncodeChar

/-- The character that a byte is, read by itself. -/
def glyph (b : UInt8) : Char := Char.ofNat b.toNat

/-- Cuts a text at a byte offset. -/
def splitAt? : Nat → Text → Option (Text × Text)
  | 0, t => some ([], t)
  | _ + 1, [] => none
  | n + 1, c :: r =>
    if c.utf8Size ≤ n + 1 then
      (splitAt? (n + 1 - c.utf8Size) r).map fun (u, v) => (c :: u, v)
    else none

/-- The part of a text between two byte offsets. -/
def slice? (t : Text) (start stop : Nat) : Option Text :=
  if start ≤ stop then do
    let (_, behind) ← splitAt? start t
    let (u, _) ← splitAt? (stop - start) behind
    return u
  else none

/-- The byte offset of the first `c` in a text. -/
def find? (c : Char) : Text → Option Nat
  | [] => none
  | d :: r => if d = c then some 0 else (find? c r).map (d.utf8Size + ·)

/-- Whether a character marks nothing up. -/
structure IsPlain (c : Char) : Prop where
  quote : isQuote c = false
  escapable : isEscapable c = false
  nameStart : isNameStart c = false
  nameChar : isNameChar c = false
  asciiBlank : isAsciiBlank c = false
  backslash : c ≠ '\\'
  slash : c ≠ '/'
  equals : c ≠ '='
  opening : c ≠ '['
  closing : c ≠ ']'

/-! ## Lemmas -/

theorem byteLength_pos {t : Text} (ht : t ≠ []) : 0 < byteLength t := by
  obtain ⟨c, r, rfl⟩ := List.exists_cons_of_ne_nil ht
  exact Nat.lt_of_lt_of_le c.utf8Size_pos (Nat.le_add_right _ _)

@[simp] theorem bytes_nil : bytes [] = [] := rfl

@[simp] theorem bytes_append (s t : Text) : bytes (s ++ t) = bytes s ++ bytes t :=
  List.flatMap_append

@[simp] theorem length_bytes (t : Text) : (bytes t).length = byteLength t := by
  induction t with
  | nil => rfl
  | cons c t ih =>
    rw [show bytes (c :: t) = String.utf8EncodeChar c ++ bytes t from rfl, List.length_append,
      String.length_utf8EncodeChar, ih, byteLength_cons]

/-- A character beyond ASCII marks nothing up. -/
theorem isPlain_of_le {c : Char} (h : 128 ≤ c.toNat) : IsPlain c := by
  have hne : ∀ d : Char, d.toNat < 128 → c ≠ d := fun d hd e => by
    rw [e] at h
    omega
  have hgt : ∀ d : Char, d.toNat < 128 → ¬ c.val ≤ d.val := fun d hd hle => by
    have hnat : c.toNat ≤ d.toNat := UInt32.le_iff_toNat_le.1 hle
    omega
  have hupper : c.isUpper = false := decide_eq_false fun hc => hgt 'Z' (by decide) hc.2
  have hlower : c.isLower = false :=
    Bool.and_eq_false_iff.2 (Or.inr (decide_eq_false (hgt 'z' (by decide))))
  have hdigit : c.isDigit = false :=
    Bool.and_eq_false_iff.2 (Or.inr (decide_eq_false (hgt '9' (by decide))))
  have halpha : c.isAlpha = false := Bool.or_eq_false_iff.2 ⟨hupper, hlower⟩
  constructor <;>
    simp [isQuote, isEscapable, isNameStart, isNameChar, isAsciiBlank, Char.isAlphanum,
      halpha, hdigit, hne]

theorem glyph_toUInt8 {c : Char} (h : c.toNat < 128) : glyph c.val.toUInt8 = c := by
  have hmod : c.val.toNat % 2 ^ 8 = c.toNat := Nat.mod_eq_of_lt (by change c.toNat < 2 ^ 8; omega)
  rw [glyph, UInt32.toNat_toUInt8, hmod]
  exact Char.ofNat_toNat c

theorem toNat_glyph (b : UInt8) : (glyph b).toNat = b.toNat := by
  have hb := b.toNat_lt
  have hvalid : b.toNat.isValidChar := Or.inl (by omega)
  rw [glyph, Char.ofNat, dif_pos hvalid]
  rfl

theorem glyph_inj {b d : UInt8} : glyph b = glyph d ↔ b = d := by
  constructor
  · intro h
    have := congrArg Char.toNat h
    rw [toNat_glyph, toNat_glyph] at this
    exact UInt8.toNat.inj this
  · exact congrArg glyph

/-- No byte of a character beyond ASCII is ASCII. -/
theorem le_of_mem_utf8EncodeChar {c : Char} (h : 128 ≤ c.toNat) :
    ∀ b ∈ String.utf8EncodeChar c, 128 ≤ b.toNat := by
  have hval : ¬ c.val.toNat ≤ 0x7f := by
    change ¬ c.toNat ≤ 0x7f
    omega
  unfold String.utf8EncodeChar
  rw [if_neg hval]
  split
  · simp; omega
  · split
    · simp; omega
    · simp; omega

/-- The bytes of a character: itself in ASCII, plain ones beyond it. -/
theorem bytes_cons (c : Char) :
    (∃ b, glyph b = c ∧ c.utf8Size = 1 ∧ ∀ t, bytes (c :: t) = b :: bytes t) ∨
      ∃ bs, bs ≠ [] ∧ bs.length = c.utf8Size ∧ (∀ b ∈ bs, IsPlain (glyph b)) ∧ IsPlain c ∧
        ∀ t, bytes (c :: t) = bs ++ bytes t := by
  have happ : ∀ t, bytes (c :: t) = String.utf8EncodeChar c ++ bytes t := fun t => rfl
  by_cases h : c.toNat < 128
  · have hsize : c.utf8Size = 1 := Char.utf8Size_eq_one_iff.2 (UInt32.le_iff_toNat_le.2 (by
      change c.toNat ≤ 127
      omega))
    rw [String.utf8EncodeChar_eq_singleton hsize] at happ
    exact Or.inl ⟨_, glyph_toUInt8 h, hsize, happ⟩
  · have hlen := String.length_utf8EncodeChar c
    have hpos := c.utf8Size_pos
    refine Or.inr ⟨_, ?_, hlen, fun b hb => ?_, isPlain_of_le (by omega), happ⟩
    · exact List.ne_nil_of_length_pos (by omega)
    · have := le_of_mem_utf8EncodeChar (by omega) b hb
      exact isPlain_of_le (by rwa [toNat_glyph])

/-- The first byte of a text is its first character, or both of them mark nothing up. -/
theorem exists_head_bytes (c : Char) (t : Text) : ∃ b bs, bytes (c :: t) = b :: bs ∧
    (glyph b = c ∧ bs = bytes t ∨ IsPlain (glyph b) ∧ IsPlain c) := by
  rcases bytes_cons c with ⟨b, hb, -, h⟩ | ⟨bs, hne, -, hbs, hc, h⟩
  · exact ⟨b, _, h t, Or.inl ⟨hb, rfl⟩⟩
  · obtain ⟨b, bs, rfl⟩ := List.exists_cons_of_ne_nil hne
    exact ⟨b, _, h t, Or.inr ⟨hbs b List.mem_cons_self, hc⟩⟩

theorem IsPlain.ne_of_isQuote {c q : Char} (hc : IsPlain c) (hq : isQuote q = true) : c ≠ q := by
  rintro rfl
  rw [hc.quote] at hq
  cases hq

/-- A quote is one byte, which is itself. -/
theorem bytes_quote {q : Char} (hq : isQuote q = true) :
    ∃ b, glyph b = q ∧ q.utf8Size = 1 ∧ ∀ t, bytes (q :: t) = b :: bytes t := by
  rcases bytes_cons q with h | ⟨bs, -, -, -, hplain, -⟩
  · exact h
  · exact absurd rfl (hplain.ne_of_isQuote hq)

/-! ## Cutting at offsets -/

theorem splitAt?_append (u v : Text) : splitAt? (byteLength u) (u ++ v) = some (u, v) := by
  induction u with
  | nil => rw [byteLength_nil, splitAt?, List.nil_append]
  | cons c u ih =>
    have hpos := c.utf8Size_pos
    obtain ⟨n, hn⟩ : ∃ n, c.utf8Size + byteLength u = n + 1 := ⟨_, (Nat.succ_pred_eq_of_pos
      (by omega)).symm⟩
    rw [byteLength_cons, hn, List.cons_append, splitAt?, if_pos (by omega), ← hn,
      Nat.add_sub_cancel_left, ih]
    rfl

/-- An offset cuts a text exactly when it is the length of what stands in front of the cut. -/
theorem splitAt?_eq_some_iff {n : Nat} {t u v : Text} :
    splitAt? n t = some (u, v) ↔ t = u ++ v ∧ byteLength u = n := by
  constructor
  · intro h
    fun_induction splitAt? n t generalizing u v with
    | case1 t => cases h; exact ⟨rfl, rfl⟩
    | case2 => cases h
    | case3 n c r hle ih =>
      obtain ⟨⟨x, y⟩, hxy, e⟩ := Option.map_eq_some_iff.1 h
      cases e
      obtain ⟨rfl, hx⟩ := ih hxy
      exact ⟨rfl, by rw [byteLength_cons]; omega⟩
    | case4 => cases h
  · rintro ⟨rfl, rfl⟩
    exact splitAt?_append u v

theorem slice?_append (x u y : Text) :
    slice? (x ++ u ++ y) (byteLength x) (byteLength x + byteLength u) = some u := by
  rw [slice?, if_pos (Nat.le_add_right _ _), List.append_assoc, splitAt?_append,
    Nat.add_sub_cancel_left]
  change (splitAt? (byteLength u) (u ++ y)).bind _ = _
  rw [splitAt?_append]
  rfl

/-- A slice is the part of the text that stands between its offsets. -/
theorem slice?_eq_some_iff {t u : Text} {start stop : Nat} :
    slice? t start stop = some u ↔
      ∃ x y, t = x ++ u ++ y ∧ byteLength x = start ∧ start + byteLength u = stop := by
  constructor
  · intro h
    rw [slice?] at h
    split at h
    · obtain ⟨⟨x, behind⟩, hx, h⟩ := Option.bind_eq_some_iff.1 h
      obtain ⟨⟨u', y⟩, hu, e⟩ := Option.bind_eq_some_iff.1 h
      cases e
      obtain ⟨rfl, rfl⟩ := splitAt?_eq_some_iff.1 hx
      obtain ⟨rfl, hlen⟩ := splitAt?_eq_some_iff.1 hu
      exact ⟨x, y, (List.append_assoc x u y).symm, rfl, by omega⟩
    · cases h
  · rintro ⟨x, y, rfl, rfl, rfl⟩
    exact slice?_append x u y

/-- From the start of a part on, a slice up to the end is all that is left. -/
theorem slice?_rest (x s : Text) :
    slice? (x ++ s) (byteLength x) (byteLength (x ++ s)) = some s := by
  simpa using slice?_append x s []

/-- Searching finds the offset at which a character stands for the first time. -/
theorem find?_eq_some_iff {c : Char} {t : Text} {n : Nat} :
    find? c t = some n ↔ ∃ u v, t = u ++ c :: v ∧ c ∉ u ∧ byteLength u = n := by
  constructor
  · intro h
    induction t generalizing n with
    | nil => cases h
    | cons d r ih =>
      rw [find?] at h
      split at h
      · next e => cases h; exact ⟨[], r, by rw [e]; rfl, List.not_mem_nil, rfl⟩
      · next hne =>
        obtain ⟨m, hm, rfl⟩ := Option.map_eq_some_iff.1 h
        obtain ⟨u, v, rfl, hu, rfl⟩ := ih hm
        refine ⟨d :: u, v, rfl, ?_, rfl⟩
        rw [List.mem_cons, not_or]
        exact ⟨fun e => hne e.symm, hu⟩
  · rintro ⟨u, v, rfl, hu, rfl⟩
    induction u with
    | nil => simp [find?]
    | cons d u ih =>
      rw [List.mem_cons, not_or] at hu
      rw [List.cons_append, find?, if_neg (fun e => hu.1 e.symm), ih hu.2]
      rfl

theorem find?_eq_none_iff {c : Char} {t : Text} : find? c t = none ↔ c ∉ t := by
  induction t with
  | nil => simp [find?]
  | cons d r ih =>
    by_cases h : d = c
    · simp [find?, h]
    · rw [find?, if_neg h, Option.map_eq_none_iff, ih, List.mem_cons, not_or]
      exact ⟨fun hr => ⟨fun e => h e.symm, hr⟩, And.right⟩

end Tagtext
