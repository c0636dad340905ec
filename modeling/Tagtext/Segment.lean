import Tagtext.Name
import Tagtext.Quoted
import Tagtext.Text.Blank
import Tagtext.ParseError

/-!
# Segments of a document

`scan` cuts a document from left to right into literal text, tag markers (a
whole `[...]` span) and malformed spans.  A bracket opens a marker only in front
of a name or of a slash and a name (`opensTag`); every other bracket is text.
A marker ends at the first closing bracket outside quotes, and a quote opens
only directly behind an equals sign or an ASCII blank.

Nothing is lost, and every segment moves on:

    ((scan t).map Segment.raw).flatten = t                          (flatten_scan)
    s ∈ scan t → s.raw ≠ []                                         (raw_ne_nil_of_mem_scan)
-/

namespace Tagtext

/-- One piece of a scanned document. -/
inductive Segment where
  /-- Text that stands for itself. -/
  | literal (text : Text)
  /-- A complete marker, brackets included, and the offset it starts at. -/
  | marker (raw : Text) (start : Nat)
  /-- A span that opened like a marker and went wrong. -/
  | malformed (raw : Text) (error : ParseError)
  deriving DecidableEq, Repr

/-- The text of a segment as written. -/
def Segment.raw : Segment → Text
  | literal t => t
  | marker t _ => t
  | malformed t _ => t

/-- What a cut takes off the front of a text, what it leaves, and the fault it met. -/
structure Cut where
  taken : Text
  rest : Text
  fault : Option ParseError

/-! ## Algorithm -/

/-- Whether a marker opens at the start of a text. -/
def opensTag : Text → Bool
  | '[' :: '/' :: c :: _ => isNameStart c
  | '[' :: c :: _ => isNameStart c
  | _ => false

/-- Splits a text in front of the first marker that opens in it. -/
def splitAtTag : Text → Text × Text
  | [] => ([], [])
  | c :: r =>
    if opensTag (c :: r) then ([], c :: r)
    else
      let (before, after) := splitAtTag r
      (c :: before, after)

/-- Puts a text in front of what a cut has taken. -/
def Cut.prepend (t : Text) (k : Cut) : Cut := { k with taken := t ++ k.taken }

/-- Cuts off the part of a marker behind its name, `pos` being the offset reached.
A quote opens a value only while `valueStart` holds. -/
def cutBody (start : Nat) (valueStart : Bool) (pos : Nat) (s : Text) : Cut :=
  match s with
  | [] => ⟨[], [], some (.unterminatedTag start)⟩
  | c :: r =>
    if c = ']' then ⟨[c], r, none⟩
    else if c = '[' then ⟨[], c :: r, some (.unexpectedBracket pos)⟩
    else if valueStart && isQuote c then
      match h : skipQuoted c r with
      | some (inside, rest) =>
        have : rest.length ≤ r.length := length_skipQuoted h
        (cutBody start false (pos + byteLength (c :: inside)) rest).prepend (c :: inside)
      | none =>
        let (before, after) := splitBehind ']' (c :: r)
        ⟨before, after, some (.unterminatedQuote pos)⟩
    else
      (cutBody start (c == '=' || isAsciiBlank c) (pos + c.utf8Size) r).prepend [c]
termination_by s.length
decreasing_by all_goals simp_wf <;> omega

/-- The opening bracket, the slash of a closing tag and the name: what a marker starts with. -/
def splitHead : Text → Text × Text
  | '[' :: '/' :: r => ('[' :: '/' :: r.takeWhile isNameChar, r.dropWhile isNameChar)
  | '[' :: r => ('[' :: r.takeWhile isNameChar, r.dropWhile isNameChar)
  | s => ([], s)

/-- Cuts the marker that opens at the start of a text, `start` being its offset. -/
def cutMarker (start : Nat) (s : Text) : Cut :=
  let (head, body) := splitHead s
  (cutBody start false (start + byteLength head) body).prepend head

/-- The segment that a cut at `start` makes. -/
def Cut.segment (start : Nat) (k : Cut) : Segment :=
  match k.fault with
  | none => .marker k.taken start
  | some e => .malformed k.taken e

/-! ## Lemmas -/

theorem splitAtTag_append (s : Text) : (splitAtTag s).1 ++ (splitAtTag s).2 = s := by
  induction s with
  | nil => rfl
  | cons c r ih =>
    unfold splitAtTag
    split
    · rfl
    · simp [ih]

theorem splitAtTag_ne_nil {c : Char} {r : Text} (h : opensTag (c :: r) = false) :
    (splitAtTag (c :: r)).1 ≠ [] := by
  simp [splitAtTag, h]

theorem splitHead_append (s : Text) : (splitHead s).1 ++ (splitHead s).2 = s := by
  unfold splitHead
  split <;> simp

theorem splitHead_ne_nil {s : Text} (h : opensTag s = true) : (splitHead s).1 ≠ [] := by
  unfold opensTag at h
  split at h <;> simp_all [splitHead]
  all_goals split <;> simp_all

@[simp] theorem Cut.taken_prepend (t : Text) (k : Cut) : (k.prepend t).taken = t ++ k.taken := rfl
@[simp] theorem Cut.rest_prepend (t : Text) (k : Cut) : (k.prepend t).rest = k.rest := rfl
@[simp] theorem Cut.fault_prepend (t : Text) (k : Cut) : (k.prepend t).fault = k.fault := rfl

theorem cutBody_append (start : Nat) (v : Bool) (pos : Nat) (s : Text) :
    (cutBody start v pos s).taken ++ (cutBody start v pos s).rest = s := by
  fun_induction cutBody start v pos s with
  | case1 => rfl
  | case2 => rfl
  | case3 => rfl
  | case4 v pos c r _ _ _ inside rest h _ ih =>
    rw [Cut.taken_prepend, Cut.rest_prepend, List.append_assoc, ih, List.cons_append,
      skipQuoted_append h]
  | case5 v pos c r _ _ _ h before after hs =>
    have := splitBehind_append ']' (c :: r)
    rw [hs] at this
    exact this
  | case6 v pos c r _ _ _ ih => simp [ih]

theorem cutMarker_append (start : Nat) (s : Text) :
    (cutMarker start s).taken ++ (cutMarker start s).rest = s := by
  simp [cutMarker, cutBody_append, splitHead_append]

theorem taken_cutMarker_ne_nil (start : Nat) {s : Text} (h : opensTag s = true) :
    (cutMarker start s).taken ≠ [] := by
  simp [cutMarker, splitHead_ne_nil h]

theorem length_lt_of_append {a b s : Text} (h : a ++ b = s) (ha : a ≠ []) :
    b.length < s.length := by
  have := List.length_pos_iff.2 ha
  rw [← h, List.length_append]
  omega

/-! ## Scanning -/

/-- The segments of a text that starts at the offset `pos`. -/
def scanFrom (pos : Nat) (s : Text) : List Segment :=
  match s with
  | [] => []
  | c :: r =>
    if h : opensTag (c :: r) then
      let k := cutMarker pos (c :: r)
      have : k.rest.length < (c :: r).length :=
        length_lt_of_append (cutMarker_append pos _) (taken_cutMarker_ne_nil pos h)
      k.segment pos :: scanFrom (pos + byteLength k.taken) k.rest
    else
      let k := splitAtTag (c :: r)
      have : k.2.length < (c :: r).length :=
        length_lt_of_append (splitAtTag_append _) (splitAtTag_ne_nil (by simpa using h))
      .literal k.1 :: scanFrom (pos + byteLength k.1) k.2
termination_by s.length
decreasing_by
  · exact this
  · exact this

/-- The segments of a document, in order. -/
def scan (s : Text) : List Segment := scanFrom 0 s

@[simp] theorem Cut.raw_segment (pos : Nat) (k : Cut) : (k.segment pos).raw = k.taken := by
  unfold Cut.segment
  split <;> rfl

theorem Cut.segment_ne_literal (pos : Nat) (k : Cut) (t : Text) : k.segment pos ≠ .literal t := by
  unfold Cut.segment
  split <;> simp

/-- A cut without fault makes a marker, and nothing else does. -/
theorem Cut.segment_eq_marker_iff {pos start : Nat} {k : Cut} {raw : Text} :
    k.segment pos = .marker raw start ↔ k.fault = none ∧ k.taken = raw ∧ pos = start := by
  unfold Cut.segment
  split <;> simp_all

theorem Cut.segment_eq_malformed_iff {pos : Nat} {k : Cut} {raw : Text} {e : ParseError} :
    k.segment pos = .malformed raw e ↔ k.fault = some e ∧ k.taken = raw := by
  unfold Cut.segment
  split <;> simp_all [and_comm]

theorem flatten_scanFrom (pos : Nat) (s : Text) :
    ((scanFrom pos s).map Segment.raw).flatten = s := by
  fun_induction scanFrom pos s with
  | case1 => rfl
  | case2 pos c r h k _ ih => simp [ih, k, cutMarker_append]
  | case3 pos c r h k _ ih => simp [Segment.raw, ih, k, splitAtTag_append]

/-- Scanning loses nothing. -/
theorem flatten_scan (s : Text) : ((scan s).map Segment.raw).flatten = s := flatten_scanFrom 0 s

theorem raw_ne_nil_of_mem_scanFrom {pos : Nat} {s : Text} {x : Segment}
    (h : x ∈ scanFrom pos s) : x.raw ≠ [] := by
  fun_induction scanFrom pos s with
  | case1 => simp at h
  | case2 pos c r ho k _ ih =>
    rcases List.mem_cons.1 h with rfl | h
    · simpa [k] using taken_cutMarker_ne_nil pos ho
    · exact ih h
  | case3 pos c r ho k _ ih =>
    rcases List.mem_cons.1 h with rfl | h
    · exact splitAtTag_ne_nil (by simpa using ho)
    · exact ih h

/-- Every segment holds at least one character. -/
theorem raw_ne_nil_of_mem_scan {s : Text} {x : Segment} (h : x ∈ scan s) : x.raw ≠ [] :=
  raw_ne_nil_of_mem_scanFrom h

end Tagtext
