import Tagtext.Proofs.Concat
import Tagtext.Proofs.Grammar
import Tagtext.Proofs.Recognition

/-!
# Where faults are reported

A malformed node is a span `raw` of the document, with `before` in front of it
and `after` behind it.  `ParseError.LiesIn before raw after` says which faults
such a span may have, and where each is reported:

    unterminated tag         at the start of the span, which ends the document
    unterminated quote       on a quote in the span
    unexpected bracket       behind the span, where a [ stands
    invalid tag name         at the start of the span
    invalid closing tag      at the start of the span, with the span as written
    argument without a name  on an equals sign in the span

The offsets come from readers that start at different places: the scanner at the
span, the reader of a tag behind its bracket, and the reader of arguments behind
the name.  All of them are offsets into the document
(`malformed_reports_offset`).
-/

namespace Tagtext

/-- What may be wrong with the span `raw` behind `before` and in front of `after`, and where it is
reported. -/
inductive ParseError.LiesIn (before raw after : Text) : ParseError → Prop
  | unterminatedTag (hafter : after = []) :
      LiesIn before raw after (.unterminatedTag (byteLength before))
  | unterminatedQuote {u v : Text} {q : Char} (hraw : raw = u ++ q :: v) (hq : isQuote q = true) :
      LiesIn before raw after (.unterminatedQuote (byteLength before + byteLength u))
  | unexpectedBracket {rest : Text} (hafter : after = '[' :: rest) :
      LiesIn before raw after (.unexpectedBracket (byteLength before + byteLength raw))
  | invalidTagName (name : Text) :
      LiesIn before raw after (.invalidTagName name (byteLength before))
  | invalidCloseTag : LiesIn before raw after (.invalidCloseTag raw (byteLength before))
  | emptyArgumentName {u v : Text} (hraw : raw = u ++ '=' :: v) :
      LiesIn before raw after (.emptyArgumentName (byteLength before + byteLength u))

/-! ## Lemmas -/

section
variable {before raw after : Text} {e : ParseError}

theorem ParseError.LiesIn.le_offset (h : e.LiesIn before raw after) :
    byteLength before ≤ e.offset := by
  cases h <;> simp [offset]

theorem ParseError.LiesIn.offset_le (h : e.LiesIn before raw after) :
    e.offset ≤ byteLength before + byteLength raw := by
  cases h with
  | unterminatedQuote hraw hq => simp [offset, hraw]
  | emptyArgumentName hraw => simp [offset, hraw]
  | unterminatedTag hafter => simp [offset]
  | unexpectedBracket hafter => simp [offset]
  | invalidTagName name => simp [offset]
  | invalidCloseTag => simp [offset]

end

/-! ## Markers -/

/-- A marker that is cut off whole stands in brackets. -/
theorem Marks.bracketed {start : Nat} {s : Text} {k : Cut} (h : Marks start s k)
    (hk : k.fault = none) : ∃ inner, k.taken = '[' :: (inner ++ [']']) := by
  cases h with
  | @complete head p rest hhead hp =>
    cases hhead with
    | @opening name hname hend => exact ⟨name ++ p, by simp⟩
    | @closing name hname hend => exact ⟨'/' :: (name ++ p), by simp⟩
  | bracket hhead hp => cases hk
  | quote hhead hp hopens hq hopen hcut => cases hk
  | ended hhead hp => cases hk

/-- Where scanning reports what is wrong with a marker. -/
theorem Marks.liesIn {before s : Text} {k : Cut} {e : ParseError}
    (h : Marks (byteLength before) s k) (hk : k.fault = some e) :
    e.LiesIn before k.taken k.rest := by
  cases h with
  | complete hhead hp => cases hk
  | bracket hhead hp =>
    cases hk
    exact .unexpectedBracket rfl
  | @quote head p r taken rest q hhead hp hopens hq hopen hcut =>
    cases hk
    -- what is taken in front of the next bracket begins with the quote
    obtain ⟨v, hv⟩ : ∃ v, taken = q :: v := by
      rcases hcut with ⟨u, hu, hs, rfl⟩ | ⟨_, rfl, _⟩
      · cases u with
        | nil => exact absurd (List.cons.inj hs).1 (ne_bracket_of_isQuote hq).1
        | cons c u => exact ⟨u ++ [']'], by rw [(List.cons.inj hs).1]; rfl⟩
      · exact ⟨r, rfl⟩
    exact .unterminatedQuote (u := head ++ p) (v := v) (by simp [hv]) hq
  | ended hhead hp =>
    cases hk
    exact .unterminatedTag rfl

/-! ## Tags -/

/-- How far a reader of arguments has come is an offset into the document. -/
theorem Tag.ReadsTo.exists_append {raw name tail : Text} {start p : Nat} {kind : TagKind}
    {args : Arguments} (h : ReadsTo raw start name kind args p tail) :
    ∃ u z, raw = u ++ (tail ++ z) ∧ p = start + byteLength u := by
  obtain ⟨rest, body, hopens, hbody, hread⟩ := h
  obtain ⟨u, rfl, rfl⟩ := hread.exists_append
  obtain ⟨z, rfl⟩ : ∃ z, rest = u ++ tail ++ z := by
    cases hbody with
    | @opening body blanks hblanks hbody => exact ⟨blanks, rfl⟩
    | @selfClosing body blanks hblanks => exact ⟨'/' :: blanks, rfl⟩
  refine ⟨'[' :: (name ++ u), z ++ [']'], by simp [hopens.raw_eq], ?_⟩
  have hbracket : '['.utf8Size = 1 := by decide
  simp [hbracket, Nat.add_assoc]

/-- Where the reader of a tag reports what is wrong with a marker. -/
theorem Tag.Faults.liesIn {before raw : Text} {e : ParseError}
    (h : Faults raw (byteLength before) e) (hraw : ∃ inner, raw = '[' :: (inner ++ [']']))
    (after : Text) : e.LiesIn before raw after := by
  cases h with
  | unbracketed hno =>
    obtain ⟨inner, hraw⟩ := hraw
    exact absurd hraw (hno inner)
  | closer hcloser hno => exact .invalidCloseTag
  | name hname hslash hno => exact .invalidTagName _
  | argument hread hfault =>
    obtain ⟨u, z, hu, rfl⟩ := hread.exists_append
    cases hfault with
    | unnamed r => exact .emptyArgumentName (v := r ++ z) hu
    | unclosed hopen =>
      cases hopen with
      | @quoted q r hq hopen => exact .unterminatedQuote (v := r ++ z) hu hq
      | @named w r q hw hq hopen =>
        have hequals : '='.utf8Size = 1 := by decide
        have hoffset : byteLength before + byteLength u + byteLength w + 1 =
            byteLength before + byteLength (u ++ (w ++ ['='])) := by
          simp [hequals, Nat.add_assoc]
        rw [hoffset]
        exact .unterminatedQuote (v := r ++ z) (by simp [hu]) hq

/-! ## Documents -/

/-- Where a malformed segment behind some others has its fault. -/
theorem Scans.liesIn {pos : Nat} {s : Text} {xs : List Segment} (h : Scans pos s xs) :
    ∀ (before : Text) {raw : Text} {e : ParseError} {a b : List Segment} {x : Segment},
      pos = byteLength before → xs = a ++ x :: b → Node.ofSegment x = .malformed raw e →
        e.LiesIn (before ++ (a.map Segment.raw).flatten) raw (b.map Segment.raw).flatten := by
  induction h with
  | nil pos =>
    intro before raw e a b x _ hxs _
    simp at hxs
  | @literal pos t rest xs ht htext hrest hscans ih =>
    intro before raw e a b x hpos hxs hx
    cases a with
    | nil =>
      cases hxs
      cases hx
    | cons y a =>
      obtain ⟨rfl, htail⟩ := List.cons.inj hxs
      have hrec := ih (before ++ t) (by simp [hpos]) htail hx
      rwa [List.append_assoc] at hrec
  | @marker pos s k xs hk hscans ih =>
    intro before raw e a b x hpos hxs hx
    cases a with
    | nil =>
      obtain ⟨rfl, rfl⟩ := List.cons.inj hxs
      have hraw : k.taken = raw := by
        rw [← Cut.raw_segment pos k, ← Node.raw_ofSegment, hx]
        rfl
      have hrest : k.rest = (xs.map Segment.raw).flatten := by
        rw [← scanFrom_eq_iff.2 hscans, flatten_scanFrom]
      subst hpos
      rw [List.map_nil, List.flatten_nil, List.append_nil, ← hrest, ← hraw]
      unfold Cut.segment at hx
      split at hx
      · next hfault =>
        -- the marker is whole, and is no tag
        simp only [Node.ofSegment] at hx
        split at hx
        · cases hx
        · next hparse =>
          cases hx
          exact (Tag.parse_eq_error_iff.1 hparse).liesIn (hk.bracketed hfault) _
      · next hfault =>
        cases hx
        exact hk.liesIn hfault
    | cons y a =>
      obtain ⟨rfl, htail⟩ := List.cons.inj hxs
      have hrec := ih (before ++ k.taken) (by simp [hpos]) htail hx
      rwa [List.append_assoc, ← Cut.raw_segment pos k] at hrec

namespace Document

/-- The nodes of a document are those in front of one, that node, and those behind it. -/
theorem nodes_split {d : Document} {i : Nat} {n : Node} (h : d.nodes[i]? = some n) :
    d.nodes = d.nodes.take i ++ n :: d.nodes.drop (i + 1) := by
  obtain ⟨hlt, rfl⟩ := List.getElem?_eq_some_iff.1 h
  rw [← List.drop_eq_getElem_cons hlt, List.take_append_drop]

/-- A malformed node has its fault where it stands in the document. -/
theorem liesIn_parse {input raw : Text} {e : ParseError} {a b : List Node}
    (h : (parse input).nodes = a ++ .malformed raw e :: b) :
    e.LiesIn (a.map Node.raw).flatten raw (b.map Node.raw).flatten := by
  have hscan := map_unmatched_parse input
  rw [h, List.map_append, List.map_cons] at hscan
  obtain ⟨xs, ys, hxs, hxsa, hys⟩ := List.map_eq_append_iff.1 hscan.symm
  obtain ⟨x, zs, rfl, hx, hzs⟩ := List.map_eq_cons_iff.1 hys
  have hscans : Scans 0 input (scan input) := scanFrom_eq_iff.1 rfl
  have hraw : ∀ {ns : List Node} {ss : List Segment},
      ss.map Node.ofSegment = ns.map Node.unmatched → ss.map Segment.raw = ns.map Node.raw := by
    intro ns ss he
    have hmap := congrArg (List.map Node.raw) he
    simpa [Function.comp_def] using hmap
  have hlies := hscans.liesIn [] rfl hxs hx
  rwa [hraw hxsa, hraw hzs] at hlies

/-- The faults of nodes that follow each other are reported in order. -/
theorem pairwise_offset_of_liesIn {ns : List Node} : ∀ before : Text,
    (∀ a raw e b, ns = a ++ .malformed raw e :: b →
      e.LiesIn (before ++ (a.map Node.raw).flatten) raw (b.map Node.raw).flatten) →
    ((ns.filterMap Node.error?).map ParseError.offset).Pairwise (· ≤ ·) ∧
      ∀ e ∈ ns.filterMap Node.error?, byteLength before ≤ e.offset := by
  induction ns with
  | nil => simp
  | cons n ns ih =>
    intro before h
    have hbehind := ih (before ++ n.raw) fun a raw e b hns => by
      have hlies := h (n :: a) raw e b (by rw [hns]; rfl)
      rwa [List.map_cons, List.flatten_cons, ← List.append_assoc] at hlies
    have hle : ∀ e ∈ ns.filterMap Node.error?,
        byteLength before + byteLength n.raw ≤ e.offset := by
      simpa using hbehind.2
    cases n with
    | text t => exact ⟨hbehind.1, fun e he => Nat.le_of_add_right_le (hle e he)⟩
    | tag t p => exact ⟨hbehind.1, fun e he => Nat.le_of_add_right_le (hle e he)⟩
    | malformed raw e =>
      have hlies := h [] raw e ns rfl
      rw [List.map_nil, List.flatten_nil, List.append_nil] at hlies
      have hmap : (Node.malformed raw e :: ns).filterMap Node.error? =
          e :: ns.filterMap Node.error? := rfl
      rw [hmap, List.map_cons, List.pairwise_cons, List.forall_mem_cons, List.forall_mem_map]
      exact ⟨⟨fun e' he' => Nat.le_trans hlies.offset_le (hle e' he'), hbehind.1⟩, hlies.le_offset,
        fun e' he' => Nat.le_of_add_right_le (hle e' he')⟩

/-- **Faults are reported where they are.**  A malformed node is a span of the document, and its
fault is one of six: a tag that does not end in front of the end of the document, or has a word in
place of a name, reported at the start of the span; a closing tag that is none, reported there with
the span as written; a quote that does not close, reported on a quote in the span; an argument
without a name, reported on an equals sign in the span; an unexpected bracket, reported behind the
span, where an opening bracket stands.  Faults of later nodes are reported no earlier. -/
theorem malformed_reports_offset (input : Text) :
    (∀ i raw e, (parse input).nodes[i]? = some (.malformed raw e) → ∃ before after,
      before = (((parse input).nodes.take i).map Node.raw).flatten ∧
      input = before ++ raw ++ after ∧ e.LiesIn before raw after) ∧
    ((parse input).errors.map ParseError.offset).Pairwise (· ≤ ·) := by
  refine ⟨fun i raw e hi => ?_,
    (pairwise_offset_of_liesIn [] fun a raw e b h => liesIn_parse h).1⟩
  have hsplit := nodes_split hi
  refine ⟨_, (((parse input).nodes.drop (i + 1)).map Node.raw).flatten, rfl, ?_,
    liesIn_parse hsplit⟩
  have hsource := source_parse input
  rw [source, hsplit, List.map_append, List.map_cons, List.flatten_append, List.flatten_cons,
    ← List.append_assoc] at hsource
  exact hsource.symm

end Document

end Tagtext
