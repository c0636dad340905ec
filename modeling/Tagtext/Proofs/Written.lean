import Tagtext.Proofs.Lexeme

/-!
# Tags as they are printed

`writeTag` prints a tag: its name, its arguments with every value in quotes and
escaped, a slash if it stands alone.  Wherever no bracket stands in front of it,
a printed tag is read back:

    the document before ++ writeTag name kind args ++ after holds, behind `before`,
    the tag with this name, kind and arguments                      (Document.parse_written)

Each argument is printed with a quote of its own, which is why they come in
pairs.  The names are those that an argument can have in front of a quoted value
(`Argument.Writable`); the values are all that do not end in a backslash.
-/

namespace Tagtext

/-! ## Printing -/

/-- A value in quotes, escaped. -/
def quoted (q : Char) (value : Text) : Text := q :: (escape value ++ [q])

/-- An argument with its value in quotes. -/
def Argument.written (q : Char) (a : Argument) : Text :=
  match a.name with
  | none => quoted q a.value
  | some name => name ++ '=' :: quoted q a.value

/-- Arguments, each with its quote, a space in front of each. -/
def writeArguments : List (Char × Argument) → Text
  | [] => []
  | (q, a) :: more => ' ' :: (a.written q ++ writeArguments more)

/-- What stands in front of the closing bracket. -/
def TagKind.written : TagKind → Text
  | .selfClosing => [' ', '/']
  | _ => []

/-- A tag with arguments. -/
def writeTag (name : Text) (kind : TagKind) (args : List (Char × Argument)) : Text :=
  '[' :: (name ++ ((writeArguments args ++ kind.written) ++ [']']))

/-- What is printed so that it is read back. -/
structure Argument.Writable (a : Argument) : Prop where
  /-- The name is a word without brackets. -/
  name : ∀ name, a.name = some name → name ≠ [] ∧
    (∀ c ∈ name, isBlank c = false ∧ c ≠ '=' ∧ c ≠ '[' ∧ c ≠ ']') ∧
    ∀ c ∈ name.head?, isQuote c = false
  value : a.value.getLast? ≠ some '\\'

/-! ## Values -/

/-- An escaped value is skipped up to its closing quote. -/
theorem skipQuoted_escape {q : Char} (hq : isQuote q = true) {value : Text}
    (hvalue : value.getLast? ≠ some '\\') :
    skipQuoted q (escape value ++ [q]) = some (escape value ++ [q], []) ∧
      unescape (escape value) = value := by
  have hread := readQuoted_escape hq value [] hvalue
  rw [readQuoted_eq hq] at hread
  obtain ⟨⟨inside, rest⟩, hskip, he⟩ := Option.map_eq_some_iff.1 hread
  obtain ⟨hvalue', rfl⟩ := Prod.mk.inj he
  have happ := skipQuoted_append hskip
  rw [List.append_nil] at happ
  subst happ
  rw [List.dropLast_concat] at hvalue'
  exact ⟨hskip, hvalue'⟩

section
variable {q : Char} (hq : isQuote q = true)
include hq

/-- A value in quotes is gone over as a whole. -/
theorem skim_quoted {value : Text} (hvalue : value.getLast? ≠ some '\\') (pos : Nat) :
    skim true pos (quoted q value) = some ([⟨pos, quoted q value⟩], false) := by
  have hne := ne_bracket_of_isQuote hq
  rw [quoted, skim_value hne.1 hne.2 (by simpa using hq) (skipQuoted_escape hq hvalue).1, skim_nil]
  rfl

variable {a : Argument} (ha : a.Writable)
include ha

/-- A printed argument is an item, and is gone over behind a space. -/
theorem item_written (pos : Nat) : ∃ quote, Arguments.Item pos (a.written q) ⟨a, some quote⟩ ∧
    skim true pos (a.written q) = some ([quote], false) := by
  obtain ⟨name, value⟩ := a
  obtain ⟨hskip, hvalue⟩ := skipQuoted_escape hq ha.value
  have hinside : Arguments.IsInside q (escape value ++ [q]) := ⟨hq, hskip⟩
  have hread : unescape (escape value ++ [q]).dropLast = value := by
    rw [List.dropLast_concat, hvalue]
  cases name with
  | none =>
    have hitem : Arguments.Item pos _ _ := .quoted hinside
    rw [hread] at hitem
    exact ⟨_, hitem, skim_quoted hq ha.value pos⟩
  | some name =>
    obtain ⟨hne, hall, hhead⟩ := ha.name name rfl
    have hword : Arguments.IsWord name := by
      refine ⟨hne, fun c hc => ?_, hhead⟩
      obtain ⟨hblank, hequals, _⟩ := hall c hc
      simp [Arguments.isWordChar, hblank, hequals]
    have hitem : Arguments.Item pos _ _ := .namedQuoted hword hinside
    rw [hread] at hitem
    have hbracket : ∀ c ∈ name, c ≠ ']' ∧ c ≠ '[' := by
      intro c hc
      obtain ⟨_, _, hopen, hclose⟩ := hall c hc
      exact ⟨hclose, hopen⟩
    refine ⟨_, hitem, ?_⟩
    show skim true pos (name ++ '=' :: quoted q value) = _
    rw [Arguments.skim_named hword hbracket, skim_quoted hq ha.value]
    rfl

end

/-! ## Arguments -/

theorem lex_of_blank {t : Text} (ht : ∀ c ∈ t, isBlank c = true) (pos : Nat) :
    Arguments.lex pos t = .ok [] := by
  induction t generalizing pos with
  | nil => rw [Arguments.lex_eq_lexemes, Arguments.lexemes_nil]; rfl
  | cons c t ih =>
    rw [List.forall_mem_cons] at ht
    rw [Arguments.lex_blank ht.1, ih ht.2]

theorem getLast?_written (q : Char) (a : Argument) : (a.written q).getLast? = some q := by
  unfold Argument.written quoted
  cases a.name <;> simp [List.getLast?_append, List.getLast?_cons]

/-- What each printed argument is: in quotes of its own, and such that it is read back. -/
abbrev WritableArguments (args : List (Char × Argument)) : Prop :=
  ∀ a ∈ args, isQuote a.1 = true ∧ a.2.Writable

section
variable {args : List (Char × Argument)} (h : WritableArguments args)
include h

/-- Printed arguments are read back. -/
theorem lex_writeArguments {t : Text} (ht : ∀ c ∈ t, isBlank c = true) (pos : Nat) :
    Arguments.lex pos (writeArguments args ++ t) = .ok (args.map (·.2)) := by
  induction args generalizing pos with
  | nil => exact lex_of_blank ht pos
  | cons a args ih =>
    obtain ⟨q, a⟩ := a
    obtain ⟨⟨hq, ha⟩, h⟩ := List.forall_mem_cons.1 h
    obtain ⟨quote, hitem, _⟩ := item_written hq ha (pos + 1)
    have hspace : Char.utf8Size ' ' = 1 := rfl
    rw [writeArguments, List.cons_append, List.append_assoc,
      Arguments.lex_blank (by decide), hspace, Arguments.lex_item hitem (by simp), ih h]
    rfl

/-- Printed arguments are gone over. -/
theorem exists_skim_writeArguments (v : Bool) (pos : Nat) :
    ∃ quotes w, skim v pos (writeArguments args) = some (quotes, w) := by
  induction args generalizing v pos with
  | nil => exact ⟨[], v, skim_nil⟩
  | cons a args ih =>
    obtain ⟨q, a⟩ := a
    obtain ⟨⟨hq, ha⟩, h⟩ := List.forall_mem_cons.1 h
    obtain ⟨quote, _, hskim⟩ := item_written hq ha (pos + 1)
    obtain ⟨quotes, w, hmore⟩ := ih h false (pos + 1 + byteLength (a.written q))
    have hspace : Char.utf8Size ' ' = 1 := rfl
    refine ⟨quote :: quotes, w, ?_⟩
    rw [writeArguments, skim_other (by decide) (by decide) (by simp [isQuote]), hspace]
    show skim true (pos + 1) _ = _
    rw [skim_append hskim, hmore]
    rfl

/-- Printed arguments end in a quote. -/
theorem getLast?_writeArguments : ∀ c ∈ (writeArguments args).getLast?, isQuote c = true := by
  induction args with
  | nil => simp [writeArguments]
  | cons a args ih =>
    obtain ⟨q, a⟩ := a
    obtain ⟨⟨hq, _⟩, h⟩ := List.forall_mem_cons.1 h
    have ih := ih h
    intro c hc
    rw [writeArguments, List.getLast?_cons, List.getLast?_append, getLast?_written] at hc
    cases hl : (writeArguments args).getLast? with
    | none =>
      rw [hl] at hc
      cases hc
      exact hq
    | some d =>
      rw [hl] at hc ih
      cases hc
      exact ih d rfl

end

/-! ## Tags -/

/-- A text that does not end in a blank stays whole. -/
theorem trimEnd_of_getLast? {t : Text} (h : ∀ c ∈ t.getLast?, isBlank c = false) :
    trimEnd t = t := by
  induction t with
  | nil => rfl
  | cons c t ih =>
    cases t with
    | nil => simp [trimEnd, h c rfl]
    | cons d t =>
      rw [trimEnd, ih (by simpa [List.getLast?_cons] using h)]

/-- What stands behind the name of a printed tag is taken apart again: its arguments, and blanks if
it stands alone. -/
theorem splitSlash_written {kind : TagKind} (hkind : kind ≠ .closing)
    {args : List (Char × Argument)} (h : WritableArguments args) :
    ∃ t, Tag.splitSlash (trimEnd (writeArguments args ++ kind.written)) =
      (writeArguments args ++ t, kind) ∧ ∀ c ∈ t, isBlank c = true := by
  have hquote := getLast?_writeArguments h
  cases kind with
  | closing => exact absurd rfl hkind
  | selfClosing =>
    refine ⟨[' '], ?_, List.forall_mem_singleton.2 rfl⟩
    rw [trimEnd_of_getLast? (by simp [TagKind.written]; decide)]
    simp [Tag.splitSlash, TagKind.written]
  | opening =>
    refine ⟨[], ?_, by simp⟩
    rw [TagKind.written, List.append_nil]
    · rw [trimEnd_of_getLast? fun c hc => Arguments.isBlank_of_isWordChar
        (Arguments.isWordChar_of_isQuote (hquote c hc)), Tag.splitSlash, if_neg]
      intro hslash
      cases hquote '/' hslash
    · simp

theorem endsName_written (kind : TagKind) (args : List (Char × Argument)) :
    Tag.endsName (writeArguments args ++ kind.written) = true := by
  cases args with
  | nil => cases kind <;> rfl
  | cons a args => rfl

section
variable {name : Text} (hname : isTagName name = true) (kind : TagKind)
  {args : List (Char × Argument)} (h : WritableArguments args)
include hname h

/-- A printed tag is read back. -/
theorem parse_writeTag (hkind : kind ≠ .closing) (start : Nat) :
    Tag.parse (writeTag name kind args) start =
      .ok ⟨name, kind, args.map (·.2), writeTag name kind args, start⟩ := by
  obtain ⟨t, hsplit, ht⟩ := splitSlash_written hkind h
  rw [writeTag, Tag.parse_name hname (endsName_written kind args), hsplit]
  simp only [lex_writeArguments h ht]

/-- A printed tag is a marker, whatever follows. -/
theorem scanFrom_writeTag (start : Nat) (after : Text) :
    opensTag (writeTag name kind args ++ after) = true ∧
      scanFrom start (writeTag name kind args ++ after) =
        .marker (writeTag name kind args) start ::
          scanFrom (start + byteLength (writeTag name kind args)) after := by
  have hopens : opensTag (writeTag name kind args ++ after) = true :=
    opensTag_append (opensTag_name hname _) after
  obtain ⟨quotes, w, hargs⟩ := exists_skim_writeArguments h false (start + 1 + byteLength name)
  obtain ⟨w', htail⟩ := exists_skim_separators (s := kind.written)
    (by cases kind <;> simp [TagKind.written]; decide) w
    (start + 1 + byteLength name + byteLength (writeArguments args))
  have hskim := skim_append hargs kind.written
  rw [htail] at hskim
  have hcut := cutMarker_close hname (endsName_written kind args) hskim after
  refine ⟨hopens, ?_⟩
  rw [scanFrom_marker hopens]
  simp only [writeTag, List.cons_append, List.append_assoc, List.nil_append] at hcut ⊢
  rw [hcut]
  rfl

end

/-! ## Documents -/

theorem opensTag_eq_false {c : Char} (hc : c ≠ '[') (r : Text) : opensTag (c :: r) = false := by
  unfold opensTag
  split
  · next h => exact absurd (List.cons.inj h).1 hc
  · next h => exact absurd (List.cons.inj h).1 hc
  · rfl

/-- Text without opening bracket is split off in front of a marker. -/
theorem splitAtTag_of_not_mem {before t : Text} (hbefore : '[' ∉ before)
    (ht : opensTag t = true) : splitAtTag (before ++ t) = (before, t) := by
  induction before with
  | nil =>
    cases t with
    | nil => cases ht
    | cons c t =>
      rw [List.nil_append, splitAtTag, if_pos ht]
  | cons c before ih =>
    rw [List.mem_cons, not_or] at hbefore
    rw [List.cons_append, splitAtTag, if_neg, ih hbefore.2]
    rw [opensTag_eq_false (Ne.symm hbefore.1)]
    decide

/-- Text without opening bracket is one segment, or none if it is empty. -/
theorem exists_scan_of_not_mem {before t : Text} (hbefore : '[' ∉ before)
    (ht : opensTag t = true) : ∃ a, scan (before ++ t) = a ++ scanFrom (byteLength before) t ∧
      (a.map Segment.raw).flatten = before := by
  cases before with
  | nil => exact ⟨[], rfl, rfl⟩
  | cons c before =>
    have hsplit := splitAtTag_of_not_mem hbefore ht
    rw [List.cons_append] at hsplit ⊢
    rw [List.mem_cons, not_or] at hbefore
    refine ⟨[.literal (c :: before)], ?_, by simp [Segment.raw]⟩
    rw [scan, scanFrom_literal (List.cons_ne_nil c _)
      (opensTag_eq_false (Ne.symm hbefore.1) (before ++ t)), hsplit, Nat.zero_add]
    rfl

namespace Document

/-- A marker that can be read is a tag behind all that stands in front of it. -/
theorem exists_node_of_scan {input raw : Text} {a b : List Segment} {start : Nat} {tag : Tag}
    (h : scan input = a ++ .marker raw start :: b) (htag : Tag.parse raw start = .ok tag) :
    ∃ k partner, (parse input).nodes[k]? = some (.tag tag partner) ∧
      (((parse input).nodes.take k).map Node.raw).flatten = (a.map Segment.raw).flatten := by
  refine ⟨a.length, partnerIn (pairsFrom 0 [] ((scan input).map Node.ofSegment)) a.length, ?_, ?_⟩
  · rw [parse, matchTags, List.getElem?_mapIdx, h]
    simp [Node.ofSegment, htag, Node.withPartner]
  · rw [raw_take_parse, h, List.take_left']
    rfl

/-- **A printed tag is read back**: behind a text without opening bracket, and whatever follows, the
document holds the tag that was printed, at the place where it was printed.  The values that can be
printed are all but those that cannot be read at all: none that is read ends in a backslash. -/
theorem parse_written :
    (∀ (before after name : Text) (kind : TagKind) (args : List (Char × Argument)),
      '[' ∉ before → isTagName name = true → kind ≠ .closing → WritableArguments args →
      let raw := writeTag name kind args
      let d := parse (before ++ raw ++ after)
      ∃ k partner, d.nodes[k]? =
          some (.tag ⟨name, kind, args.map (·.2), raw, byteLength before⟩ partner) ∧
        ((d.nodes.take k).map Node.raw).flatten = before) ∧
    ∀ (q : Char) (s value rest : Text), isQuote q = true → readQuoted q s = some (value, rest) →
      value.getLast? ≠ some '\\' := by
  refine ⟨?_, fun q s value rest hq h => getLast?_of_readQuoted hq h⟩
  intro before after name kind args hbefore hname hkind hargs raw d
  obtain ⟨hopens, hscan⟩ := scanFrom_writeTag hname kind hargs (byteLength before) after
  obtain ⟨a, ha, hraw⟩ := exists_scan_of_not_mem hbefore hopens
  rw [hscan, ← List.append_assoc] at ha
  have htag := parse_writeTag hname kind hargs hkind (byteLength before)
  obtain ⟨k, partner, hnode, htake⟩ := exists_node_of_scan ha htag
  exact ⟨k, partner, hnode, htake.trans hraw⟩

/-- Both quotes, a name, and a value with brackets, quotes and a backslash in front of each. -/
theorem parse_written_alone :
    let value := "\\'[\\\\]\"é".toList
    let args := [('"', Argument.positional value), ('\'', .named "k'".toList value)]
    let raw := writeTag "t-1".toList .selfClosing args
    let d := parse ("x]".toList ++ raw ++ "[/t-1]".toList)
    raw = "[t-1 \"\\\\'\\[\\\\\\]\\\"é\" k'='\\\\'\\[\\\\\\]\\\"é' /]".toList ∧
      '[' ∉ "x]".toList ∧ isTagName "t-1".toList = true ∧ WritableArguments args ∧
      ∃ (k : Nat) (partner : Option Nat), d.nodes[k]? =
        some (.tag ⟨"t-1".toList, .selfClosing, args.map (·.2), raw, 2⟩ partner) := by
  intro value args raw d
  have hargs : WritableArguments args := by
    refine List.forall_mem_cons.2 ⟨⟨rfl, ?_, by decide⟩,
      List.forall_mem_singleton.2 ⟨rfl, ?_, by decide⟩⟩
    · intro name h
      cases h
    · intro name h
      cases h
      have hk : ['k', '\''].all (fun c => !isBlank c && c != '=' && c != '[' && c != ']') = true := by
        decide
      exact ⟨by decide, by simpa [and_assoc] using hk, fun c hc => by cases hc; rfl⟩
  obtain ⟨k, partner, h, _⟩ := parse_written.1 "x]".toList "[/t-1]".toList "t-1".toList .selfClosing
    args (by decide) (by decide) (by decide) hargs
  exact ⟨by decide, by decide, by decide, hargs, k, partner, h⟩

end Document

end Tagtext
