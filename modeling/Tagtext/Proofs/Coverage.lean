import Tagtext.Proofs.Slicing
import Tagtext.Proofs.Spacing

/-!
# Nothing of the arguments is left out

The arguments of a tag are read one call at a time (`Bytewise.nextArgument`): a
call passes over blanks, reads one argument, and leaves the offset it has come
to and the text from there on.  It is called again until it finds nothing, or a
fault.  What it has taken from one call to the next is a slice of the text
(`Taken`); that there is always a next slice, and always a last call, follows
from what a single call can do:

    a call finds nothing      only blanks are left
    a call finds an argument  blanks and then its spelling, which is not empty,
                              have been taken
    a call finds a fault      it starts behind the blanks                (exists_nexts)

    Collects (u ++ s) base |u| s ts fault → Covers (base + |u|) s ts fault
                                                                  (Collects.covers)
    Covers pos s ts none → s = the slices of ts in order ++ blanks
                                                                  (Covers.flatten)
    each text has one collection, with no more calls than characters
                                                                  (collects_everything)
-/

namespace Tagtext

namespace Bytewise

open Arguments (Spelled Faults)

/-! ## Algorithm -/

/-- Passes over blanks and reads one argument, `i` being the offset in `src` where `s` starts; no
argument at the end of the text, and no result where a slice fails. -/
def nextArgument (src : Text) (base i : Nat) (s : Text) :
    Option (Except ParseError (Option (Argument × Nat × Text))) :=
  match passUntil (!isBlank ·) i s with
  | (_, []) => some (.ok none)
  | (j, c :: r) => (item src base j (c :: r)).map fun found => found.map some

/-- What one call has taken off the text: blanks, and the source of an argument. -/
structure Taken where
  blanks : Text
  source : Text
  argument : Argument

/-- All that one call has taken, as it stands in the text. -/
def Taken.raw (t : Taken) : Text := t.blanks ++ t.source

/-- Calls from the offset `i` on until one of them finds nothing or a fault, and what each of the
others has taken.  The source of an argument is sliced out from behind the blanks up to the offset
where the call stopped. -/
inductive Collects (src : Text) (base : Nat) :
    Nat → Text → List Taken → Option ParseError → Prop
  | ended {i : Nat} {s : Text} (h : nextArgument src base i s = some (.ok none)) :
      Collects src base i s [] none
  | fault {i : Nat} {s : Text} {e : ParseError}
      (h : nextArgument src base i s = some (.error e)) : Collects src base i s [] (some e)
  | call {i j : Nat} {s rest source : Text} {a : Argument} {ts : List Taken}
      {fault : Option ParseError}
      (h : nextArgument src base i s = some (.ok (some (a, j, rest))))
      (hsource : slice? src (i + byteLength (s.takeWhile isBlank)) j = some source)
      (hmore : Collects src base j rest ts fault) :
      Collects src base i s (⟨s.takeWhile isBlank, source, a⟩ :: ts) fault

/-- What collecting comes to: the arguments that were found, or the fault that ended it. -/
def collected (ts : List Taken) : Option ParseError → Except ParseError Arguments
  | none => .ok (ts.map (·.argument))
  | some e => .error e

/-! ## What a call can do -/

/-- What a call comes to on the text `s` at the offset `i`; `pos` is that offset in the document. -/
inductive Nexts (pos i : Nat) : Text → Except ParseError (Option (Argument × Nat × Text)) → Prop
  | ended {s : Text} (hs : ∀ c ∈ s, isBlank c = true) : Nexts pos i s (.ok none)
  | argument {w u rest : Text} {a : Argument} (hw : ∀ c ∈ w, isBlank c = true)
      (hu : Spelled u a rest) :
      Nexts pos i (w ++ (u ++ rest)) (.ok (some (a, i + byteLength w + byteLength u, rest)))
  | fault {w s : Text} {e : ParseError} (hw : ∀ c ∈ w, isBlank c = true)
      (hs : Faults (pos + byteLength w) s e) : Nexts pos i (w ++ s) (.error e)

/-- What is taken off a text, said of the text alone: blanks and arguments, up to blanks at the end
or a fault behind blanks. -/
inductive Covers : Nat → Text → List Taken → Option ParseError → Prop
  | ended {pos : Nat} {s : Text} (hs : ∀ c ∈ s, isBlank c = true) : Covers pos s [] none
  | fault {pos : Nat} {w s : Text} {e : ParseError} (hw : ∀ c ∈ w, isBlank c = true)
      (hs : Faults (pos + byteLength w) s e) : Covers pos (w ++ s) [] (some e)
  | taken {pos : Nat} {w u rest : Text} {a : Argument} {ts : List Taken}
      {fault : Option ParseError} (hw : ∀ c ∈ w, isBlank c = true) (hu : Spelled u a rest)
      (hmore : Covers (pos + byteLength w + byteLength u) rest ts fault) :
      Covers pos (w ++ (u ++ rest)) (⟨w, u, a⟩ :: ts) fault

/-! ## Lemmas -/

/-- The spelling of an argument starts with a character that is not blank. -/
theorem exists_cons_of_spelled {u rest : Text} {a : Argument} (h : Spelled u a rest) :
    ∃ c r, u = c :: r ∧ isBlank c = false := by
  obtain ⟨quote, hitem, -⟩ := h.exists_item 0
  exact hitem.exists_cons

/-- Blanks are passed over up to the first character that is none. -/
theorem passUntil_blanks {w s : Text} (hw : ∀ c ∈ w, isBlank c = true)
    (hs : ∀ c ∈ s.head?, isBlank c = false) (i : Nat) :
    passUntil (!isBlank ·) i (w ++ s) = (i + byteLength w, s) := by
  obtain ⟨htake, hdrop⟩ := takeWhile_append_of_stop hw hs
  simp only [passUntil_eq, Bool.not_not, htake, hdrop]

section
variable {w v rest : Text} {a : Argument} (hw : ∀ c ∈ w, isBlank c = true) (hv : Spelled v a rest)
include hw hv

theorem takeWhile_blanks : (w ++ (v ++ rest)).takeWhile isBlank = w := by
  obtain ⟨c, r, rfl, hc⟩ := exists_cons_of_spelled hv
  refine (takeWhile_append_of_stop hw fun d hd => ?_).1
  cases hd
  exact hc

/-- The source of an argument is sliced out from behind the blanks. -/
theorem slice?_source (u : Text) : slice? (u ++ (w ++ (v ++ rest)))
    (byteLength u + byteLength ((w ++ (v ++ rest)).takeWhile isBlank))
    (byteLength u + byteLength w + byteLength v) = some v := by
  have hslice := slice?_append (u ++ w) v rest
  rw [byteLength_append, List.append_assoc, List.append_assoc] at hslice
  rw [takeWhile_blanks hw hv]
  exact hslice

end

/-- **What one call can do.**  It always has a result, and no slice fails. -/
theorem exists_nexts (u s : Text) (base : Nat) :
    ∃ x, nextArgument (u ++ s) base (byteLength u) s = some x ∧
      Nexts (base + byteLength u) (byteLength u) s x := by
  -- the blanks in front, and what does not start with one
  have hblank : ∀ c ∈ s.takeWhile isBlank, isBlank c = true :=
    List.all_eq_true.1 List.all_takeWhile
  have hstop := List.head?_dropWhile_not isBlank s
  have happ := List.takeWhile_append_dropWhile (p := isBlank) (l := s)
  generalize s.takeWhile isBlank = w at hblank happ
  generalize s.dropWhile isBlank = t at hstop happ
  subst happ
  cases t with
  | nil =>
    refine ⟨.ok none, ?_, .ended (by simpa using hblank)⟩
    rw [nextArgument, passUntil_blanks hblank (by simp)]
  | cons c r =>
    have hc : isBlank c = false := by simpa using hstop
    have hpass := passUntil_blanks (s := c :: r) hblank (by simpa using hc) (byteLength u)
    have hitem := item_append (u ++ w) (c :: r) base
    rw [List.append_assoc, byteLength_append, ← Nat.add_assoc] at hitem
    obtain ⟨x, hx⟩ := Arguments.exists_reads (base + byteLength u + byteLength w) hc r
    rw [Arguments.readItem_of_reads hx] at hitem
    have hnext : nextArgument (u ++ (w ++ c :: r)) base (byteLength u) (w ++ c :: r) =
        some ((x.map (located (byteLength u + byteLength w) (c :: r))).map some) := by
      simp only [nextArgument, hpass, hitem, Option.map_some]
    refine ⟨_, hnext, ?_⟩
    cases x with
    | error e => exact .fault hblank hx.faults
    | ok k =>
      generalize c :: r = s at hx
      cases hx with
      | @item v rest l hl hrest =>
        have hlen : byteLength (v ++ rest) - byteLength rest = byteLength v := by
          rw [byteLength_append, Nat.add_sub_cancel]
        simp only [Except.map, located, hlen]
        exact .argument hblank (hl.spelled hrest)

theorem nexts_of_nextArgument {u s : Text} {base : Nat}
    {x : Except ParseError (Option (Argument × Nat × Text))}
    (h : nextArgument (u ++ s) base (byteLength u) s = some x) :
    Nexts (base + byteLength u) (byteLength u) s x := by
  obtain ⟨y, hy, hnexts⟩ := exists_nexts u s base
  rw [h] at hy
  cases hy
  exact hnexts

/-! ## What a collection covers -/

/-- What a collection has taken is what can be taken off the text. -/
theorem Collects.covers {src : Text} {base i : Nat} {s : Text} {ts : List Taken}
    {fault : Option ParseError} (h : Collects src base i s ts fault) :
    ∀ u, src = u ++ s → i = byteLength u → Covers (base + i) s ts fault := by
  induction h with
  | @ended i s h =>
    rintro u rfl rfl
    cases nexts_of_nextArgument h with
    | ended hs => exact .ended hs
  | @fault i s e h =>
    rintro u rfl rfl
    cases nexts_of_nextArgument h with
    | fault hw hs => exact .fault hw hs
  | @call i j s rest source a ts fault h hsource _ ih =>
    rintro u rfl rfl
    cases nexts_of_nextArgument h with
    | @argument w v _ _ hw hv =>
      rw [slice?_source hw hv] at hsource
      cases hsource
      have hmore := ih (u ++ w ++ source) (by simp) (by simp only [byteLength_append])
      rw [← Nat.add_assoc, ← Nat.add_assoc] at hmore
      rw [takeWhile_blanks hw hv]
      exact .taken hw hv hmore

/-- Every text has a collection. -/
theorem exists_collects (base : Nat) (u s : Text) :
    ∃ ts fault, Collects (u ++ s) base (byteLength u) s ts fault := by
  induction hn : s.length using Nat.strong_induction_on generalizing u s with
  | _ n ih =>
  obtain ⟨x, hx, hnexts⟩ := exists_nexts u s base
  cases hnexts with
  | ended hs => exact ⟨_, _, .ended hx⟩
  | fault hw hs => exact ⟨_, _, .fault hx⟩
  | @argument w v rest a hw hv =>
    -- an argument has a character, so fewer are left
    obtain ⟨c, r, hcons, -⟩ := exists_cons_of_spelled hv
    have hlen : rest.length < n := by
      rw [← hn, hcons]
      simp only [List.length_append, List.length_cons]
      omega
    obtain ⟨ts, fault, hmore⟩ := ih _ hlen (u ++ w ++ v) rest rfl
    rw [byteLength_append, byteLength_append, List.append_assoc, List.append_assoc] at hmore
    exact ⟨_, fault, .call hx (slice?_source hw hv u) hmore⟩

/-- A text has no other collection. -/
theorem Collects.unique {src : Text} {base i : Nat} {s : Text} {ts ts' : List Taken}
    {fault fault' : Option ParseError} (h : Collects src base i s ts fault)
    (h' : Collects src base i s ts' fault') : ts' = ts ∧ fault' = fault := by
  induction h generalizing ts' fault' with
  | ended h =>
    cases h' with
    | ended h' => exact ⟨rfl, rfl⟩
    | fault h' => rw [h] at h'; cases h'
    | call h' hsource hmore => rw [h] at h'; cases h'
  | fault h =>
    cases h' with
    | ended h' => rw [h] at h'; cases h'
    | fault h' =>
      rw [h] at h'
      cases h'
      exact ⟨rfl, rfl⟩
    | call h' hsource hmore => rw [h] at h'; cases h'
  | call h hsource _ ih =>
    cases h' with
    | ended h' => rw [h] at h'; cases h'
    | fault h' => rw [h] at h'; cases h'
    | call h' hsource' hmore' =>
      rw [h] at h'
      cases h'
      rw [hsource] at hsource'
      cases hsource'
      obtain ⟨rfl, rfl⟩ := ih hmore'
      exact ⟨rfl, rfl⟩

namespace Covers

variable {pos : Nat} {s : Text} {ts : List Taken} {fault : Option ParseError}

/-- What is taken is what is read, and a fault that ends it is the fault of the text. -/
theorem lex_eq (h : Covers pos s ts fault) : Arguments.lex pos s = collected ts fault := by
  induction h with
  | ended hs => exact lex_of_blank hs _
  | fault hw hs =>
    rw [Arguments.lex_blanks hw, hs.lex_eq]
    rfl
  | @taken pos w u rest a ts fault hw hu hmore ih =>
    have hread : Arguments.Reading (pos + byteLength w) (u ++ rest) [a] _ rest :=
      .item hu (.here _ rest)
    rw [Arguments.lex_blanks hw, hread.lex_eq, ih]
    cases fault <;> rfl

/-- What is taken stands in the text one after the other, and only blanks stand behind it. -/
theorem flatten (h : Covers pos s ts none) :
    ∃ tail, (∀ c ∈ tail, isBlank c = true) ∧ s = (ts.map Taken.raw).flatten ++ tail := by
  generalize hfault : (none : Option ParseError) = fault at h
  induction h with
  | @ended pos s hs => exact ⟨s, hs, rfl⟩
  | fault hw hs => cases hfault
  | taken hw hu hmore ih =>
    obtain ⟨tail, htail, rfl⟩ := ih hfault
    exact ⟨tail, htail, by simp [Taken.raw]⟩

/-- All that is taken are blanks and spellings of arguments. -/
theorem spelled (h : Covers pos s ts fault) : ∀ t ∈ ts,
    (∀ c ∈ t.blanks, isBlank c = true) ∧ ∃ rest, Spelled t.source t.argument rest := by
  induction h with
  | ended hs => nofun
  | fault hw hs => nofun
  | taken hw hu hmore ih => exact List.forall_mem_cons.2 ⟨⟨hw, _, hu⟩, ih⟩

/-- Each call takes a character. -/
theorem length_le (h : Covers pos s ts fault) : ts.length ≤ s.length := by
  induction h with
  | ended hs => exact Nat.zero_le _
  | fault hw hs => exact Nat.zero_le _
  | taken hw hu hmore ih =>
    obtain ⟨c, r, rfl, -⟩ := exists_cons_of_spelled hu
    simp only [List.length_append, List.length_cons]
    omega

end Covers

/-! ## What is spelled -/

/-- Only the empty text is read as nothing. -/
theorem eq_nil_of_unescape {v : Text} (h : unescape v = []) : v = [] := by
  fun_cases unescape v with
  | case1 => rfl
  | case2 c => cases h
  | case3 c d r hesc =>
    rw [unescape, if_pos hesc] at h
    cases h
  | case4 c d r hesc =>
    rw [unescape, if_neg hesc] at h
    cases h

/-- A name is a word. -/
theorem isWord_of_spelled {u rest name : Text} {a : Argument} (h : Spelled u a rest)
    (hname : a.name = some name) : Arguments.IsWord name := by
  cases h with
  | quoted hq hv rest => cases hname
  | word hw hrest => cases hname
  | namedQuoted hw hq hv rest => cases hname; exact hw
  | namedBare hw hb hrest => cases hname; exact hw

/-- A nameless argument without a value is two quotes with nothing in between. -/
theorem source_of_empty {u rest : Text} (h : Spelled u (.positional []) rest) :
    ∃ q, isQuote q = true ∧ u = [q, q] := by
  generalize ha : Argument.positional [] = a at h
  cases h with
  | @quoted q v hq hv rest =>
    have hempty : v = [] := eq_nil_of_unescape (congrArg Argument.value ha).symm
    exact ⟨q, hq, by rw [hempty]; rfl⟩
  | word hw hrest => exact absurd (congrArg Argument.value ha).symm hw.ne_nil
  | namedQuoted hw hq hv rest => cases ha
  | namedBare hw hb hrest => cases ha

/-- **Reading arguments moves on with every call and leaves nothing out.**  Wherever a call starts,
if it finds an argument it has taken at least one character.  So the calls come to an end on every
text, in one way, with no more arguments than characters, and what they have found is what the text
is read as.  On success the text is what the calls have taken, blanks and the source of an argument
each, with blanks behind it.  A name is not empty and has no blank and no equals sign in it, and a
nameless argument without a value is written as two quotes. -/
theorem collects_everything (base : Nat) (src : Text) :
    (∀ u s a j rest, src = u ++ s →
      nextArgument src base (byteLength u) s = some (.ok (some (a, j, rest))) →
      ∃ taken, taken ≠ [] ∧ s = taken ++ rest ∧ j = byteLength u + byteLength taken) ∧
    (∃ ts fault, Collects src base 0 src ts fault ∧ ts.length ≤ src.length ∧
      ∀ ts' fault', Collects src base 0 src ts' fault' → ts' = ts ∧ fault' = fault) ∧
    (∀ ts fault, Collects src base 0 src ts fault →
      Arguments.lex base src = collected ts fault) ∧
    (∀ ts, Collects src base 0 src ts none →
      ∃ tail, (∀ c ∈ tail, isBlank c = true) ∧ src = (ts.map Taken.raw).flatten ++ tail) ∧
    ∀ ts fault, Collects src base 0 src ts fault → ∀ t ∈ ts,
      (∀ c ∈ t.blanks, isBlank c = true) ∧
      (∃ rest, Spelled t.source t.argument rest) ∧
      (∀ name, t.argument.name = some name →
        name ≠ [] ∧ ∀ c ∈ name, isBlank c = false ∧ c ≠ '=') ∧
      (t.argument = .positional [] → ∃ q, isQuote q = true ∧ t.source = [q, q]) := by
  have hcovers : ∀ {ts fault}, Collects src base 0 src ts fault → Covers base src ts fault :=
    fun h => h.covers [] rfl rfl
  refine ⟨?_, ?_, fun ts fault h => (hcovers h).lex_eq, fun ts h => (hcovers h).flatten, ?_⟩
  · rintro u s a j rest rfl h
    cases nexts_of_nextArgument h with
    | @argument w v rest a hw hv =>
      obtain ⟨c, r, rfl, -⟩ := exists_cons_of_spelled hv
      exact ⟨w ++ c :: r, by simp, by simp, by rw [byteLength_append, Nat.add_assoc]⟩
  · obtain ⟨ts, fault, h⟩ := exists_collects base [] src
    exact ⟨ts, fault, h, (hcovers h).length_le, fun ts' fault' h' => h.unique h'⟩
  · intro ts fault h t ht
    obtain ⟨hblanks, rest, hspelled⟩ := (hcovers h).spelled t ht
    refine ⟨hblanks, ⟨rest, hspelled⟩, fun name hname => ?_, fun hempty => ?_⟩
    · have hword := isWord_of_spelled hspelled hname
      exact ⟨hword.ne_nil, fun c hc => ⟨hword.isBlank c hc, hword.ne_equals c hc⟩⟩
    · rw [hempty] at hspelled
      exact source_of_empty hspelled

end Bytewise

end Tagtext
