import Tagtext.Proofs.Depth

/-!
# What a run reports

Every node of a document has its own place in what a completed run reports:

    a malformed node                          its fault
    an opening tag without partner            that it is never closed; then its call, if it is called
    a tag that stands alone                   its call
    the closing tag of a pair                 the call of the opening tag
    the first tag of a pair inside `limit`    that the pair is inside too many others
    a node of such a pair                     nothing
    all else                                  nothing

A call is reported if the name is unknown or the handler fails, and is not if the
handler returns a text.  Which tag a node calls (`asked?`) and what is reported
there (`reportsAt`) are read off the document; of the run they take no more than
how the handler that is called at the node ends.

Each step adds the call and the reports of its node (`exists_logs_step`), so what
a run has called and reported is that of the nodes, one after the other
(`Reaches.logs`).  It has nothing to report just when all of the document is
called and no handler fails (`isClean_iff`), and outside the pairs that are kept
it passes over nothing but closing tags without partner (`passesOver_iff`).
-/

namespace Tagtext

/-- What a handler is called for: a name and arguments, and where the tag stands. -/
structure Site where
  name : Text
  arguments : Arguments
  offset : Nat
  deriving DecidableEq, Repr

def Tag.site (t : Tag) : Site := ⟨t.name, t.arguments, t.start⟩

def Call.site (c : Call) : Site := ⟨c.name, c.arguments, c.offset⟩

/-- What the handler that a call begins fails with. -/
def Table.fault? (t : Table) (c : Call) : Option HandlerError :=
  match (t.work? c).bind (·.result) with
  | some (.error e, _) => some e
  | _ => none

/-- What is reported where a tag is called, if this is what its handler fails with. -/
def Tag.reports (table : Table) (fault : Option HandlerError) (t : Tag) : List Diagnostic :=
  if table.contains t.name then (fault.map (.handlerFailed t.name t.start)).toList
  else [.unresolved t.name t.start]

/-- What is wrong with a node by itself: it could not be read, or is never closed. -/
def Node.fault? : Node → Option ParseError
  | malformed _ e => some e
  | tag t none => if t.kind = .opening then some (.unclosedTag t.name t.start) else none
  | _ => none

namespace Document

/-- Whether a node is kept with a pair around it, tried out. -/
def isEchoed (d : Document) (limit k : Nat) : Bool :=
  (List.range (k + 1)).any fun i => (d.partnerAt i).any fun j =>
    i < j && k ≤ j && limit ≤ d.enclosing i j

theorem isEchoed_iff {d : Document} {limit k : Nat} :
    d.isEchoed limit k = true ↔ d.Echoed limit k := by
  simp only [isEchoed, List.any_eq_true, List.mem_range, Option.any_eq_true, Bool.and_eq_true,
    decide_eq_true_eq]
  constructor
  · rintro ⟨i, hi, j, hp, ⟨hij, hkj⟩, hlimit⟩
    exact ⟨i, j, ⟨⟨hij, hp⟩, hlimit⟩, by omega, hkj⟩
  · rintro ⟨i, j, ⟨⟨hij, hp⟩, hlimit⟩, hik, hkj⟩
    exact ⟨i, by omega, j, hp, ⟨hij, hkj⟩, hlimit⟩

instance (d : Document) (limit k : Nat) : Decidable (d.Echoed limit k) :=
  decidable_of_iff _ isEchoed_iff

/-- What is reported of node `k` itself. -/
def remarksAt (d : Document) (limit k : Nat) : List Diagnostic :=
  if d.Echoed limit k then ((d.openerAt? limit k).map (Tag.tooDeep limit)).toList
  else ((d.nodes[k]?.bind Node.fault?).map .parse).toList

/-- The tag that node `k` calls: its own, or the opening one where a pair ends. -/
def asked? (d : Document) (config : Config) (k : Nat) : Option Tag :=
  if d.Echoed config.maxNestingDepth k then none
  else (tagAt d.nodes k).bind fun t =>
    match t.kind, d.partnerAt k with
    | .selfClosing, _ => some t
    | .opening, none => if config.unclosed = .standalone then some t else none
    | .opening, some _ => none
    | .closing, some i => tagAt d.nodes i
    | .closing, none => none

/-- What the handler is called for that node `k` calls, if the table knows it. -/
def siteAt? (d : Document) (s : Setting) (k : Nat) : Option Site :=
  ((d.asked? s.config k).filter fun t => s.table.contains t.name).map Tag.site

/-- All that is reported where a run takes node `k`, if this is what a handler fails with there. -/
def reportsAt (d : Document) (s : Setting) (fault : Option HandlerError) (k : Nat) :
    List Diagnostic :=
  d.remarksAt s.config.maxNestingDepth k ++
    ((d.asked? s.config k).map (Tag.reports s.table fault)).getD []

/-- Nothing in a document keeps any of it from being called. -/
structure Faultless (d : Document) (s : Setting) : Prop where
  readable : ∀ raw e, .malformed raw e ∉ d.nodes
  closed : ∀ i t, tagAt d.nodes i = some t → t.kind = .opening → d.partnerAt i ≠ none
  shallow : ∀ i j, d.Pair i j → d.enclosing i j ≠ s.config.maxNestingDepth
  known : ∀ i t, tagAt d.nodes i = some t → t.kind ≠ .closing → s.table.contains t.name = true

/-- A run puts out the tag at node `k` as it is written and does nothing else there. -/
def PassesOver (d : Document) (s : Setting) (start : Effects) (k : Nat) (t : Tag) : Prop :=
  ∃ p, d.Reaches s start k p ∧ d.Reaches s start (k + 1) (p.emit t.raw)

end Document

/-- This call, if any, and these reports have been added to `e`. -/
structure Effects.Logs (e : Effects) (call : Option Call) (reports : List Diagnostic)
    (e' : Effects) : Prop where
  calls : e'.calls = e.calls ++ call.toList
  diagnostics : e'.diagnostics = e.diagnostics ++ reports

/-- The calls and the reports of a run are those of the nodes of its document, one after the other,
if these are the calls that the nodes make. -/
structure Report.Accounts (r : Report) (d : Document) (s : Setting) (call : Nat → Option Call) :
    Prop where
  sites : ∀ k < d.nodes.length, (call k).map Call.site = d.siteAt? s k
  calls : r.calls = (List.range d.nodes.length).filterMap call
  diagnostics : r.diagnostics = (List.range d.nodes.length).flatMap fun k =>
    d.reportsAt s ((call k).bind s.table.fault?) k

theorem Tag.reports_eq_nil_iff {table : Table} {fault : Option HandlerError} {t : Tag} :
    t.reports table fault = [] ↔ table.contains t.name = true ∧ fault = none := by
  unfold reports
  cases table.contains t.name with
  | false => simp
  | true => simp

/-! ## Pairs around a pair -/

namespace Document

section
variable {d : Document} (h : d.Matched) {limit i j k : Nat}
include h

/-- What is open in front of the innermost open pair is all else that is open. -/
theorem openAt_of_head {a : Nat} {rest : List Nat} (hopen : d.openAt i = a :: rest) :
    d.openAt i = a :: d.openAt a := by
  have hdescending := descending_openAt d i
  rw [hopen, List.pairwise_cons] at hdescending
  have ha : a ∈ d.openAt i := by
    rw [hopen]
    exact List.mem_cons_self
  obtain ⟨hai, c, hac, hic⟩ := mem_openAt.1 ha
  have hpair : d.Pair a c := ⟨by omega, hac⟩
  refine (descending_openAt d i).eq_of_mem_iff (List.pairwise_cons.2
    ⟨fun b hb => (mem_openAt.1 hb).1, descending_openAt d a⟩) fun b => ?_
  constructor
  · intro hb
    obtain ⟨_, l, hbl, hil⟩ := mem_openAt.1 hb
    rw [hopen] at hb
    rcases List.mem_cons.1 hb with rfl | hrest
    · exact List.mem_cons_self
    · have hba := hdescending.1 b hrest
      exact List.mem_cons_of_mem a (mem_openAt.2 ⟨hba, l, hbl, by omega⟩)
  · intro hb
    rcases List.mem_cons.1 hb with rfl | hb
    · exact ha
    · obtain ⟨hba, l, hbl, hal⟩ := mem_openAt.1 hb
      have hne : l ≠ a := by
        rintro rfl
        exact h.isMatching.not_both ⟨hba, hbl⟩ hpair
      -- the pair from `b` ends behind the one from `a`, which is open at `i`
      have hcl := h.isMatching.laminar (l := c) (k := a) ⟨by omega, hbl⟩ hpair hba (by omega)
      exact mem_openAt.2 ⟨by omega, l, hbl, by omega⟩

/-- Around a pair inside too many others there is one inside just so many. -/
theorem exists_limit_of_deep (hd : d.Deep limit i j) :
    ∃ a c, d.Pair a c ∧ a ≤ i ∧ j ≤ c ∧ d.enclosing a c = limit := by
  induction i using Nat.strong_induction_on generalizing j with
  | _ i ih =>
    by_cases hlimit : d.enclosing i j = limit
    · exact ⟨i, j, hd.pair, Nat.le_refl i, Nat.le_refl j, hlimit⟩
    · have hlength := length_openAt h hd.pair
      have hle := hd.le
      obtain ⟨a, rest, hopen⟩ : ∃ a rest, d.openAt i = a :: rest := by
        refine List.exists_cons_of_length_pos ?_
        omega
      have ha : a ∈ d.openAt i := by
        rw [hopen]
        exact List.mem_cons_self
      obtain ⟨c, hac, hjc⟩ := lt_of_mem_openAt h hd.pair ha
      have hai := (mem_openAt.1 ha).1
      have hij := hd.pair.1
      have hpair : d.Pair a c := ⟨by omega, hac⟩
      -- one pair fewer stands around the pair from `a`
      have hsucc : d.enclosing i j = d.enclosing a c + 1 := by
        rw [← hlength, openAt_of_head h hopen, List.length_cons, length_openAt h hpair]
      obtain ⟨a', c', hpair', ha', hc', hlimit'⟩ := ih a hai ⟨hpair, by omega⟩
      exact ⟨a', c', hpair', by omega, by omega, hlimit'⟩

theorem exists_limit_of_echoed (hk : d.Echoed limit k) :
    ∃ i j, d.Pair i j ∧ i ≤ k ∧ k ≤ j ∧ d.enclosing i j = limit := by
  obtain ⟨i, j, hd, hik, hkj⟩ := hk
  obtain ⟨a, c, hpair, hai, hjc, hlimit⟩ := exists_limit_of_deep h hd
  exact ⟨a, c, hpair, by omega, by omega, hlimit⟩

/-! ## What is called and reported at a node -/

/-- What is asked for is what is called. -/
theorem asked?_eq_some_iff {s : Setting} {tag : Tag} :
    d.asked? s.config k = some tag ↔ d.Calls s k tag := by
  unfold asked?
  by_cases hecho : d.Echoed s.config.maxNestingDepth k
  · rw [if_pos hecho]
    constructor
    · intro hnone
      cases hnone
    · intro hcalls
      cases hcalls <;> contradiction
  · rw [if_neg hecho]
    constructor
    · intro hasked
      obtain ⟨t, ht, hasked⟩ := Option.bind_eq_some_iff.1 hasked
      split at hasked
      · next hk =>
        cases hasked
        exact .alone hecho ht hk
      · next hk hp =>
        split at hasked
        · next hu =>
          cases hasked
          exact .unclosed hecho ht hk hp hu
        · cases hasked
      · cases hasked
      · next i hk hp => exact .closed hecho (h.pair_of_closing hp ht hk) hasked
      · cases hasked
    · intro hcalls
      cases hcalls with
      | alone _ ht hk =>
        rw [ht, Option.bind_some]
        simp only [hk]
      | unclosed _ ht hk hp hu =>
        rw [ht, Option.bind_some]
        simp only [hk, hp, hu, if_true]
      | closed _ hp ht =>
        obtain ⟨_, c, _, hc, _, hck, _⟩ := h.isMatching.tags hp
        rw [hc, Option.bind_some]
        simp only [hck, h.symm hp.2, ht]

/-- What is asked for is no closing tag, and stands in the document. -/
theorem exists_tagAt_of_asked? {s : Setting} {tag : Tag} (ht : d.asked? s.config k = some tag) :
    ∃ i, tagAt d.nodes i = some tag ∧ tag.kind ≠ .closing := by
  have hcalls := (asked?_eq_some_iff h).1 ht
  cases hcalls with
  | alone _ ht hk => exact ⟨k, ht, by simp [hk]⟩
  | unclosed _ ht hk _ _ => exact ⟨k, ht, by simp [hk]⟩
  | closed _ hp ht =>
    obtain ⟨t, _, ht', _, hk, _⟩ := h.isMatching.tags hp
    rw [ht] at ht'
    cases ht'
    exact ⟨_, ht, by simp [hk]⟩

omit h in
theorem remarksAt_of_not_echoed (hecho : ¬ d.Echoed limit k) {n : Node}
    (hn : d.nodes[k]? = some n) : d.remarksAt limit k = (n.fault?.map .parse).toList := by
  rw [remarksAt, if_neg hecho, hn, Option.bind_some]

omit h in
theorem reportsAt_eq_nil_iff {s : Setting} {fault : Option HandlerError} :
    d.reportsAt s fault k = [] ↔ d.remarksAt s.config.maxNestingDepth k = [] ∧
      ∀ t, d.asked? s.config k = some t → s.table.contains t.name = true ∧ fault = none := by
  rw [reportsAt, List.append_eq_nil_iff]
  refine and_congr_right fun _ => ?_
  cases d.asked? s.config k with
  | none => simp
  | some t => simp [Tag.reports_eq_nil_iff]

/-! ## Documents of which all is called -/

/-- Where no pair stands inside just so many others, none stands inside more. -/
theorem not_echoed_of_shallow (hshallow : ∀ i j, d.Pair i j → d.enclosing i j ≠ limit) :
    ¬ d.Echoed limit k := by
  intro hecho
  obtain ⟨i, j, hpair, _, _, hlimit⟩ := exists_limit_of_echoed h hecho
  exact hshallow i j hpair hlimit

omit h in
/-- An opening tag without partner is wrong by itself. -/
theorem exists_fault?_of_unpaired {t : Tag} (ht : tagAt d.nodes k = some t) (hk : t.kind = .opening)
    (hnone : d.partnerAt k = none) :
    ∃ n, d.nodes[k]? = some n ∧ n.fault? = some (.unclosedTag t.name t.start) := by
  obtain ⟨n, hn, htag⟩ := Option.bind_eq_some_iff.1 ht
  have hpartner : n.partner? = none := by simpa [partnerAt, hn] using hnone
  refine ⟨n, hn, ?_⟩
  rw [Node.eq_tag_of_tag? htag, hpartner]
  exact if_pos hk

/-- Where nothing is kept and every opening tag has a partner, every tag but a closing one is asked
for. -/
theorem exists_asked? {s : Setting} (hecho : ∀ k, ¬ d.Echoed s.config.maxNestingDepth k)
    (hclosed : ∀ i t, tagAt d.nodes i = some t → t.kind = .opening → d.partnerAt i ≠ none) {t : Tag}
    (ht : tagAt d.nodes i = some t) (hk : t.kind ≠ .closing) :
    ∃ k < d.nodes.length, d.asked? s.config k = some t := by
  cases hkind : t.kind with
  | closing => exact absurd hkind hk
  | selfClosing =>
    have hcalls : d.Calls s i t := .alone (hecho i) ht hkind
    exact ⟨i, lt_length_of_tagAt ht, (asked?_eq_some_iff h).2 hcalls⟩
  | opening =>
    -- it is called where its pair ends
    obtain ⟨j, hj⟩ := Option.ne_none_iff_exists'.1 (hclosed i t ht hkind)
    have hcalls : d.Calls s j t := .closed (hecho j) (h.pair_of_opening hj ht hkind) ht
    exact ⟨j, (h.lt_length hj).2, (asked?_eq_some_iff h).2 hcalls⟩

omit h in
theorem Faultless.fault?_eq_none {s : Setting} (hf : d.Faultless s) {n : Node}
    (hn : d.nodes[k]? = some n) : n.fault? = none := by
  cases n with
  | text t => rfl
  | malformed raw e => exact absurd (List.mem_of_getElem? hn) (hf.readable raw e)
  | tag t partner =>
    cases partner with
    | some j => rfl
    | none =>
      have ht : tagAt d.nodes k = some t := by simp [tagAt, hn, Node.tag?]
      have hnone : d.partnerAt k = none := by simp [partnerAt, hn, Node.partner?]
      exact if_neg fun hk => hf.closed k t ht hk hnone

omit h in
/-- Where a pair inside just so many others begins, it is reported. -/
theorem tooDeep_mem_remarksAt (hpair : d.Pair i j) (hlimit : d.enclosing i j = limit) {t : Tag}
    (ht : tagAt d.nodes i = some t) : t.tooDeep limit ∈ d.remarksAt limit i := by
  have hecho : d.Echoed limit i :=
    ⟨i, j, ⟨hpair, Nat.le_of_eq hlimit.symm⟩, Nat.le_refl i, Nat.le_of_lt hpair.1⟩
  rw [remarksAt, if_pos hecho, openerAt?_of_pair hpair, if_pos hlimit, ht]
  exact List.mem_singleton_self _

/-- All of a document is called just when no node has anything to report but a failed handler. -/
theorem faultless_iff {s : Setting} :
    d.Faultless s ↔ ∀ k < d.nodes.length, d.remarksAt s.config.maxNestingDepth k = [] ∧
      ∀ t, d.asked? s.config k = some t → s.table.contains t.name = true := by
  constructor
  · intro hf k hk
    constructor
    · have hn := List.getElem?_eq_getElem hk
      rw [remarksAt_of_not_echoed (not_echoed_of_shallow h hf.shallow) hn, hf.fault?_eq_none hn]
      rfl
    · intro t ht
      obtain ⟨i, hi, hkind⟩ := exists_tagAt_of_asked? h ht
      exact hf.known i t hi hkind
  · intro hall
    have hshallow : ∀ i j, d.Pair i j → d.enclosing i j ≠ s.config.maxNestingDepth := by
      intro i j hpair hlimit
      obtain ⟨t, _, ht, _⟩ := h.isMatching.tags hpair
      have hmem := tooDeep_mem_remarksAt hpair hlimit ht
      rw [(hall i (lt_length_of_tagAt ht)).1] at hmem
      cases hmem
    have hecho : ∀ k, ¬ d.Echoed s.config.maxNestingDepth k :=
      fun k => not_echoed_of_shallow h hshallow
    have hfault : ∀ (k : Nat) (n : Node), d.nodes[k]? = some n → n.fault? = none := by
      intro k n hn
      have hremarks := (hall k (List.getElem?_eq_some_iff.1 hn).1).1
      rw [remarksAt_of_not_echoed (hecho k) hn] at hremarks
      simpa using hremarks
    have hclosed : ∀ i t, tagAt d.nodes i = some t → t.kind = .opening → d.partnerAt i ≠ none := by
      intro i t ht hk hnone
      obtain ⟨n, hn, hunclosed⟩ := exists_fault?_of_unpaired ht hk hnone
      rw [hfault i n hn] at hunclosed
      cases hunclosed
    refine ⟨fun raw e hmem => ?_, hclosed, hshallow, fun i t ht hk => ?_⟩
    · obtain ⟨k, hn⟩ := List.getElem?_of_mem hmem
      cases hfault k _ hn
    · obtain ⟨k, hlt, hasked⟩ := exists_asked? h hecho hclosed ht hk
      exact (hall k hlt).2 t hasked

end

end Document

/-! ## Calls -/

namespace Effects

/-- **A call adds itself, if the name is known, and what is reported of it.** -/
theorem exists_logs_of_invoke {s : Setting} {tag : Tag} {content fallback out : Text}
    {e e' : Effects} (h : e.invoke s tag content fallback = (.ok out, e')) :
    ∃ call : Option Call,
      call.map Call.site = ((some tag).filter fun t => s.table.contains t.name).map Tag.site ∧
      e.Logs call (tag.reports s.table (call.bind s.table.fault?)) e' := by
  have hcomes := comes_invoke s tag content fallback e
  rw [h] at hcomes
  cases hcomes with
  | unknown hget =>
    have hknown : s.table.contains tag.name = false := by simp [Table.contains, hget]
    refine ⟨none, by simp [Option.filter_some, hknown], by simp [report], ?_⟩
    simp [Tag.reports, hknown, report]
  | answered d out context clock hget hw hp =>
    have hknown : s.table.contains tag.name = true := by simp [Table.contains, hget]
    have hfault : s.table.fault? (e.callOf tag content) = none := by
      rw [Table.fault?, Table.work?_callOf hget, Option.bind_some, Work.result_of_proceed hp]
    refine ⟨some (e.callOf tag content), by simp [Option.filter_some, hknown]; rfl, by simp, ?_⟩
    simp [Tag.reports, hknown, hfault]
  | failed d err context clock hget hw hp =>
    have hknown : s.table.contains tag.name = true := by simp [Table.contains, hget]
    have hfault : s.table.fault? (e.callOf tag content) = some err := by
      rw [Table.fault?, Table.work?_callOf hget, Option.bind_some, Work.result_of_proceed hp]
    refine ⟨some (e.callOf tag content), by simp [Option.filter_some, hknown]; rfl, by simp, ?_⟩
    simp [Tag.reports, hknown, hfault]

end Effects

namespace Document

section
variable {d : Document} {s : Setting} {k : Nat} {e e' : Effects}

/-- A node that calls no tag adds what is reported of itself. -/
theorem logs_of_quiet (hasked : d.asked? s.config k = none) (hcalls : e'.calls = e.calls)
    (hdiagnostics : e'.diagnostics = e.diagnostics ++ d.remarksAt s.config.maxNestingDepth k) :
    ∃ call : Option Call, call.map Call.site = d.siteAt? s k ∧
      e.Logs call (d.reportsAt s (call.bind s.table.fault?) k) e' := by
  refine ⟨none, by simp [siteAt?, hasked], by simp [hcalls], ?_⟩
  rw [hdiagnostics, reportsAt, hasked]
  simp

/-- A node that calls a tag adds what is reported of itself, then what the call adds. -/
theorem logs_of_invoke {tag : Tag} {content fallback out : Text} {e₁ : Effects}
    (hasked : d.asked? s.config k = some tag) (hcalls : e₁.calls = e.calls)
    (hdiagnostics : e₁.diagnostics = e.diagnostics ++ d.remarksAt s.config.maxNestingDepth k)
    (hi : e₁.invoke s tag content fallback = (.ok out, e')) :
    ∃ call : Option Call, call.map Call.site = d.siteAt? s k ∧
      e.Logs call (d.reportsAt s (call.bind s.table.fault?) k) e' := by
  obtain ⟨call, hsite, hlogs⟩ := Effects.exists_logs_of_invoke hi
  refine ⟨call, by rw [hsite, siteAt?, hasked], by rw [hlogs.calls, hcalls], ?_⟩
  rw [hlogs.diagnostics, hdiagnostics, reportsAt, hasked, List.append_assoc]
  rfl

end

end Document

/-! ## Steps -/

namespace Pass

section
variable {d : Document} (h : d.Matched) {s : Setting} {k : Nat} {n : Node} {p q : Pass}
  (hn : d.nodes[k]? = some n) (hp : Stands d s.config.maxNestingDepth k p)
include h hn hp

theorem Stands.asked?_eq_some {tag : Tag} (hc : Calls s k p n tag) :
    d.asked? s.config k = some tag :=
  (Document.asked?_eq_some_iff h).2 ((hp.calls_iff h hn tag).1 hc)

theorem Stands.asked?_eq_none (hnone : ∀ tag, ¬ Calls s k p n tag) : d.asked? s.config k = none := by
  refine Option.eq_none_iff_forall_ne_some.2 fun tag ht => ?_
  exact hnone tag ((hp.calls_iff h hn tag).2 ((Document.asked?_eq_some_iff h).1 ht))

/-- **Each step adds the call and the reports of its node.** -/
theorem Stands.exists_logs_step (hframes : p.stack.frames.length ≤ s.config.maxNestingDepth)
    (hs : p.step s k n = .ok q) :
    ∃ call : Option Call, call.map Call.site = d.siteAt? s k ∧
      p.effects.Logs call (d.reportsAt s (call.bind s.table.fault?) k) q.effects := by
  have hpartner : d.partnerAt k = n.partner? := by simp [Document.partnerAt, hn]
  have htag : tagAt d.nodes k = n.tag? := by simp [tagAt, hn]
  -- where no pair begins, a node outside all kept pairs is reported for itself
  have hremarks : p.keepUntil ≤ k → (∀ j, ¬ d.Pair k j) →
      d.remarksAt s.config.maxNestingDepth k = (n.fault?.map .parse).toList :=
    fun hle hk => Document.remarksAt_of_not_echoed (hp.not_echoed hle hk) hn
  have hunpaired : d.partnerAt k = none → ∀ j, ¬ d.Pair k j := by
    intro hnone j hj
    rw [hj.2] at hnone
    cases hnone
  have ht := takes_step s k n p
  generalize p.step s k n = r at ht hs
  cases ht with
  | kept n hlt =>
    obtain ⟨a, c, hd, hak, hkeep⟩ := hp.kept hlt
    have hecho : d.Echoed s.config.maxNestingDepth k := ⟨a, c, hd, by omega, by omega⟩
    cases hs
    refine Document.logs_of_quiet (if_pos hecho) rfl ?_
    rw [Document.remarksAt, if_pos hecho, Document.openerAt?_of_deep h hd hak (by omega)]
    simp
  | text t hle =>
    cases hs
    refine Document.logs_of_quiet (hp.asked?_eq_none h hn fun tag hc => by cases hc) rfl ?_
    rw [hremarks hle (hunpaired hpartner)]
    simp [Node.fault?]
  | malformed raw e hle =>
    cases hs
    refine Document.logs_of_quiet (hp.asked?_eq_none h hn fun tag hc => by cases hc) rfl ?_
    rw [hremarks hle (hunpaired hpartner)]
    rfl
  | alone tag partner hle hk =>
    have hnone := h.partnerAt_eq_none (i := k) (by simp [htag, Node.tag?, hk])
    obtain ⟨out, e, hi, rfl⟩ := exists_of_standalone_ok hs
    refine Document.logs_of_invoke (hp.asked?_eq_some h hn (.alone tag partner hle hk)) rfl ?_ hi
    rw [hremarks hle (hunpaired hnone)]
    cases partner <;> simp [Node.fault?, hk]
  | deep tag close hle hk hd =>
    have hpair := h.pair_of_opening hpartner htag hk
    have hlength := hp.length_frames h hle hpair
    have hecho : d.Echoed s.config.maxNestingDepth k :=
      ⟨k, close, ⟨hpair, by omega⟩, Nat.le_refl k, Nat.le_of_lt hpair.1⟩
    cases hs
    refine Document.logs_of_quiet (if_pos hecho) rfl ?_
    rw [Document.remarksAt, if_pos hecho, Document.openerAt?_of_pair hpair, if_pos (by omega), htag]
    rfl
  | opened tag close hle hk hd =>
    have hpair := h.pair_of_opening hpartner htag hk
    have hlength := hp.length_frames h hle hpair
    have hecho : ¬ d.Echoed s.config.maxNestingDepth k := by
      rintro ⟨i, j, hdeep, hik, hkj⟩
      rcases Nat.lt_or_eq_of_le hik with hik | rfl
      · exact hp.outside hle i j hdeep hik hkj
      · obtain rfl := h.isMatching.closer_unique hdeep.pair hpair
        have := hdeep.le
        omega
    cases hs
    refine Document.logs_of_quiet (hp.asked?_eq_none h hn fun t hc => ?_) rfl ?_
    · simpa [hk] using hc.kind
    · rw [Document.remarksAt_of_not_echoed hecho hn]
      simp [Node.fault?]
  | unclosed tag hle hk hu =>
    obtain ⟨out, e, hi, rfl⟩ := exists_of_standalone_ok hs
    have hcalls : (p.report (.parse (.unclosedTag tag.name tag.start))).effects.calls =
        p.effects.calls := rfl
    refine Document.logs_of_invoke (hp.asked?_eq_some h hn (.unclosed tag hle hk hu)) hcalls ?_ hi
    rw [hremarks hle (hunpaired hpartner)]
    simp [Node.fault?, hk, Effects.report]
  | stays tag hle hk hu =>
    cases hs
    refine Document.logs_of_quiet (hp.asked?_eq_none h hn fun t hc => ?_) rfl ?_
    · simpa [hk, hu] using hc.kind
    · rw [hremarks hle (hunpaired hpartner)]
      simp [Node.fault?, hk, Effects.report]
  | closed tag f fs hle hk hf =>
    have hpair := h.pair_of_closing hpartner htag hk
    obtain ⟨out, e, hi, rfl⟩ := exists_of_close_ok hs
    refine Document.logs_of_invoke (hp.asked?_eq_some h hn (.closed tag f fs hle hk hf)) rfl ?_ hi
    rw [hremarks hle fun j hj => h.isMatching.not_both hpair hj]
    simp [Node.fault?]
  | orphan tag partner hle hk hf =>
    have hnone : partner = none := by
      cases partner with
      | none => rfl
      | some i =>
        obtain ⟨f, fs, hfs, rfl, _⟩ := hp.exists_frame h hle (h.pair_of_closing hpartner htag hk)
        exact absurd rfl (hf f fs hfs)
    subst hnone
    cases hs
    refine Document.logs_of_quiet (hp.asked?_eq_none h hn fun t hc => ?_) rfl ?_
    · simpa [hk] using hc.kind
    · rw [hremarks hle (hunpaired hpartner)]
      simp [Node.fault?, hk]

end

end Pass

/-! ## Runs -/

namespace Document

section
variable {d : Document} {s : Setting} {start : Effects} {k : Nat} {p : Pass}
  {call : Nat → Option Call}

/-- A run makes this call, if any, at each node that it comes behind. -/
def Logged (d : Document) (s : Setting) (start : Effects) (call : Nat → Option Call) : Prop :=
  ∀ k p q, d.Reaches s start k p → d.Reaches s start (k + 1) q →
    (call k).map Call.site = d.siteAt? s k ∧
      p.effects.Logs (call k) (d.reportsAt s ((call k).bind s.table.fault?) k) q.effects

theorem exists_logged (h : d.Matched) (s : Setting) (start : Effects) :
    ∃ call, d.Logged s start call := by
  refine Classical.axiomOfChoice (r := fun k (call : Option Call) => ∀ p q, d.Reaches s start k p →
    d.Reaches s start (k + 1) q → call.map Call.site = d.siteAt? s k ∧
      p.effects.Logs call (d.reportsAt s (call.bind s.table.fault?) k) q.effects) fun k => ?_
  by_cases hreach : ∃ q, d.Reaches s start (k + 1) q
  · obtain ⟨q, hq⟩ := hreach
    obtain ⟨n, p, hn, hp, hs⟩ := hq.exists_of_succ
    obtain ⟨call, hcall⟩ := (hp.stands h).exists_logs_step h hn hp.frames_le hs
    refine ⟨call, fun p' q' hp' hq' => ?_⟩
    rw [hp'.unique hp, hq'.unique hq]
    exact hcall
  · exact ⟨none, fun p q _ hq => absurd ⟨q, hq⟩ hreach⟩

/-- **What a run has called and reported** where it comes is that of the nodes behind it. -/
theorem Reaches.logs (hp : d.Reaches s start k p) (hcall : d.Logged s start call) :
    p.effects.calls = start.calls ++ (List.range k).filterMap call ∧
      p.effects.diagnostics = start.diagnostics ++ (List.range k).flatMap fun j =>
        d.reportsAt s ((call j).bind s.table.fault?) j := by
  refine (d.reaches_zero s start).induct (I := fun k p =>
    p.effects.calls = start.calls ++ (List.range k).filterMap call ∧
      p.effects.diagnostics = start.diagnostics ++ (List.range k).flatMap fun j =>
        d.reportsAt s ((call j).bind s.table.fault?) j) (by simp)
    (fun j n p q _ hp hn hI hs => ?_) (Nat.zero_le k) hp
  obtain ⟨_, hlogs⟩ := hcall j p q hp (hp.succ hn hs)
  obtain ⟨hcalls, hdiagnostics⟩ := hI
  constructor
  · rw [hlogs.calls, hcalls, List.append_assoc, List.range_succ, List.filterMap_append]
    cases hj : call j <;> simp [hj]
  · rw [hlogs.diagnostics, hdiagnostics, List.append_assoc, List.range_succ, List.flatMap_append,
      List.flatMap_singleton]

/-- A step that calls and reports nothing stands at a node that asks for nothing. -/
theorem Logged.quiet (hcall : d.Logged s start call) (hp : d.Reaches s start k p) {t : Text}
    (hq : d.Reaches s start (k + 1) (p.emit t)) :
    d.asked? s.config k = none ∧ d.remarksAt s.config.maxNestingDepth k = [] := by
  obtain ⟨hsite, hlogs⟩ := hcall k p _ hp hq
  have hnone : call k = none := by
    have hcalls : p.effects.calls = p.effects.calls ++ (call k).toList := hlogs.calls
    simpa using hcalls
  have hnil : d.reportsAt s ((call k).bind s.table.fault?) k = [] := by
    have hdiagnostics : p.effects.diagnostics = p.effects.diagnostics ++
        d.reportsAt s ((call k).bind s.table.fault?) k := hlogs.diagnostics
    simpa using hdiagnostics
  obtain ⟨hremarks, hasked⟩ := reportsAt_eq_nil_iff.1 hnil
  refine ⟨Option.eq_none_iff_forall_ne_some.2 fun t ht => ?_, hremarks⟩
  rw [hnone, siteAt?, ht, Option.filter_some, if_pos (hasked t ht).1] at hsite
  cases hsite

/-- **Outside kept pairs only a closing tag without partner is passed over.** -/
theorem passesOver_iff (h : d.Matched) (hp : d.Reaches s start k p) {t : Tag}
    (ht : tagAt d.nodes k = some t) (hecho : ¬ d.Echoed s.config.maxNestingDepth k) :
    d.PassesOver s start k t ↔ t.kind = .closing ∧ d.partnerAt k = none := by
  obtain ⟨n, hn, htag⟩ := Option.bind_eq_some_iff.1 ht
  have hpartner : d.partnerAt k = n.partner? := by simp [partnerAt, hn]
  have hnode := Node.eq_tag_of_tag? htag
  rw [← hpartner] at hnode
  subst hnode
  have hle := (hp.stands h).keepUntil_le hecho
  constructor
  · rintro ⟨p', hp', hq⟩
    obtain rfl := hp'.unique hp
    obtain ⟨call, hcall⟩ := exists_logged h s start
    obtain ⟨hasked, hremarks⟩ := hcall.quiet hp hq
    have hcalls : ∀ tag, ¬ d.Calls s k tag := by
      intro tag hcalls
      rw [(asked?_eq_some_iff h).2 hcalls] at hasked
      cases hasked
    cases hk : t.kind with
    | selfClosing => exact absurd (.alone hecho ht hk) (hcalls t)
    | opening =>
      exfalso
      cases hj : d.partnerAt k with
      | none =>
        obtain ⟨n, hn, hunclosed⟩ := exists_fault?_of_unpaired ht hk hj
        rw [remarksAt_of_not_echoed hecho hn, hunclosed] at hremarks
        cases hremarks
      | some j =>
        -- the pair is opened, so there is one frame more
        have hpair := h.pair_of_opening hj ht hk
        have hframes : p'.stack.frames.length < s.config.maxNestingDepth := by
          rw [(hp.stands h).length_frames h hle hpair]
          by_contra hlimit
          exact hecho ⟨k, j, ⟨hpair, by omega⟩, Nat.le_refl k, Nat.le_of_lt hpair.1⟩
        rw [hj] at hn
        have hopened := hp.succ hn (Pass.step_opened hle hk hframes j)
        have hstack := congrArg (fun q : Pass => q.stack.frames.length) (hopened.unique hq)
        simp at hstack
    | closing =>
      refine ⟨rfl, ?_⟩
      cases hi : d.partnerAt k with
      | none => rfl
      | some i =>
        have hpair := h.pair_of_closing hi ht hk
        obtain ⟨opener, _, hopener, _⟩ := h.isMatching.tags hpair
        exact absurd (.closed hecho hpair hopener) (hcalls opener)
  · rintro ⟨hk, hnone⟩
    rw [hnone] at hn
    exact ⟨p, hp, hp.succ hn (Pass.step_orphan hle hk none fun f fs _ => by simp)⟩

/-- A completed run accounts for every node. -/
theorem exists_accounts (h : d.Matched) {context : Context} {clock : Clock}
    (hhalt : (d.evaluate s context clock).halt = none) :
    ∃ call, (d.evaluate s context clock).Accounts d s call := by
  obtain ⟨call, hcall⟩ := exists_logged h s ⟨context, clock, [], []⟩
  obtain ⟨q, hq, hr⟩ := exists_reaches_of_completed hhalt
  obtain ⟨hcalls, hdiagnostics⟩ := hq.logs hcall
  refine ⟨call, fun k hk => ?_, ?_, ?_⟩
  · obtain ⟨q', hq'⟩ := hq.exists_of_le (Nat.succ_le_of_lt hk)
    obtain ⟨p', hp'⟩ := hq'.exists_of_le (Nat.le_succ k)
    exact (hcall k p' q' hp' hq').1
  · rw [hr]
    exact hcalls
  · rw [hr]
    exact hdiagnostics

end

end Document

namespace Report.Accounts

section
variable {r : Report} {d : Document} {s : Setting} {call : Nat → Option Call} {k : Nat}
  (ha : r.Accounts d s call)
include ha

/-- What handlers are called for follows from the document, its configuration and the names. -/
theorem map_site_calls :
    r.calls.map Call.site = (List.range d.nodes.length).filterMap (d.siteAt? s) := by
  rw [ha.calls, List.map_filterMap]
  exact List.filterMap_congr fun k hk => ha.sites k (List.mem_range.1 hk)

theorem mem_diagnostics (hk : k < d.nodes.length) {e : Diagnostic}
    (he : e ∈ d.reportsAt s ((call k).bind s.table.fault?) k) : e ∈ r.diagnostics := by
  rw [ha.diagnostics]
  exact List.mem_flatMap.2 ⟨k, List.mem_range.2 hk, he⟩

theorem diagnostics_eq_nil_iff :
    r.diagnostics = [] ↔
      ∀ k < d.nodes.length, d.reportsAt s ((call k).bind s.table.fault?) k = [] := by
  rw [ha.diagnostics, List.flatMap_eq_nil_iff]
  simp only [List.mem_range]

/-- **A run has nothing to report** just when all of its document is called and no handler fails. -/
theorem isClean_iff (h : d.Matched) (hhalt : r.halt = none) :
    r.isClean = true ↔ d.Faultless s ∧ ∀ c ∈ r.calls, s.table.fault? c = none := by
  have hclean : r.isClean = true ↔ r.diagnostics = [] := by simp [isClean, hhalt]
  have hfaults : (∀ c ∈ r.calls, s.table.fault? c = none) ↔
      ∀ k < d.nodes.length, (call k).bind s.table.fault? = none := by
    rw [ha.calls]
    simp only [List.mem_filterMap, List.mem_range, Option.bind_eq_none_iff]
    exact ⟨fun hall k hk c hc => hall c ⟨k, hk, hc⟩, fun hall c ⟨k, hk, hc⟩ => hall k hk c hc⟩
  rw [hclean, ha.diagnostics_eq_nil_iff, Document.faultless_iff h, hfaults, ← forall₂_and]
  refine forall₂_congr fun k hk => ?_
  rw [Document.reportsAt_eq_nil_iff]
  have hsite := ha.sites k hk
  constructor
  · rintro ⟨hremarks, hasked⟩
    refine ⟨⟨hremarks, fun t ht => (hasked t ht).1⟩, ?_⟩
    cases hc : call k with
    | none => rfl
    | some c =>
      rw [hc, Option.map_some] at hsite
      obtain ⟨t, ht, _⟩ := Option.map_eq_some_iff.1 hsite.symm
      have := (hasked t (Option.eq_some_of_filter_eq_some ht)).2
      rwa [hc] at this
  · rintro ⟨⟨hremarks, hasked⟩, hfault⟩
    exact ⟨hremarks, fun t ht => ⟨hasked t ht, hfault⟩⟩

end

end Report.Accounts

/-- **What a completed run reports.**  The reports are those of the nodes, in their order: what is
wrong with a node by itself, and, where a tag is called, that its name is unknown or its handler
fails; from a pair inside too many others there is only the report where it begins.  So nothing is
reported just when all of the document is called and no handler fails.  A tag that is put out as it
is written, while nothing is called or reported, is a closing tag without partner, or it stands in a
pair that is reported as being inside too many others. -/
theorem evaluate_accounts (s : Setting) (input : Text) (context : Context) (clock : Clock)
    (hhalt : (evaluate s input context clock).halt = none) :
    let d := Document.parse input
    let r := evaluate s input context clock
    let limit := s.config.maxNestingDepth
    (∃ call, r.Accounts d s call) ∧
      (r.isClean = true ↔ d.Faultless s ∧ ∀ c ∈ r.calls, s.table.fault? c = none) ∧
      (∀ k t, tagAt d.nodes k = some t → ¬ d.Echoed limit k →
        (d.PassesOver s ⟨context, clock, [], []⟩ k t ↔
          t.kind = .closing ∧ d.partnerAt k = none)) ∧
      ∀ k, d.Echoed limit k → ∃ i j t, d.Pair i j ∧ i ≤ k ∧ k ≤ j ∧ d.enclosing i j = limit ∧
        tagAt d.nodes i = some t ∧ t.tooDeep limit ∈ r.diagnostics := by
  intro d r limit
  have hm : d.Matched := Document.matched_parse input
  obtain ⟨call, ha⟩ := Document.exists_accounts hm hhalt
  obtain ⟨q, hq, _⟩ := Document.exists_reaches_of_completed hhalt
  refine ⟨⟨call, ha⟩, ha.isClean_iff hm hhalt, fun k t ht hecho => ?_, fun k hecho => ?_⟩
  · obtain ⟨p, hp⟩ := hq.exists_of_le (Nat.le_of_lt (lt_length_of_tagAt ht))
    exact Document.passesOver_iff hm hp ht hecho
  · obtain ⟨i, j, hpair, hik, hkj, hlimit⟩ := Document.exists_limit_of_echoed hm hecho
    obtain ⟨t, _, ht, _⟩ := hm.isMatching.tags hpair
    refine ⟨i, j, t, hpair, hik, hkj, hlimit, ht, ha.mem_diagnostics (lt_length_of_tagAt ht) ?_⟩
    exact List.mem_append_left _ (Document.tooDeep_mem_remarksAt hpair hlimit ht)

/-- A tag that is never closed and fails, a pair inside too many others with an unknown tag in it, the
unknown pair around them, a closing tag without partner, and a tag that cannot be read. -/
theorem evaluate_accounts_of_each :
    let b : Descriptor := ⟨"b".toList, .code, {}, .immediate fun _ _ c => (.ok ['!'], c)⟩
    let f : Descriptor :=
      ⟨"f".toList, .code, {}, .immediate fun _ _ c => (.error (.message ['?']), c)⟩
    let s : Setting := ⟨Table.empty.insertAll [b, f], { maxNestingDepth := 1 }, {}⟩
    let input := "[u][f][b/][w][z/][/w][/u][/x][q".toList
    let d := Document.parse input
    let r := evaluate s input .empty {}
    r.halt = none ∧ r.output = "[u]![w][z/][/w][/u][/x][q".toList ∧
      r.diagnostics = [.parse (.unclosedTag ['f'] 3), .handlerFailed ['f'] 3 (.message ['?']),
        .parse (.nestingTooDeep ['w'] 10 1), .unresolved ['u'] 0,
        .parse (.unterminatedTag 29)] ∧
      (∃ call, r.Accounts d s call) ∧ ¬ d.Faultless s ∧
      d.PassesOver s ⟨.empty, {}, [], []⟩ 7 ⟨['x'], .closing, [], "[/x]".toList, 25⟩ ∧
      ∃ i j t, d.Pair i j ∧ i ≤ 4 ∧ 4 ≤ j ∧ d.enclosing i j = 1 ∧ tagAt d.nodes i = some t ∧
        t.tooDeep 1 ∈ r.diagnostics := by
  intro b f s input d r
  have hhalt : r.halt = none := by decide +kernel
  have hx : tagAt d.nodes 7 = some ⟨['x'], .closing, [], "[/x]".toList, 25⟩ := by decide +kernel
  have hunpaired : d.partnerAt 7 = none := by decide +kernel
  obtain ⟨haccounts, _, hpasses, hkept⟩ := evaluate_accounts s input .empty {} hhalt
  refine ⟨hhalt, by decide +kernel, by decide +kernel, haccounts, fun hfaultless => ?_, ?_, ?_⟩
  · obtain ⟨t, ht, hkind⟩ : ∃ t, tagAt d.nodes 1 = some t ∧ t.kind = .opening :=
      ⟨⟨['f'], .opening, [], "[f]".toList, 3⟩, by decide +kernel, rfl⟩
    exact hfaultless.closed 1 t ht hkind (by decide +kernel)
  · exact (hpasses 7 _ hx (by decide +kernel)).2 ⟨rfl, hunpaired⟩
  · exact hkept 4 (by decide +kernel)

end Tagtext
