import Tagtext.Proofs.Account
import Tagtext.Proofs.Cancelling

/-!
# Texts of handlers are not read

What a handler returns goes into the output or into the content of the tag around
it, and no tag is looked for in it.  Where no handler fails, the calls and the
reports of a completed run follow from the document, the configuration and the
names in the table:

    handlers called for      those of the nodes, if their names are known   (map_site_calls)
    reports                  those of the nodes, with no failure            (diagnostics_of_answers)

So two runs of one text under tables with the same names call for the same and
report the same, whatever the handlers return and whatever the contexts hold
(`evaluate_unread`).
-/

namespace Tagtext

/-- A handler that returns a text whatever it is given. -/
def Handler.Answers (h : Handler) : Prop :=
  ∀ args content context, ∃ out after, (h args content context).result = some (.ok out, after)

/-- Every handler of a table returns a text whatever it is given. -/
def Table.Answers (t : Table) : Prop := ∀ n d, t.get? n = some d → Handler.Answers d.handler

/-! ## Tables -/

namespace Table

/-- A table knows the names of its descriptors, refused ones too. -/
theorem contains_insert (t : Table) (d : Descriptor) (n : Text) :
    (t.insert d).2.contains n = (decide (n = d.name) || t.contains n) := by
  unfold contains
  rw [get?_insert]
  by_cases hn : n = d.name
  · subst hn
    cases hrefuses : t.refuses d with
    | false => simp
    | true =>
      -- it is refused for another one of its name
      obtain ⟨d', hget, _⟩ := Option.any_eq_true _ _ |>.1 (Bool.and_eq_true_iff.1 hrefuses).2
      simp [hget]
  · simp [hn]

theorem contains_insertAll (ds : List Descriptor) (n : Text) :
    ∀ t : Table, (t.insertAll ds).contains n = (decide (n ∈ ds.map (·.name)) || t.contains n) := by
  induction ds with
  | nil =>
    intro t
    rfl
  | cons d ds ih =>
    intro t
    show ((t.insert d).2.insertAll ds).contains n = _
    rw [ih, contains_insert, ← Bool.or_assoc]
    simp [Bool.or_comm]

theorem answers_empty : empty.Answers := by
  intro n d h
  cases h

theorem Answers.insert {t : Table} (ht : t.Answers) {d : Descriptor}
    (hd : Handler.Answers d.handler) : (t.insert d).2.Answers := by
  intro n d' h
  rw [get?_insert] at h
  split at h
  · cases h
    exact hd
  · exact ht n d' h

theorem Answers.insertAll {ds : List Descriptor} (hds : ∀ d ∈ ds, Handler.Answers d.handler) :
    ∀ {t : Table}, t.Answers → (t.insertAll ds).Answers := by
  induction ds with
  | nil =>
    intro t ht
    exact ht
  | cons d ds ih =>
    intro t ht
    obtain ⟨hd, hrest⟩ := List.forall_mem_cons.1 hds
    exact ih hrest (ht.insert hd)

/-- Tables in which all handlers answer have no calls that fail. -/
theorem Answers.fault?_eq_none {t : Table} (ht : t.Answers) (c : Call) : t.fault? c = none := by
  unfold fault? work?
  cases hget : t.get? c.name with
  | none => rfl
  | some d =>
    obtain ⟨out, after, hresult⟩ := ht c.name d hget c.arguments c.content c.context
    simp [hresult]

end Table

/-! ## Runs -/

namespace Document

section
variable {d : Document} {s s' : Setting}

/-- What a node calls for depends on the configuration and on which names are known. -/
theorem siteAt?_congr (hconfig : s'.config = s.config)
    (hnames : ∀ n, s'.table.contains n = s.table.contains n) (k : Nat) :
    d.siteAt? s' k = d.siteAt? s k := by
  simp only [siteAt?, hconfig, hnames]

theorem reportsAt_congr (hconfig : s'.config = s.config)
    (hnames : ∀ n, s'.table.contains n = s.table.contains n) (fault : Option HandlerError) (k : Nat) :
    d.reportsAt s' fault k = d.reportsAt s fault k := by
  have hreports : Tag.reports s'.table fault = Tag.reports s.table fault := by
    funext t
    simp only [Tag.reports, hnames]
  simp only [reportsAt, hconfig, hreports]

/-- A run that is not watched is completed if all handlers answer. -/
theorem halt_eq_none_of_answers (hw : s.watch = {}) (hs : s.table.Answers) (context : Context)
    (clock : Clock) : (d.evaluate s context clock).halt = none := by
  rcases d.evaluate_cases s context clock with ⟨q, _, hr⟩ | ⟨k, p, cause, q, hstops, _⟩
  · rw [hr]
    rfl
  · exfalso
    obtain ⟨c, work, _, hwork, ⟨t, hhalt, _⟩ | ⟨_, hproceed, _⟩⟩ := hstops.cases
    · rw [hw] at hhalt
      cases hhalt
    · obtain ⟨desc, hget, rfl⟩ := Option.map_eq_some_iff.1 hwork
      obtain ⟨out, after, hresult⟩ := hs c.name desc hget c.arguments c.content c.context
      obtain ⟨clock', hends⟩ := Work.exists_proceed_of_result hresult p.effects.clock
      rw [hw, hends] at hproceed
      cases hproceed

end

end Document

/-- Where all handlers answer, the reports are those of the nodes with no failure. -/
theorem Report.Accounts.diagnostics_of_answers {r : Report} {d : Document} {s : Setting}
    {call : Nat → Option Call} (ha : r.Accounts d s call) (hs : s.table.Answers) :
    r.diagnostics = (List.range d.nodes.length).flatMap (d.reportsAt s none) := by
  rw [ha.diagnostics]
  refine List.flatMap_congr fun k _ => ?_
  cases call k with
  | none => rfl
  | some c => rw [Option.bind_some, hs.fault?_eq_none]

/-- **What handlers return is not read.**  Let two tables know the same names, and let all their
handlers answer.  Then two completed runs of one text under one configuration call handlers for the
same tags in the same order and report the same, whatever the handlers return, whatever they leave in
the context and whatever the two contexts are at the start; and a run that nothing interrupts is
completed. -/
theorem evaluate_unread (s s' : Setting) (input : Text) (context context' : Context)
    (clock clock' : Clock) (hconfig : s'.config = s.config)
    (hnames : ∀ n, s'.table.contains n = s.table.contains n) (hs : s.table.Answers)
    (hs' : s'.table.Answers) :
    let r := evaluate s input context clock
    let r' := evaluate s' input context' clock'
    (s.watch = {} → r.halt = none) ∧ (s'.watch = {} → r'.halt = none) ∧
      (r.halt = none → r'.halt = none →
        r'.diagnostics = r.diagnostics ∧ r'.calls.map Call.site = r.calls.map Call.site) := by
  intro r r'
  refine ⟨fun hw => Document.halt_eq_none_of_answers hw hs context clock,
    fun hw => Document.halt_eq_none_of_answers hw hs' context' clock', fun hhalt hhalt' => ?_⟩
  have hm : (Document.parse input).Matched := Document.matched_parse input
  obtain ⟨call, ha⟩ : ∃ call, r.Accounts (Document.parse input) s call :=
    Document.exists_accounts hm hhalt
  obtain ⟨call', ha'⟩ : ∃ call', r'.Accounts (Document.parse input) s' call' :=
    Document.exists_accounts hm hhalt'
  constructor
  · rw [ha.diagnostics_of_answers hs, ha'.diagnostics_of_answers hs']
    exact List.flatMap_congr fun k _ => Document.reportsAt_congr hconfig hnames none k
  · rw [ha.map_site_calls, ha'.map_site_calls]
    exact List.filterMap_congr fun k _ => Document.siteAt?_congr hconfig hnames k

/-- Handlers that return the text of tags, and others that return nothing or a bracket. -/
theorem evaluate_unread_of_markup :
    let a : Descriptor := ⟨"a".toList, .code, {}, .immediate fun _ content c =>
      (.ok (content ++ "[b/]".toList), c)⟩
    let b : Descriptor := ⟨"b".toList, .code, {}, .immediate fun _ _ c =>
      (.ok "[/a][b x='".toList, c.increment "n".toList)⟩
    let a' : Descriptor := ⟨"a".toList, .code, {}, .immediate fun _ _ c => (.ok [], c)⟩
    let b' : Descriptor := ⟨"b".toList, .code, {}, .immediate fun _ _ c => (.ok [']'], c)⟩
    let s : Setting := ⟨Table.empty.insertAll [a, b], {}, {}⟩
    let s' : Setting := ⟨Table.empty.insertAll [a', b'], {}, {}⟩
    let input := "[a][b x=1/][/a][u/][b]".toList
    let r := evaluate s input .empty {}
    let r' := evaluate s' input (Context.empty.increment "m".toList) {}
    s.table.Answers ∧ s'.table.Answers ∧ r.halt = none ∧ r'.halt = none ∧
      r.output = "[/a][b x='[b/][u/][/a][b x='".toList ∧ r'.output = "[u/]]".toList ∧
      r'.diagnostics = r.diagnostics ∧ r'.calls.map Call.site = r.calls.map Call.site ∧
      r.calls.map (·.offset) = [3, 0, 19] := by
  intro a b a' b' s s' input r r'
  have hs : s.table.Answers := by
    refine Table.Answers.insertAll (fun d hd args content context => ?_) Table.answers_empty
    rcases List.mem_pair.1 hd with rfl | rfl
    · exact ⟨_, _, rfl⟩
    · exact ⟨_, _, rfl⟩
  have hs' : s'.table.Answers := by
    refine Table.Answers.insertAll (fun d hd args content context => ?_) Table.answers_empty
    rcases List.mem_pair.1 hd with rfl | rfl
    · exact ⟨_, _, rfl⟩
    · exact ⟨_, _, rfl⟩
  have hnames : ∀ n, s'.table.contains n = s.table.contains n := by
    intro n
    rw [Table.contains_insertAll, Table.contains_insertAll]
    rfl
  obtain ⟨hdone, hdone', hsame⟩ := evaluate_unread s s' input .empty
    (Context.empty.increment "m".toList) {} {} rfl hnames hs hs'
  obtain ⟨hdiagnostics, hsites⟩ := hsame (hdone rfl) (hdone' rfl)
  exact ⟨hs, hs', hdone rfl, hdone' rfl, by decide +kernel, by decide +kernel, hdiagnostics, hsites,
    by decide +kernel⟩

end Tagtext
