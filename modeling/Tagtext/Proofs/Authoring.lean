import Tagtext.Engine
import Tagtext.Proofs.Account
import Tagtext.Proofs.Override

/-!
# What authors are shown

An authoring tool lists the tags that can be used over a context, and an
evaluation over this context uses them.  Both seed a context and build a table
of their own, the one on the side and the other in place.  A listing is the
table that the evaluation builds, by name:

    i ∈ list context ↔ i is the summary of the winner of its name    (mem_list_iff)
    the names in it strictly increase                                (sorted_listed)
    in a completed run just the tags with other names are unknown, and what is
    called is the handler of the descriptor that is shown            (run_followsList)

This holds for providers that fail, and for ones whose offer depends on what the
seeds have put into the context.  Listing leaves no trace: requests that share a
context are answered in the same way without the listings between them
(`serveAll_filter`).
-/

namespace Tagtext

/-! ## Requests -/

namespace Engine

/-- What is asked of an engine. -/
inductive Request where
  | list
  | evaluate (input : Text) (hasToken cancelled : Bool) (cancelAt : Option Nat) (cancelsFirst : Bool)
  deriving DecidableEq, Repr

/-- Whether a request is an evaluation. -/
def Request.isEvaluation : Request → Bool
  | list => false
  | evaluate _ _ _ _ _ => true

/-- What an engine answers. -/
inductive Answer where
  | listing (infos : List Info)
  | report (r : Report)

/-- The report of an evaluation. -/
def Answer.report? : Answer → Option Report
  | listing _ => none
  | report r => some r

/-- Answers a request over a context, and leaves a context behind. -/
def serve (e : Engine) (context : Context) : Request → Answer × Context
  | .list => (.listing (e.list context), context)
  | .evaluate input hasToken cancelled cancelAt cancelsFirst =>
    let r := e.run input context hasToken cancelled cancelAt cancelsFirst
    (.report r, r.context)

/-- Answers requests that share one context, one after the other. -/
def serveAll (e : Engine) : List Request → Context → List Answer × Context
  | [], context => ([], context)
  | q :: qs, context =>
    let (a, next) := e.serve context q
    let (rest, last) := serveAll e qs next
    (a :: rest, last)

/-- The names that an author is shown. -/
def listed (e : Engine) (context : Context) : List Text := (e.list context).map (·.name)

/-- All that the providers offer to a listing or a run over a context. -/
def offers (e : Engine) (context : Context) : List Descriptor :=
  Provider.offers e.providers (e.seed context)

/-- What a run over a context evaluates its document with. -/
def settingOf (e : Engine) (context : Context) (hasToken : Bool) (cancelAt : Option Nat)
    (cancelsFirst : Bool) : Setting :=
  ⟨e.table (e.seed context), e.config, e.watch hasToken cancelAt cancelsFirst⟩

/-- What such a run starts with when its table is built, at this time. -/
def start (e : Engine) (context : Context) (cancelled : Bool) (built : Nat) : Effects :=
  ⟨e.seed context, { now := built, cancelled }, [], []⟩

end Engine

/-- A run makes this call of this handler: the handler is given what the call says, what it returns is
put out at some node, and the context it leaves is the one that the run goes on with. -/
def Document.Serves (d : Document) (s : Setting) (start : Effects) (c : Call) (h : Handler) : Prop :=
  ∃ k n p q result, d.nodes[k]? = some n ∧ d.Reaches s start k p ∧ d.Reaches s start (k + 1) q ∧
    q.effects.calls = p.effects.calls ++ [c] ∧
    (h c.arguments c.content c.context).result = some (result, q.effects.context) ∧
    q.stack = (p.stackAround n).emit (s.config.written result)

/-- What a listing says about a completed run over the same context. -/
structure Report.FollowsList (r : Report) (e : Engine) (context : Context) (d : Document)
    (s : Setting) (start : Effects) : Prop where
  /-- Of the names that are in use, just those that are not listed are reported as unknown. -/
  unresolved : ∀ n o, .unresolved n o ∈ r.diagnostics ↔
    n ∉ e.listed context ∧ ∃ k t, d.asked? e.config k = some t ∧ t.name = n ∧ t.start = o
  /-- The tags with the other names are called, in their order. -/
  sites : r.calls.map Call.site = (List.range d.nodes.length).filterMap fun k =>
    ((d.asked? e.config k).filter fun t => t.name ∈ e.listed context).map Tag.site
  /-- What is called is the handler of the descriptor that the listing shows. -/
  served : ∀ c ∈ r.calls, ∃ shown, shown.info ∈ e.list context ∧
    Descriptor.winner? c.name (e.offers context) = some shown ∧ d.Serves s start c shown.handler

/-! ## Tables as listings -/

theorem Descriptor.name_of_winner? {name : Text} {ds : List Descriptor} {d : Descriptor}
    (h : winner? name ds = some d) : d.name = name := by
  rcases Option.or_eq_some_iff.1 h with h | ⟨_, h⟩
  · exact (isOf_of_last? h).2.1
  · exact (isOf_of_last? h).2.1

namespace Table

variable {ds : List Descriptor}

/-- Each descriptor is kept under its own name. -/
theorem name_of_mem_entries {e : Text × Descriptor} (h : e ∈ (empty.insertAll ds).entries) :
    e.2.name = e.1 := by
  have hget : (empty.insertAll ds).get? e.1 = some e.2 :=
    (Dictionary.mem_iff (isSorted_insertAll ds) e).1 h
  rw [get?_insertAll] at hget
  exact Descriptor.name_of_winner? hget

theorem map_name_infos :
    (empty.insertAll ds).infos.map (·.name) = (empty.insertAll ds).names := by
  rw [infos, descriptors, names, Dictionary.keys, List.map_map, List.map_map]
  exact List.map_congr_left fun e he => name_of_mem_entries he

theorem sorted_names : (empty.insertAll ds).names.Pairwise (· < ·) :=
  List.pairwise_map.2 (isSorted_insertAll ds)

/-- **The summaries of a table** are those of the winners. -/
theorem mem_infos_iff {i : Info} : i ∈ (empty.insertAll ds).infos ↔
    ∃ d, Descriptor.winner? i.name ds = some d ∧ i = d.info := by
  simp only [infos, descriptors, List.mem_map]
  constructor
  · rintro ⟨d, ⟨e, he, rfl⟩, rfl⟩
    refine ⟨e.2, ?_, rfl⟩
    rw [← get?_insertAll]
    have hget := (Dictionary.mem_iff (isSorted_insertAll ds) e).1 he
    rwa [← name_of_mem_entries he] at hget
  · rintro ⟨d, hd, rfl⟩
    rw [← get?_insertAll] at hd
    exact ⟨d, ⟨(d.name, d), (Dictionary.mem_iff (isSorted_insertAll ds) _).2 hd, rfl⟩, rfl⟩

end Table

namespace Engine

variable (e : Engine) (context : Context)

theorem table_seed : e.table (e.seed context) = Table.empty.insertAll (e.offers context) :=
  Provider.table_eq_insertAll _ _

/-- The names of a listing strictly increase. -/
theorem sorted_listed : (e.listed context).Pairwise (· < ·) := by
  rw [listed, list, table_seed, Table.map_name_infos]
  exact Table.sorted_names

/-- A listing shows the winners. -/
theorem mem_list_iff {i : Info} : i ∈ e.list context ↔
    ∃ d, Descriptor.winner? i.name (e.offers context) = some d ∧ i = d.info := by
  rw [list, table_seed, Table.mem_infos_iff]

/-- A name is listed just if the table of a run answers to it. -/
theorem mem_listed_iff {n : Text} :
    n ∈ e.listed context ↔ (e.table (e.seed context)).contains n = true := by
  rw [Table.contains, table_seed, Table.get?_insertAll, Option.isSome_iff_exists, listed,
    List.mem_map]
  constructor
  · rintro ⟨i, hi, rfl⟩
    obtain ⟨d, hd, _⟩ := (e.mem_list_iff context).1 hi
    exact ⟨d, hd⟩
  · rintro ⟨d, hd⟩
    obtain rfl := Descriptor.name_of_winner? hd
    exact ⟨d.info, (e.mem_list_iff context).2 ⟨d, hd, rfl⟩, rfl⟩

/-- **Listings leave no trace.**  Without them the same requests are answered in the same way, and the
same context is left behind. -/
theorem serveAll_filter (qs : List Request) :
    (e.serveAll (qs.filter Request.isEvaluation) context).1.filterMap Answer.report? =
        (e.serveAll qs context).1.filterMap Answer.report? ∧
      (e.serveAll (qs.filter Request.isEvaluation) context).2 = (e.serveAll qs context).2 := by
  induction qs generalizing context with
  | nil => exact ⟨rfl, rfl⟩
  | cons q qs ih =>
    cases q with
    | list => exact ih context
    | evaluate input hasToken cancelled cancelAt cancelsFirst =>
      obtain ⟨hreports, hlast⟩ :=
        ih (e.run input context hasToken cancelled cancelAt cancelsFirst).context
      exact ⟨congrArg (_ :: ·) hreports, hlast⟩

end Engine

/-! ## Runs -/

namespace Document

section
variable {d : Document} {s : Setting} {start : Effects} {k : Nat} {p : Pass}

/-- What has been called where a run comes was served by the descriptors of its table. -/
theorem Reaches.serves (h : d.Reaches s start k p) : ∀ c ∈ p.effects.calls, c ∈ start.calls ∨
    ∃ desc, s.table.get? c.name = some desc ∧ d.Serves s start c desc.handler := by
  refine (d.reaches_zero s start).induct (I := fun _ p => ∀ c ∈ p.effects.calls, c ∈ start.calls ∨
    ∃ desc, s.table.get? c.name = some desc ∧ d.Serves s start c desc.handler)
    (fun c hc => Or.inl hc) (fun j n p q _ hp hn hI hs c hc => ?_) (Nat.zero_le k) h
  have hdoes := Pass.does_step s j n p
  rw [hs] at hdoes
  cases hdoes with
  | quiet hquiet hcontext hclock hcalls =>
    rw [hcalls] at hc
    exact hI c hc
  | finished c' work result hneeds hwork hw hproceed hcalls hstack =>
    have hmem := hc
    rw [hcalls, List.mem_append, List.mem_singleton] at hmem
    rcases hmem with hmem | rfl
    · exact hI c hmem
    · obtain ⟨desc, hdesc, rfl⟩ := Option.map_eq_some_iff.1 hwork
      exact Or.inr ⟨desc, hdesc, j, n, p, q, result, hn, hp, hp.succ hn hs, hcalls,
        Work.result_of_proceed hproceed, hstack⟩

/-- What is remarked of a node by itself is not that a name is unknown. -/
theorem unresolved_notMem_remarksAt (limit k : Nat) (n : Text) (o : Nat) :
    .unresolved n o ∉ d.remarksAt limit k := by
  intro h
  unfold remarksAt at h
  split at h
  · obtain ⟨t, _, ht⟩ := Option.map_eq_some_iff.1 (Option.mem_toList.1 h)
    cases ht
  · obtain ⟨e, _, he⟩ := Option.map_eq_some_iff.1 (Option.mem_toList.1 h)
    cases he

/-- A node reports a name as unknown just if it asks for a tag with a name that is. -/
theorem unresolved_mem_reportsAt {fault : Option HandlerError} {n : Text} {o : Nat} :
    .unresolved n o ∈ d.reportsAt s fault k ↔ s.table.contains n = false ∧
      ∃ t, d.asked? s.config k = some t ∧ t.name = n ∧ t.start = o := by
  rw [reportsAt, List.mem_append, or_iff_right (unresolved_notMem_remarksAt _ _ _ _)]
  cases d.asked? s.config k with
  | none => simp
  | some t =>
    simp only [Option.map_some, Option.getD_some, Option.some.injEq, exists_eq_left', Tag.reports]
    cases hc : s.table.contains t.name with
    | false =>
      rw [if_neg Bool.false_ne_true, List.mem_singleton, Diagnostic.unresolved.injEq]
      constructor
      · rintro ⟨rfl, rfl⟩
        exact ⟨hc, rfl, rfl⟩
      · rintro ⟨_, rfl, rfl⟩
        exact ⟨rfl, rfl⟩
    | true =>
      rw [if_pos rfl]
      constructor
      · intro h
        obtain ⟨err, _, herr⟩ := Option.map_eq_some_iff.1 (Option.mem_toList.1 h)
        cases herr
      · rintro ⟨h, rfl, _⟩
        rw [hc] at h
        cases h

theorem lt_length_of_asked? {config : Config} {t : Tag} (h : d.asked? config k = some t) :
    k < d.nodes.length := by
  unfold asked? at h
  split at h
  · cases h
  · obtain ⟨t', ht', _⟩ := Option.bind_eq_some_iff.1 h
    exact lt_length_of_tagAt ht'

end

end Document

namespace Engine

variable (e : Engine) (context : Context)

section
variable {input : Text} {hasToken cancelled : Bool} {cancelAt : Option Nat} {cancelsFirst : Bool}

/-- A run that is completed had its table built in time. -/
theorem run_of_completed
    (h : (e.run input context hasToken cancelled cancelAt cancelsFirst).halt = none) :
    ∃ built, Provider.totalDelay e.providers = some built ∧
      e.run input context hasToken cancelled cancelAt cancelsFirst =
        (Document.parse input).evaluate (e.settingOf context hasToken cancelAt cancelsFirst)
          (e.seed context) (e.start context cancelled built).clock := by
  rcases e.run_halted_or_evaluate input context hasToken cancelled cancelAt cancelsFirst with
    ⟨cause, t, hr⟩ | hr
  · rw [hr] at h
    cases h
  · exact hr

/-- **A completed run follows the listing** over its context. -/
theorem run_followsList
    (h : (e.run input context hasToken cancelled cancelAt cancelsFirst).halt = none) :
    ∃ built, Provider.totalDelay e.providers = some built ∧
      (e.run input context hasToken cancelled cancelAt cancelsFirst).FollowsList e context
        (Document.parse input) (e.settingOf context hasToken cancelAt cancelsFirst)
        (e.start context cancelled built) := by
  obtain ⟨built, hbuilt, hrun⟩ := e.run_of_completed context h
  rw [hrun] at h ⊢
  obtain ⟨call, ha⟩ := Document.exists_accounts (Document.matched_parse input) h
  have hlisted : ∀ n, (e.settingOf context hasToken cancelAt cancelsFirst).table.contains n =
      decide (n ∈ e.listed context) := by
    intro n
    rw [Bool.eq_iff_iff, decide_eq_true_iff]
    exact (e.mem_listed_iff context).symm
  refine ⟨built, hbuilt, fun n o => ?_, ?_, fun c hc => ?_⟩
  · rw [ha.diagnostics, List.mem_flatMap]
    simp only [Document.unresolved_mem_reportsAt, List.mem_range, hlisted, decide_eq_false_iff_not]
    constructor
    · rintro ⟨k, _, hn, t, ht, hname, hstart⟩
      exact ⟨hn, k, t, ht, hname, hstart⟩
    · rintro ⟨hn, k, t, ht, hname, hstart⟩
      exact ⟨k, Document.lt_length_of_asked? ht, hn, t, ht, hname, hstart⟩
  · rw [ha.map_site_calls]
    refine List.filterMap_congr fun k _ => ?_
    simp only [Document.siteAt?, hlisted]
    rfl
  · obtain ⟨q, hq, hr⟩ := Document.exists_reaches_of_completed h
    rw [hr] at hc
    obtain ⟨desc, hdesc, hserves⟩ := (hq.serves c hc).resolve_left List.not_mem_nil
    have hwinner : Descriptor.winner? c.name (e.offers context) = some desc := by
      rw [← Table.get?_insertAll, ← table_seed]
      exact hdesc
    have hname := Descriptor.name_of_winner? hwinner
    refine ⟨desc, (e.mem_list_iff context).2 ⟨desc, ?_, rfl⟩, hwinner, hserves⟩
    rw [← hwinner, ← hname]
    rfl

end

end Engine

/-- **Authors are shown what runs use.**  A listing over a context shows the summary of every
descriptor that its name belongs to, of all that the providers offer over the seeded context, sorted
by name and each name once; a provider that fails takes nothing away from the others.  A completed run
over the same context reports a tag that it asks for as unknown just if its name is not listed, and
calls the other tags, each with the handler of the very descriptor that is listed under its name.
Listings between other requests change no report and no context. -/
theorem list_describes_runs (e : Engine) (context : Context) :
    (e.listed context).Pairwise (· < ·) ∧
    (∀ i, i ∈ e.list context ↔
      ∃ d, Descriptor.winner? i.name (e.offers context) = some d ∧ i = d.info) ∧
    (∀ input hasToken cancelled cancelAt cancelsFirst,
      let r := e.run input context hasToken cancelled cancelAt cancelsFirst
      r.halt = none → ∃ built, Provider.totalDelay e.providers = some built ∧
        r.FollowsList e context (Document.parse input)
          (e.settingOf context hasToken cancelAt cancelsFirst) (e.start context cancelled built)) ∧
    ∀ qs : List Engine.Request,
      (e.serveAll (qs.filter Engine.Request.isEvaluation) context).1.filterMap
          Engine.Answer.report? =
        (e.serveAll qs context).1.filterMap Engine.Answer.report? ∧
      (e.serveAll (qs.filter Engine.Request.isEvaluation) context).2 =
        (e.serveAll qs context).2 :=
  ⟨e.sorted_listed context, fun _ => e.mem_list_iff context,
    fun _ _ _ _ _ h => e.run_followsList context h, e.serveAll_filter context⟩

/-- Code, a template in its place, a provider that fails, and one whose offer depends on a seed. -/
theorem list_describes_runs_seeded :
    let say (t : Text) : Handler := .immediate fun _ _ c => (.ok t, c)
    let failing : Provider := ⟨"down".toList, some 3, fun _ => .error .invalid⟩
    let dependent : Provider := ⟨"members".toList, some 0, fun c =>
      .ok (if c.contains "user".toList then [⟨['m'], .code, {}, say "M".toList⟩] else [])⟩
    let e : Engine :=
      { registrations := Registrations.empty.add ['a'] (say "code".toList)
        templates := some { store := ⟨[⟨['a'], "A".toList, { hint := some "first".toList }⟩]⟩ }
        render := fun content _ => .ok content
        furtherProviders := [failing, dependent]
        seeds := [fun c => c.insert "user".toList .null] }
    let r := e.run "[a/][u/][m/]".toList .empty
    r.halt = none ∧ r.output = "A[u/]M".toList ∧
      e.list .empty = [⟨['a'], some "first".toList, none, [], "[a]".toList, .template⟩,
        ⟨['m'], none, none, [], "[m]".toList, .code⟩] ∧
      r.FollowsList e .empty (Document.parse "[a/][u/][m/]".toList)
        (e.settingOf .empty false none false) (e.start .empty false 3) := by
  intro say failing dependent e r
  have hhalt : r.halt = none := by decide +kernel
  refine ⟨hhalt, by decide +kernel, by decide +kernel, ?_⟩
  obtain ⟨built, hbuilt, hfollows⟩ :=
    (list_describes_runs e .empty).2.2.1 _ false false none false hhalt
  cases hbuilt
  exact hfollows

end Tagtext
