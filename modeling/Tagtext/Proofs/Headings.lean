import Tagtext.Builtins
import Tagtext.Engine
import Tagtext.Proofs.Relay
import Tagtext.Proofs.Waiting

/-!
# Headings and the table of contents

The built-in tags keep two entries in the context: how many headings there are,
and the list of them.  Each is changed in a step of its own, and each step starts
over where it finds a value of another shape.  Over one context in which both are
absent at first they agree all the same, in any number of runs, whatever is in
the documents and wherever a run is cut short, before its first call or between
any two: behind any call they are what the headings completed so far make them
(`Records`), the `n`-th of these is written with the number `n`, and a table of
contents lists them all, in the order in which they were called.

    where hs are recorded, a heading is written and recorded as the next  (heading_of_some)
    where hs are recorded, a table of contents lists hs                   (Records.toc)
    calls cs lead from Records hs to Records (hs ++ headings cs)          (records_of_leads)
    a run can be cut short in front of each of its calls                  (Visit.exists_cut)
    every call of a session finds and leaves such a context               (session_headings)

Heading numbers are integers of 63 bits and a sign; all of this is so for fewer
than `countLimit` headings.
-/

namespace Tagtext

/-! ## Headings -/

/-- What is recorded of a heading. -/
structure Heading where
  level : Nat
  text : Text
  deriving DecidableEq, Repr

namespace Heading

/-- The id of the heading with this number. -/
def id (n : Nat) : Text := 'h' :: decimal n

/-- A heading as it is recorded under this number. -/
def entry (n : Nat) (h : Heading) : Json :=
  .object [("id".toList, .string (id n)), ("level".toList, .nat h.level),
    ("text".toList, .string h.text)]

/-- A heading as it is written with this number. -/
def written (n : Nat) (h : Heading) : Text :=
  let tag := 'h' :: decimal h.level
  '<' :: tag ++ " id=\"".toList ++ id n ++ "\">".toList ++ h.text ++ "</".toList ++ tag ++ ['>']

/-- The line of a table of contents for the heading with this number. -/
def line (n : Nat) (h : Heading) : Text :=
  "<li><a href=\"#".toList ++ id n ++ "\">".toList ++ h.text ++ "</a></li>".toList

/-- The headings as they are recorded, numbered from one on. -/
def entries (hs : List Heading) : List Json := hs.mapIdx fun i h => h.entry (i + 1)

/-- The table of contents with these headings. -/
def contents (hs : List Heading) : Text :=
  "<ul class=\"toc\">".toList ++ (hs.mapIdx fun i h => h.line (i + 1)).flatten ++ "</ul>".toList

end Heading

open Builtins

/-- The heading that a call of the built-in `heading` makes; none if its level is invalid. -/
def Call.heading? (c : Call) : Option Heading :=
  if c.name = "heading".toList then
    (headingLevel? ((c.arguments.namedOrAt? "level".toList 0).getD "2".toList)).map fun level =>
      ⟨level, nonEmptyOr (c.arguments.named? "text".toList) c.content⟩
  else none

/-- The headings that calls make, in their order. -/
def headings (calls : List Call) : List Heading := calls.filterMap Call.heading?

/-- The first number that is no integer of 63 bits and a sign. -/
def countLimit : Nat := 0x8000000000000000

/-- A context in which just these headings are recorded. -/
structure Records (hs : List Heading) (c : Context) : Prop where
  count : c.get? countKey = if hs = [] then none else some (.nat hs.length)
  list : c.get? listKey = if hs = [] then none else some (.array (Heading.entries hs))

/-- A call that finds just these headings recorded leaves its own recorded behind them.  A heading is
written with its number, with an invalid level it fails and changes nothing, and a table of contents
lists what it finds. -/
structure Completes (hs : List Heading) (c : Call) (result : Except HandlerError Text)
    (next : Context) : Prop where
  before : Records hs c.context
  after : Records (hs ++ headings [c]) next
  heading : ∀ h, c.heading? = some h → result = .ok (h.written (hs.length + 1))
  invalid : c.name = "heading".toList → c.heading? = none →
    (∃ e, result = .error e) ∧ next = c.context
  toc : c.name = "toc".toList → result = .ok (Heading.contents hs) ∧ next = c.context

/-- The table of the built-in tags. -/
def Builtins.table : Table := Table.empty.insertAll all.descriptors

/-! ## Sessions -/

/-- What one evaluation of a session is given beside the context, and what goes on meanwhile.  The
built-in tags do not wait, so a visit takes as much time as its pace says, and between any two of its
calls another party can cancel the token, or the time can be over. -/
structure Visit where
  input : Text
  config : Config := {}
  /-- How templates are rendered; there are none. -/
  render : Renderer := fun _ _ => .error .failed
  hasToken : Bool := false
  /-- Whether the token was cancelled before. -/
  cancelled : Bool := false
  /-- When another party cancels the token. -/
  cancelAt : Option Nat := none
  cancelsFirst : Bool := false
  pace : Pace := {}

namespace Visit

/-- The engine of a visit, with the built-in tags only. -/
def engine (v : Visit) : Engine where
  registrations := Builtins.all
  render := v.render
  config := v.config

/-- What is left behind when the text of a visit is evaluated over a context. -/
def run (v : Visit) (context : Context) : Report :=
  v.engine.run v.input context v.hasToken v.cancelled v.cancelAt v.cancelsFirst v.pace

/-- What the run of a visit looks out for. -/
def watch (v : Visit) : Watch := v.engine.watch v.hasToken v.cancelAt v.cancelsFirst

/-- What the run of a visit works with if nothing stops it. -/
def setting (v : Visit) : Setting := ⟨Builtins.table, v.config, {}⟩

/-- What the run of a visit starts with if nothing stops it. -/
def start (_ : Visit) (context : Context) : Effects := ⟨context, {}, [], []⟩

/-- The same visit in no time of its own, with nobody to cancel it. -/
def undisturbed (v : Visit) : Visit :=
  { v with hasToken := false, cancelled := false, cancelAt := none, pace := {} }

/-- The same visit with a token that another party cancels in front of node `k`. -/
def cutAt (k : Nat) (v : Visit) : Visit :=
  { v with hasToken := true, cancelled := false, cancelAt := some 1, pace := .pauseAt k }

end Visit

/-- What is left behind by visits that share one context, one after the other. -/
def session : List Visit → Context → List Report
  | [], _ => []
  | v :: vs, context => v.run context :: session vs (v.run context).context

/-- The context that runs leave, one after the other. -/
def contextBehind (reports : List Report) (context : Context) : Context :=
  reports.foldl (fun _ r => r.context) context

/-! ## Recorded headings -/

namespace Heading

@[simp] theorem length_entries (hs : List Heading) : (entries hs).length = hs.length := by
  simp [entries]

theorem entries_concat (hs : List Heading) (h : Heading) :
    entries (hs ++ [h]) = entries hs ++ [h.entry (hs.length + 1)] := by
  simp [entries, List.mapIdx_append]

theorem ofEntries_eq (n : Nat) (h : Heading) :
    Json.ofEntries [("id".toList, .string (id n)), ("level".toList, .nat h.level),
      ("text".toList, .string h.text)] = h.entry n := rfl

/-- A recorded heading is listed with its id and text. -/
theorem tocItem_entry (n : Nat) (h : Heading) : tocItem (h.entry n) = h.line n := rfl

theorem map_tocItem (hs : List Heading) :
    (entries hs).map tocItem = hs.mapIdx fun i h => h.line (i + 1) := by
  apply List.ext_getElem?
  intro i
  simp [entries, List.getElem?_mapIdx, Option.map_map, Function.comp_def, tocItem_entry]

end Heading

/-- A number below the limit is read back. -/
theorem int64?_nat {n : Nat} (hlt : n < countLimit) : (Json.nat n).int64? = some (n : Int) := by
  have hrange : (-0x8000000000000000 : Int) ≤ n ∧ (n : Int) ≤ 0x7FFFFFFFFFFFFFFF := by
    unfold countLimit at hlt
    omega
  simp only [Json.int64?, Json.intBetween?, Json.nat, Json.int, Json.int?, Option.filter_some]
  simp [hrange]

namespace Records

variable {hs : List Heading} {c : Context}

theorem empty (hcount : c.get? countKey = none) (hlist : c.get? listKey = none) : Records [] c :=
  ⟨hcount, hlist⟩

theorem list_eq (h : Records hs c) : c.list listKey = Heading.entries hs := by
  rw [Context.list, h.list]
  by_cases hnil : hs = []
  · rw [if_pos hnil, hnil]
    rfl
  · rw [if_neg hnil]
    rfl

theorem count_eq (h : Records hs c) (hlt : hs.length < countLimit) : c.count countKey = hs.length := by
  rw [Context.count, h.count]
  by_cases hnil : hs = []
  · rw [if_pos hnil, hnil]
    rfl
  · rw [if_neg hnil, Option.bind_some, int64?_nat hlt, Option.getD_some]

/-- Counting up and adding to the list record one more heading. -/
theorem concat (h : Records hs c) (hlt : hs.length < countLimit) (heading : Heading) :
    Records (hs ++ [heading]) ((c.increment countKey).push listKey
      (heading.entry (hs.length + 1))) := by
  have hkeys : countKey ≠ listKey := by decide
  have hcounted : (c.increment countKey).list listKey = Heading.entries hs := by
    rw [Context.list, Context.increment, Context.get?_insert, if_neg (Ne.symm hkeys),
      ← Context.list, h.list_eq]
  constructor
  · rw [Context.push, Context.get?_insert, if_neg hkeys, Context.increment, Context.get?_insert,
      if_pos rfl, h.count_eq hlt]
    simp [Json.nat]
  · rw [Context.push, Context.get?_insert, if_pos rfl, hcounted, Heading.entries_concat]
    simp

/-- The number of a new heading is one more than there are. -/
theorem count_increment (h : Records hs c) (hlt : hs.length + 1 < countLimit) :
    (c.increment countKey).count countKey = (hs.length + 1 : Nat) := by
  have hnext : Json.int (c.count countKey + 1) = .nat (hs.length + 1) := by
    rw [h.count_eq (by omega)]
    rfl
  rw [Context.count, Context.increment, Context.get?_insert, if_pos rfl, Option.bind_some, hnext,
    int64?_nat hlt, Option.getD_some]

end Records

/-! ## Calls -/

/-- A heading with a valid level is written with the number under which it is recorded. -/
theorem Records.heading_of_some {hs : List Heading} {c : Call} {h : Heading}
    (hrecords : Records hs c.context) (hname : c.name = "heading".toList)
    (hh : c.heading? = some h) (hlt : (hs ++ [h]).length < countLimit) :
    ∃ next, heading c.arguments c.content c.context = (.ok (h.written (hs.length + 1)), next) ∧
      Records (hs ++ [h]) next := by
  rw [List.length_append, List.length_singleton] at hlt
  rw [Call.heading?, if_pos hname] at hh
  obtain ⟨level, hlevel, rfl⟩ := Option.map_eq_some_iff.1 hh
  have hrecorded := hrecords.concat (Nat.lt_of_succ_lt hlt)
    ⟨level, nonEmptyOr (c.arguments.named? "text".toList) c.content⟩
  rw [← Heading.ofEntries_eq] at hrecorded
  refine ⟨_, ?_, hrecorded⟩
  rw [heading]
  simp only [hlevel, hrecords.count_increment hlt]
  rfl

/-- A heading with an invalid level fails and leaves the context as it is. -/
theorem heading_of_none {c : Call} (hname : c.name = "heading".toList) (hh : c.heading? = none) :
    ∃ e, heading c.arguments c.content c.context = (.error e, c.context) := by
  rw [Call.heading?, if_pos hname, Option.map_eq_none_iff] at hh
  rw [heading]
  simp only [hh]
  exact ⟨_, rfl⟩

/-- A table of contents lists the recorded headings. -/
theorem Records.toc {hs : List Heading} {c : Context} (h : Records hs c) (args : Arguments)
    (content : Text) : toc args content c = (.ok (Heading.contents hs), c) := by
  rw [Builtins.toc, h.list_eq, List.flatMap, Heading.map_tocItem]
  rfl

/-! ## The table of the built-in tags -/

namespace Builtins

/-- The built-in tags and their handlers, by name. -/
theorem map_handler_table : table.entries.map (fun e => (e.1, e.2.handler)) =
    [("bold".toList, ofText fun t => "<b>".toList ++ t ++ "</b>".toList),
      ("heading".toList, .immediate heading),
      ("italic".toList, ofText fun t => "<em>".toList ++ t ++ "</em>".toList),
      ("toc".toList, .immediate toc), ("upper".toList, ofText toUpper)] := rfl

/-- Of the built-in tags, two have to do with headings, and the others look at their text only. -/
theorem handler_cases {n : Text} {d : Descriptor} (h : table.get? n = some d) :
    n = "heading".toList ∧ d.handler = .immediate heading ∨
      n = "toc".toList ∧ d.handler = .immediate toc ∨
      n ≠ "heading".toList ∧ n ≠ "toc".toList ∧ ∃ f, d.handler = ofText f := by
  obtain ⟨e, he, rfl⟩ := Option.map_eq_some_iff.1 h
  have hmem := List.mem_map_of_mem (f := fun e => (e.1, e.2.handler)) (List.mem_of_find?_eq_some he)
  have hname : e.1 = n := by simpa using List.find?_some he
  rw [map_handler_table, hname] at hmem
  simp only [List.mem_cons, List.not_mem_nil, or_false, Prod.mk.injEq] at hmem
  rcases hmem with ⟨rfl, hd⟩ | hd | ⟨rfl, hd⟩ | hd | ⟨rfl, hd⟩
  · exact Or.inr (Or.inr ⟨by decide, by decide, _, hd⟩)
  · exact Or.inl hd
  · exact Or.inr (Or.inr ⟨by decide, by decide, _, hd⟩)
  · exact Or.inr (Or.inl hd)
  · exact Or.inr (Or.inr ⟨by decide, by decide, _, hd⟩)

theorem isPrompt_table : table.IsPrompt := by
  intro n d h
  rcases handler_cases h with ⟨_, hd⟩ | ⟨_, hd⟩ | ⟨_, _, f, hd⟩
  · exact ⟨_, hd⟩
  · exact ⟨_, hd⟩
  · exact ⟨_, hd⟩

/-- What a call of a built-in tag comes to. -/
theorem answer?_cases {c : Call} {answer : Except HandlerError Text × Context}
    (h : table.answer? c = some answer) :
    c.name = "heading".toList ∧ answer = heading c.arguments c.content c.context ∨
      c.name = "toc".toList ∧ answer = toc c.arguments c.content c.context ∨
      c.name ≠ "heading".toList ∧ c.name ≠ "toc".toList ∧ answer.2 = c.context := by
  obtain ⟨work, hwork, hresult⟩ := Option.bind_eq_some_iff.1 h
  obtain ⟨d, hd, rfl⟩ := Option.map_eq_some_iff.1 hwork
  rcases handler_cases hd with ⟨hn, hh⟩ | ⟨hn, hh⟩ | ⟨hn, hn', f, hh⟩
  · rw [hh] at hresult
    exact Or.inl ⟨hn, (Option.some.inj hresult).symm⟩
  · rw [hh] at hresult
    exact Or.inr (Or.inl ⟨hn, (Option.some.inj hresult).symm⟩)
  · rw [hh] at hresult
    exact Or.inr (Or.inr ⟨hn, hn', by rw [← Option.some.inj hresult]⟩)

end Builtins

/-! ## Sequences of calls -/

theorem headings_append (a b : List Call) : headings (a ++ b) = headings a ++ headings b :=
  List.filterMap_append

theorem headings_singleton (c : Call) : headings [c] = c.heading?.toList := by
  cases h : c.heading? <;> simp [headings, h]

section

variable {hs : List Heading} {c : Call} {result : Except HandlerError Text} {next : Context}

/-- A call that makes no heading leaves the records as they are. -/
theorem Records.completes_of_none (h : Records hs c.context) (hh : c.heading? = none)
    (hinvalid : c.name = "heading".toList → ∃ e, result = .error e)
    (htoc : c.name = "toc".toList → result = .ok (Heading.contents hs)) :
    Completes hs c result c.context where
  before := h
  after := by rwa [headings_singleton, hh, Option.toList_none, List.append_nil]
  heading g hg := by
    rw [hh] at hg
    cases hg
  invalid hn _ := ⟨hinvalid hn, rfl⟩
  toc hn := ⟨htoc hn, rfl⟩

/-- **A call keeps the records straight**, and writes what they say. -/
theorem Records.completes (h : Records hs c.context)
    (hanswer : Builtins.table.answer? c = some (result, next))
    (hlt : (hs ++ headings [c]).length < countLimit) : Completes hs c result next := by
  rcases answer?_cases hanswer with ⟨hname, heq⟩ | ⟨hname, heq⟩ | ⟨hname, hname', hnext⟩
  · have htoc : c.name ≠ "toc".toList := by
      rw [hname]
      decide
    cases hh : c.heading? with
    | none =>
      obtain ⟨e, he⟩ := heading_of_none hname hh
      rw [he] at heq
      cases heq
      exact h.completes_of_none hh (fun _ => ⟨e, rfl⟩) fun hn => absurd hn htoc
    | some g =>
      rw [headings_singleton, hh, Option.toList_some] at hlt
      obtain ⟨next', he, hrecords⟩ := h.heading_of_some hname hh hlt
      rw [he] at heq
      cases heq
      refine ⟨h, by rwa [headings_singleton, hh, Option.toList_some], fun g' hg => ?_,
        fun _ hn => ?_, fun hn => absurd hn htoc⟩
      · rw [hh] at hg
        cases hg
        rfl
      · rw [hh] at hn
        cases hn
  · have hne : c.name ≠ "heading".toList := by
      rw [hname]
      decide
    rw [h.toc] at heq
    cases heq
    exact h.completes_of_none (if_neg hne) (fun hn => absurd hn hne) fun _ => rfl
  · obtain rfl : next = c.context := hnext
    exact h.completes_of_none (if_neg hname) (fun hn => absurd hn hname) fun hn => absurd hn hname'

end

/-- **Calls record the headings that they make.** -/
theorem records_of_leads {cs : List Call} {first last : Context} {hs : List Heading}
    (h : Builtins.table.Leads first cs last) (hrecords : Records hs first)
    (hlt : (hs ++ headings cs).length < countLimit) : Records (hs ++ headings cs) last := by
  induction h generalizing hs with
  | refl context => simpa [headings] using hrecords
  | @call c result next last cs hanswer hrest ih =>
    have happ : hs ++ headings (c :: cs) = (hs ++ headings [c]) ++ headings cs := by
      rw [List.append_assoc, ← headings_append, List.singleton_append]
    rw [happ] at hlt ⊢
    refine ih (hrecords.completes hanswer ?_).after hlt
    rw [List.length_append] at hlt
    omega

/-! ## Runs of a session -/

namespace Visit

/-- A visit is over before it calls anything, or evaluates its text with the built-in tags. -/
theorem run_cases (v : Visit) (context : Context) :
    (∃ cause clock, v.run context = ⟨some cause, [], [], context, [], clock⟩) ∨
      v.run context = (Document.parse v.input).evaluatePaced v.pace
        ⟨Builtins.table, v.config, v.watch⟩ context
        { now := v.pace.start, cancelled := v.cancelled } := by
  rcases v.engine.run_halted_or_evaluatePaced v.input context v.hasToken v.cancelled v.cancelAt
    v.cancelsFirst v.pace with ⟨cause, t, h⟩ | ⟨built, hbuilt, h⟩
  · exact Or.inl ⟨cause, _, h⟩
  · cases hbuilt
    exact Or.inr h

/-- A visit hands the context on from call to call. -/
theorem leads (v : Visit) (context : Context) :
    Builtins.table.Leads context (v.run context).calls (v.run context).context := by
  rcases v.run_cases context with ⟨cause, clock, hr⟩ | hr
  · rw [hr]
    exact .refl context
  · rw [hr]
    exact Document.leads_evaluatePaced (s := ⟨Builtins.table, v.config, v.watch⟩)
      Builtins.isPrompt_table

/-- A visit performs the calls of its nodes up to where it ends. -/
theorem exists_performs (v : Visit) (context : Context) :
    ∃ m call, (Document.parse v.input).Performs v.setting (v.start context) (v.run context) m
      call := by
  rcases v.run_cases context with ⟨cause, clock, hr⟩ | hr
  · have hstart := (Document.parse v.input).reaches_zero v.setting (v.start context)
    rw [hr]
    exact ⟨_, hstart.exists_performs (Document.matched_parse v.input) rfl rfl rfl nofun⟩
  · rw [hr]
    exact Document.exists_performs (s := ⟨Builtins.table, v.config, v.watch⟩)
      (Document.matched_parse v.input) Builtins.isPrompt_table {}

/-- A visit that is not over when it starts evaluates its text. -/
theorem run_of_open {v : Visit} (hstart : v.pace.start = 0)
    (hw : v.watch.haltBy? { cancelled := v.cancelled } 0 = none) (context : Context) :
    v.run context = (Document.parse v.input).evaluatePaced v.pace
      ⟨Builtins.table, v.config, v.watch⟩ context { cancelled := v.cancelled } := by
  have hawait : v.watch.await { now := v.pace.start, cancelled := v.cancelled } (some 0) =
      (none, { cancelled := v.cancelled }) := by
    rw [hstart]
    simp only [Watch.await, hw]
  exact Engine.run_of_await_none v.engine v.input context v.hasToken v.cancelled v.cancelAt
    v.cancelsFirst v.pace hawait

section
variable {v : Visit} (h : v.config.timeout ≠ some 0) (context : Context)
include h

/-- A visit is not over when it starts if its token is not cancelled and it has any time at all. -/
theorem haltBy?_of_open (hc : v.watch.isCancelled { cancelled := v.cancelled } = false) :
    v.watch.haltBy? { cancelled := v.cancelled } 0 = none := by
  have he : v.watch.isExpired { cancelled := v.cancelled } = false := by
    show v.config.timeout.any (· ≤ 0) = false
    cases hT : v.config.timeout with
    | none => rfl
    | some T =>
      have hT0 : T ≠ 0 := by
        rintro rfl
        exact h hT
      simpa using hT0
  have hnow := Watch.haltBy?_now v.watch { cancelled := v.cancelled }
  rwa [hc, he] at hnow

/-- A visit in no time of its own, with nobody to cancel it, is completed. -/
theorem halt_undisturbed : (v.undisturbed.run context).halt = none := by
  have hw := haltBy?_of_open (v := v.undisturbed) h rfl
  rw [run_of_open rfl hw]
  exact Document.halt_evaluatePaced Builtins.isPrompt_table hw fun _ _ => rfl

/-- **A visit can be cut short in front of each of its calls**, by another party that cancels it. -/
theorem exists_cut {i : Nat} (hi : i < (v.undisturbed.run context).calls.length) :
    ∃ k, ((v.cutAt k).run context).halt = some .cancelled ∧
      ((v.cutAt k).run context).calls = (v.undisturbed.run context).calls.take i := by
  obtain ⟨m, call, hperforms⟩ := v.undisturbed.exists_performs context
  obtain ⟨p, hp, _, _, hcalls⟩ := hperforms.ends
  rw [hcalls] at hi ⊢
  obtain ⟨k, q, c, hreq, htake⟩ := hp.exists_requires rfl i hi
  have hw := haltBy?_of_open (v := v.cutAt k) h rfl
  obtain ⟨hhalt, hsame⟩ := Document.Requires.evaluatePaced_pauseAt
    (s := ⟨Builtins.table, v.config, (v.cutAt k).watch⟩) Builtins.isPrompt_table hw
    (Watch.haltBy?_now (v.cutAt k).watch (Clock.wait 1 {})) hreq
  refine ⟨k, ?_⟩
  rw [run_of_open rfl hw]
  exact ⟨hhalt, hsame.trans htake⟩

end

end Visit

theorem getElem?_session {visits : List Visit} {i : Nat} {v : Visit} (h : visits[i]? = some v)
    (context : Context) : (session visits context)[i]? =
      some (v.run (contextBehind ((session visits context).take i) context)) := by
  induction visits generalizing i context with
  | nil => cases h
  | cons w visits ih =>
    cases i with
    | zero =>
      cases h
      rfl
    | succ i => exact ih h _

/-- **A session hands one context on** from call to call, across its runs. -/
theorem leads_session (visits : List Visit) (context : Context) :
    Builtins.table.Leads context ((session visits context).flatMap (·.calls))
      (contextBehind (session visits context) context) := by
  induction visits generalizing context with
  | nil => exact .refl context
  | cons v visits ih => exact (v.leads context).trans (ih (v.run context).context)

/-- **Headings and tables of contents agree over a whole session.**  The runs share one context in
which nothing is recorded at first; they may be of any text under any configuration, at any pace, and
each may be cut short by another party or by its deadline.  Left alone, a run with any time at all is
completed, and it can be cut short in front of each of its calls.  A run performs the calls of its
nodes in their order up to where it ends, so that what stands inside a pair is called before the pair
is, and leaves the output and the context that there are at that node.  Every call of the session, as
long as there are fewer than `countLimit` headings, finds recorded just the headings that the calls
before it made, leaves its own recorded behind them for the next call, and writes what is recorded;
and the session leaves recorded what its calls made. -/
theorem session_headings (visits : List Visit) (context : Context)
    (hcount : context.get? countKey = none) (hlist : context.get? listKey = none) :
    let reports := session visits context
    let calls := reports.flatMap (·.calls)
    let last := contextBehind reports context
    (∀ v ∈ visits, v.config.timeout ≠ some 0 → ∀ given,
      (v.undisturbed.run given).halt = none ∧
      ∀ i < (v.undisturbed.run given).calls.length, ∃ k,
        ((v.cutAt k).run given).halt = some .cancelled ∧
        ((v.cutAt k).run given).calls = (v.undisturbed.run given).calls.take i) ∧
    (∀ (i : Nat) (v : Visit), visits[i]? = some v → ∃ r m call, reports[i]? = some r ∧
      (Document.parse v.input).Performs v.setting
        (v.start (contextBehind (reports.take i) context)) r m call ∧
      ∀ a b k c c', (Document.parse v.input).Pair a b → k < b → b < m → call k = some c →
        call b = some c' → ∃ t, tagAt (Document.parse v.input).nodes a = some t ∧
          c'.site = t.site ∧ [c, c'].Sublist r.calls) ∧
    (∀ before c after, calls = before ++ c :: after →
      (headings (before ++ [c])).length < countLimit →
      ∃ result next, Builtins.table.answer? c = some (result, next) ∧
        next = (after.head?.map (·.context)).getD last ∧
        Completes (headings before) c result next) ∧
    ((headings calls).length < countLimit → Records (headings calls) last) := by
  intro reports calls last
  have hleads : Builtins.table.Leads context calls last := leads_session visits context
  have hrecords : Records [] context := .empty hcount hlist
  refine ⟨fun v _ h given => ⟨Visit.halt_undisturbed h given,
      fun i hi => Visit.exists_cut h given hi⟩, fun i v hv => ?_,
    fun before c after hcalls hlt => ?_, fun hlt => ?_⟩
  · obtain ⟨m, call, hperforms⟩ := v.exists_performs (contextBehind (reports.take i) context)
    refine ⟨_, m, call, getElem?_session hv context, hperforms, ?_⟩
    intro a b k c c' hpair hkb hbm hc hc'
    exact hperforms.inner_first (Document.matched_parse v.input) hpair hkb hbm hc hc'
  · rw [hcalls] at hleads
    obtain ⟨given, hbefore, hrest⟩ := hleads.exists_of_append
    cases hrest with
    | @call _ result next _ _ hanswer hafter =>
      rw [headings_append] at hlt
      have hfound : Records (headings before) c.context := by
        refine records_of_leads hbefore hrecords ?_
        rw [List.length_append] at hlt
        rw [List.nil_append]
        omega
      exact ⟨result, next, hanswer, hafter.first_eq, hfound.completes hanswer hlt⟩
  · exact records_of_leads hleads hrecords hlt

/-- A run that another party cancels behind its first heading, one that is out of time behind a
heading, a heading of an invalid level and a table of contents, and a run that is completed, with a
heading and a table of contents inside another heading; all over one context. -/
theorem session_headings_cut_short :
    let visits : List Visit := [
      { input := "[heading]A[/heading][heading]B[/heading][toc/]".toList
        hasToken := true, cancelAt := some 5, pace := { node := fun _ => 1 } },
      { input := "[heading 3]C[/heading][heading 9/][toc/][heading]D[/heading]".toList
        config := { timeout := some 8 }, pace := { node := fun _ => 1 } },
      { input := "[heading]E[heading]F[/heading][toc/][/heading]".toList }]
    let reports := session visits .empty
    let calls := reports.flatMap (·.calls)
    let a : Heading := ⟨2, ['A']⟩
    let c : Heading := ⟨3, ['C']⟩
    let inner : Heading := ⟨2, ['F']⟩
    let outer : Heading := ⟨2, 'E' :: (inner.written 3 ++ Heading.contents [a, c, inner])⟩
    Context.empty.get? countKey = none ∧ Context.empty.get? listKey = none ∧
      reports.map (·.halt) = [some .cancelled, some .timedOut, none] ∧
      reports.map (·.output) = [a.written 1 ++ "[heading]B".toList,
        c.written 2 ++ Heading.contents [a, c] ++ "[heading]D".toList, outer.written 4] ∧
      headings calls = [a, c, inner, outer] ∧
      Records [a, c, inner, outer] (contextBehind reports .empty) ∧
      ∃ call result next, calls[3]? = some call ∧ call.name = "toc".toList ∧
        Builtins.table.answer? call = some (result, next) ∧ Completes [a, c] call result next := by
  intro visits reports calls a c inner outer
  have hmade : headings calls = [a, c, inner, outer] := by decide +kernel
  have hlength : 3 < calls.length := by decide +kernel
  obtain ⟨_, _, hcalls, hlast⟩ := session_headings visits .empty rfl rfl
  have hsplit : calls = calls.take 3 ++ calls[3] :: calls.drop 4 := by
    rw [← List.drop_eq_getElem_cons hlength, List.take_append_drop]
  have hbefore : headings (calls.take 3) = [a, c] := by decide +kernel
  have hfewer : (headings (calls.take 3 ++ [calls[3]])).length < countLimit := by
    rw [← List.take_succ_eq_append_getElem hlength]
    decide +kernel
  have htoc : calls[3].name = "toc".toList := by
    have hname : calls[3]?.map (·.name) = some "toc".toList := by decide +kernel
    rwa [List.getElem?_eq_getElem hlength, Option.map_some, Option.some.injEq] at hname
  obtain ⟨result, next, hanswer, _, hcompletes⟩ := hcalls _ _ _ hsplit hfewer
  rw [hbefore] at hcompletes
  refine ⟨rfl, rfl, by decide +kernel, by decide +kernel, hmade, ?_, _, result, next,
    List.getElem?_eq_getElem hlength, htoc, hanswer, hcompletes⟩
  rw [← hmade]
  exact hlast (by decide +kernel)

end Tagtext
