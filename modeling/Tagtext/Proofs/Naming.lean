import Tagtext.Proofs.Concat
import Tagtext.Proofs.Editing
import Tagtext.Proofs.Grammar
import Tagtext.Proofs.Reach
import Tagtext.Proofs.Recognition

/-!
# Names that tags can have

Three readers look for a name: the scanner in front of a marker, the scanner at
the start of one, and the reader of a tag.  `isTagName` decides for all of them
without a document.  It holds of a text just if the text in brackets is one
opening tag of this name, and of the name of every tag of every document:

    isTagName s = true ↔ (Document.parse (bracketed s)).IsLoneTag s  (isTagName_iff_isLoneTag)
    .tag t partner ∈ (Document.parse input).nodes → isTagName t.name = true
                                                                    (isTagName_of_mem_parse)

A run asks the table for names of tags only (`evaluate_congr`), so what a table
says about any other text is not seen by any run.  A store leaves out the
templates whose names no tag can have: of those that stay each one can be called
by its name in brackets, and no run can tell that the others are gone.
-/

namespace Tagtext

/-- A text in brackets: what authoring tools insert for a name if there is nothing better. -/
def bracketed (name : Text) : Text := '[' :: (name ++ [']'])

/-- The document is one opening tag of this name, without arguments and without partner. -/
def Document.IsLoneTag (d : Document) (name : Text) : Prop :=
  ∃ t, d.nodes = [.tag t none] ∧ t.kind = .opening ∧ t.name = name ∧ t.arguments = []

/-- Two tables answer alike to the names that tags can have. -/
def Table.Alike (t t' : Table) : Prop := ∀ n, isTagName n = true → t.get? n = t'.get? n

/-- Authors reach a template by its name in brackets. -/
structure Template.Reachable (t : Template) (render : Renderer) : Prop where
  /-- It is what authoring tools insert, unless the template has a snippet. -/
  inserted : t.metadata.snippet = none → (t.descriptor render).defaultShortcode = bracketed t.name
  tag : (Document.parse (bracketed t.name)).IsLoneTag t.name
  /-- Where the name belongs to the template, and an opening tag without partner is called at all, it
  is one call of the template. -/
  called : ∀ (s : Setting) (context : Context) (clock : Clock),
    s.table.get? t.name = some (t.descriptor render) → s.config.unclosed = .standalone →
    s.watch.haltBy? clock clock.now = none →
    let r := evaluate s (bracketed t.name) context clock
    r.halt = none ∧ r.calls = [⟨t.name, [], [], context, 0⟩] ∧ r.context = context ∧
      r.output = s.config.written ((render t.content (t.model [] [] context)).mapError .template)

/-- No run of any document calls this name, whatever the table says about it. -/
def IsUncallable (name : Text) : Prop :=
  ∀ (s : Setting) (input : Text) (context : Context) (clock : Clock),
    ∀ c ∈ (evaluate s input context clock).calls, c.name ≠ name

/-! ## Names of tags -/

theorem Tag.isTagName_of_parse {raw : Text} {start : Nat} {t : Tag}
    (h : parse raw start = .ok t) : isTagName t.name = true := by
  cases parse_eq_iff.1 h with
  | closing hraw hcloser => exact hcloser.1
  | other hreads =>
    obtain ⟨rest, body, hopens, _⟩ := hreads
    exact hopens.isTagName

/-- **Every tag of a document has a name that tags can have.** -/
theorem isTagName_of_mem_parse {input : Text} {t : Tag} {partner : Option Nat}
    (h : .tag t partner ∈ (Document.parse input).nodes) : isTagName t.name = true := by
  have hmem : .tag t none ∈ (scan input).map Node.ofSegment := by
    rw [← Document.map_unmatched_parse]
    exact List.mem_map.2 ⟨_, h, rfl⟩
  obtain ⟨x, _, hx⟩ := List.mem_map.1 hmem
  cases x with
  | literal u => cases hx
  | malformed raw e => cases hx
  | marker raw start =>
    rw [Node.ofSegment] at hx
    split at hx
    · next g hg =>
      cases hx
      exact Tag.isTagName_of_parse hg
    · cases hx

theorem scan_bracketed {name : Text} (h : isTagName name = true) :
    scan (bracketed name) = [.marker (bracketed name) 0] := by
  have hhead : Head ([] ++ ']' :: []) ('[' :: name) :=
    .opening h fun c hc => by cases hc; decide
  exact scanFrom_eq_iff.2 (.marker (.complete hhead .nil) (.nil _))

theorem Tag.parse_bracketed {name : Text} (h : isTagName name = true) (start : Nat) :
    parse (bracketed name) start = .ok ⟨name, .opening, [], bracketed name, start⟩ := by
  have hends : endsName [] = true := rfl
  refine (parse_name h hends start).trans ?_
  rw [show (splitSlash (trimEnd [])).1 = [] from rfl, Arguments.lex.eq_def]
  rfl

/-- A name in brackets is read as one tag. -/
theorem Document.parse_bracketed {name : Text} (h : isTagName name = true) :
    (parse (bracketed name)).nodes = [.tag ⟨name, .opening, [], bracketed name, 0⟩ none] := by
  rw [parse, scan_bracketed h, List.map_singleton, Node.ofSegment, Tag.parse_bracketed h]
  rfl

/-- **A text is a name just if it is one tag of this name in brackets.** -/
theorem isTagName_iff_isLoneTag (s : Text) :
    isTagName s = true ↔ (Document.parse (bracketed s)).IsLoneTag s := by
  constructor
  · intro h
    exact ⟨_, Document.parse_bracketed h, rfl, rfl, rfl⟩
  · rintro ⟨t, hnodes, -, rfl, -⟩
    have hmem : .tag t none ∈ (Document.parse (bracketed t.name)).nodes := by
      rw [hnodes]
      exact List.mem_singleton_self _
    exact isTagName_of_mem_parse hmem

/-! ## What a run asks the table -/

/-- One of the tags of a document. -/
def Document.Holds (d : Document) (t : Tag) : Prop := ∃ n ∈ d.nodes, n.tag? = some t

theorem Effects.invoke_congr {s : Setting} {table : Table} {tag : Tag}
    (h : table.get? tag.name = s.table.get? tag.name) (content fallback : Text) (e : Effects) :
    e.invoke { s with table } tag content fallback = e.invoke s tag content fallback := by
  simp only [invoke, h]

namespace Pass

section
variable {s : Setting} {table : Table} {i : Nat} {n : Node} {p : Pass}

/-- A step asks the table for the tag it calls, if it calls one. -/
theorem step_congr (h : ∀ t, Calls s i p n t → table.get? t.name = s.table.get? t.name) :
    p.step { s with table } i n = p.step s i n := by
  have ht := takes_step s i n p
  generalize p.step s i n = r at ht ⊢
  cases ht with
  | kept n hlt => exact step_kept hlt n
  | text t hle => exact step_text hle t
  | malformed raw e hle => exact step_malformed hle raw e
  | alone tag partner hle hk =>
    rw [step_alone hle hk partner]
    simp only [standalone, Effects.invoke_congr (h tag (.alone tag partner hle hk))]
  | deep tag close hle hk hd => exact step_deep (s := { s with table }) hle hk hd close
  | opened tag close hle hk hd => exact step_opened (s := { s with table }) hle hk hd close
  | unclosed tag hle hk hu =>
    rw [step_unclosed (s := { s with table }) hle hk hu]
    simp only [standalone, Effects.invoke_congr (h tag (.unclosed tag hle hk hu))]
  | stays tag hle hk hu => exact step_stays (s := { s with table }) hle hk hu
  | closed tag f fs hle hk hf =>
    rw [step_closed hle hk hf]
    simp only [close, Effects.invoke_congr (h f.opener (.closed tag f fs hle hk hf))]
  | orphan tag partner hle hk hf => exact step_orphan hle hk partner hf

/-- A walk asks the table for tags that it comes by or that stand open. -/
theorem walk_congr {nodes : List Node} : ∀ {i : Nat} {p : Pass},
    (∀ n ∈ nodes, ∀ t, n.tag? = some t → table.get? t.name = s.table.get? t.name) →
    (∀ t ∈ p.stack.openers, table.get? t.name = s.table.get? t.name) →
    walk { s with table } i nodes p = walk s i nodes p := by
  induction nodes with
  | nil => exact fun _ _ => rfl
  | cons n rest ih =>
    intro i p hnodes hopen
    have hn := hnodes n List.mem_cons_self
    have hstep : p.step { s with table } i n = p.step s i n :=
      step_congr fun t ht => ht.of_openers.elim (hn t) (hopen t)
    cases hs : p.step s i n with
    | error stopped => rw [walk_cons_of_error hs, walk_cons_of_error (hstep.trans hs)]
    | ok q =>
      rw [walk_cons_of_ok hs, walk_cons_of_ok (hstep.trans hs)]
      exact ih (fun m hm => hnodes m (List.mem_cons_of_mem n hm))
        fun t ht => (openers_of_step hs t ht).elim (hopen t) (hn t)

end

end Pass

namespace Document

section
variable {d : Document} {s : Setting} {context : Context} {clock : Clock}

/-- **A run asks the table for names of tags only.** -/
theorem evaluate_congr {table : Table}
    (h : ∀ t, d.Holds t → table.get? t.name = s.table.get? t.name) :
    d.evaluate { s with table } context clock = d.evaluate s context clock := by
  rw [evaluate_eq_walk, evaluate_eq_walk,
    Pass.walk_congr (fun n hn t ht => h t ⟨n, hn, ht⟩) (by simp [Stack.empty, Stack.openers])]

/-- What stands open is a tag of the document, and so is what was called. -/
structure HoldsAll (d : Document) (p : Pass) : Prop where
  openers : ∀ t ∈ p.stack.openers, d.Holds t
  calls : ∀ c ∈ p.effects.calls, ∃ t, d.Holds t ∧ t.name = c.name

theorem HoldsAll.needs {k : Nat} {n : Node} {p : Pass} {c : Call} (h : d.HoldsAll p)
    (hn : d.nodes[k]? = some n) (hc : p.Needs s k n c) : ∃ t, d.Holds t ∧ t.name = c.name := by
  obtain ⟨t, hcalls, _, rfl⟩ := hc
  refine ⟨t, ?_, rfl⟩
  rcases hcalls.of_openers with ht | ht
  · exact ⟨n, List.mem_of_getElem? hn, ht⟩
  · exact h.openers t ht

/-- Calls stay those of tags when one more is added. -/
theorem HoldsAll.calls_concat {k : Nat} {n : Node} {p q : Pass} {c : Call} (h : d.HoldsAll p)
    (hn : d.nodes[k]? = some n) (hc : p.Needs s k n c)
    (hq : q.effects.calls = p.effects.calls ++ [c]) :
    ∀ c ∈ q.effects.calls, ∃ t, d.Holds t ∧ t.name = c.name := by
  intro c' hmem
  rw [hq, List.mem_append, List.mem_singleton] at hmem
  rcases hmem with hmem | rfl
  · exact h.calls c' hmem
  · exact h.needs hn hc

theorem HoldsAll.step {k : Nat} {n : Node} {p q : Pass} (h : d.HoldsAll p)
    (hn : d.nodes[k]? = some n) (hs : p.step s k n = .ok q) : d.HoldsAll q := by
  have hopeners : ∀ t ∈ q.stack.openers, d.Holds t := fun t ht =>
    (Pass.openers_of_step hs t ht).elim (h.openers t) fun ht => ⟨n, List.mem_of_getElem? hn, ht⟩
  have hdoes := Pass.does_step s k n p
  rw [hs] at hdoes
  cases hdoes with
  | quiet hquiet hcontext hclock hcalls => exact ⟨hopeners, by rw [hcalls]; exact h.calls⟩
  | finished c work result hc hwork hw hp hcalls hstack =>
    exact ⟨hopeners, h.calls_concat hn hc hcalls⟩

theorem Reaches.holdsAll {k : Nat} {p : Pass} (h : d.Reaches s ⟨context, clock, [], []⟩ k p) :
    d.HoldsAll p :=
  (d.reaches_zero s _).induct (I := fun _ p => d.HoldsAll p)
    ⟨by simp [Stack.empty, Stack.openers], fun _ hc => by cases hc⟩
    (fun _ _ _ _ _ _ hn hp hs => hp.step hn hs) (Nat.zero_le k) h

/-- **What is called in a run is a tag of the document**, however the run ends. -/
theorem exists_holds_of_mem_calls {c : Call} (hc : c ∈ (d.evaluate s context clock).calls) :
    ∃ t, d.Holds t ∧ t.name = c.name := by
  rcases d.evaluate_cases s context clock with ⟨q, hq, hr⟩ | ⟨k, p, cause, q, hstops, hr⟩
  · rw [hr] at hc
    exact hq.holdsAll.calls c hc
  · rw [hr] at hc
    have hp := hstops.reaches.holdsAll
    obtain ⟨n, hn, hs⟩ := hstops.step
    have hdoes := Pass.does_step s k n p
    rw [hs] at hdoes
    cases hdoes with
    | refused c' cause t hneeds hw hcontext hclock hcalls =>
      exact hp.calls c (by rw [← hcalls]; exact hc)
    | abandoned c' work cause hneeds hwork hw hproceed hcalls =>
      exact hp.calls_concat hn hneeds hcalls c hc

end

end Document

/-- A run asks for names that tags can have. -/
theorem isTagName_of_holds {input : Text} {t : Tag} (h : (Document.parse input).Holds t) :
    isTagName t.name = true := by
  obtain ⟨n, hn, ht⟩ := h
  cases n with
  | text u => cases ht
  | malformed raw e => cases ht
  | tag t' partner =>
    cases ht
    exact isTagName_of_mem_parse hn

/-- **Runs tell tables apart by names that tags can have only.** -/
theorem evaluate_of_alike {table table' : Table} (h : table.Alike table') (config : Config)
    (watch : Watch) (input : Text) (context : Context) (clock : Clock) :
    evaluate ⟨table, config, watch⟩ input context clock =
      evaluate ⟨table', config, watch⟩ input context clock :=
  Document.evaluate_congr (s := ⟨table', config, watch⟩) fun t ht => h t.name (isTagName_of_holds ht)

/-! ## What a store leaves out -/

namespace Table

variable {t t' : Table}

theorem Alike.refuses (h : t.Alike t') {d : Descriptor} (hd : isTagName d.name = true) :
    t.refuses d = t'.refuses d := by
  rw [Table.refuses, Table.refuses, h d.name hd]

theorem Alike.insert (h : t.Alike t') (d : Descriptor) : (t.insert d).2.Alike (t'.insert d).2 := by
  intro n hn
  rw [get?_insert, get?_insert, h n hn]
  by_cases hnd : n = d.name
  · rw [h.refuses (hnd ▸ hn)]
  · simp [hnd]

/-- A descriptor that no tag can name changes nothing for names that tags can have. -/
theorem Alike.insert_left (h : t.Alike t') {d : Descriptor} (hd : isTagName d.name = false) :
    (t.insert d).2.Alike t' := by
  intro n hn
  have hnd : n ≠ d.name := by
    rintro rfl
    rw [hd] at hn
    cases hn
  rw [get?_insert, if_neg fun hand => hnd hand.1, h n hn]

theorem Alike.insertAll (h : t.Alike t') (ds : List Descriptor) :
    (t.insertAll ds).Alike (t'.insertAll ds) := by
  induction ds generalizing t t' with
  | nil => exact h
  | cons d ds ih => exact ih (h.insert d)

theorem Alike.insertAll_filter (h : t.Alike t') (ds : List Descriptor) :
    (t.insertAll ds).Alike (t'.insertAll (ds.filter fun d => isTagName d.name)) := by
  induction ds generalizing t t' with
  | nil => exact h
  | cons d ds ih =>
    by_cases hd : isTagName d.name = true
    · rw [List.filter_cons, if_pos hd]
      exact ih (h.insert d)
    · rw [List.filter_cons, if_neg hd]
      exact ih (h.insert_left (Bool.eq_false_iff.2 hd))

end Table

namespace TemplateStore

variable (s : TemplateStore) (render : Renderer)

theorem descriptors_eq_filter : s.descriptors render =
    (s.templates.map (·.descriptor render)).filter fun d => isTagName d.name := by
  rw [List.filter_map]
  rfl

theorem mem_descriptors_iff {t : Template} (h : t ∈ s.templates) :
    t.descriptor render ∈ s.descriptors render ↔ isTagName t.name = true := by
  rw [descriptors_eq_filter, List.mem_filter]
  exact and_iff_right (List.mem_map.2 ⟨t, h, rfl⟩)

/-- No run can tell whether a store offers the templates that no tag can name. -/
theorem alike_descriptors (before after : List Descriptor) :
    (Table.empty.insertAll (before ++ s.templates.map (·.descriptor render) ++ after)).Alike
      (Table.empty.insertAll (before ++ s.descriptors render ++ after)) := by
  rw [Table.insertAll_append, Table.insertAll_append, Table.insertAll_append,
    Table.insertAll_append, descriptors_eq_filter]
  exact Table.Alike.insertAll (Table.Alike.insertAll_filter (fun _ _ => rfl) _) after

/-- Of the templates of a name the store's table has the last one. -/
theorem exists_last? {t : Template} (h : t ∈ s.templates) :
    ∃ u ∈ s.templates, u.name = t.name ∧ s.last? t.name = some u := by
  have hmem : t ∈ s.withName t.name := List.mem_filter.2 ⟨h, beq_self_eq_true _⟩
  have hlast := List.getLast?_eq_some_getLast (List.ne_nil_of_mem hmem)
  obtain ⟨hu, hname⟩ := List.mem_filter.1 (List.mem_of_getLast? hlast)
  exact ⟨_, hu, beq_iff_eq.1 hname, hlast⟩

end TemplateStore

/-! ## A name in brackets -/

section
variable {t : Template} {render : Renderer} (hname : isTagName t.name = true)
include hname

/-- A name in brackets is one call of the template that the name belongs to. -/
theorem evaluate_bracketed {s : Setting} {context : Context} {clock : Clock}
    (ht : s.table.get? t.name = some (t.descriptor render))
    (hunclosed : s.config.unclosed = .standalone)
    (hwatch : s.watch.haltBy? clock clock.now = none) :
    let r := evaluate s (bracketed t.name) context clock
    r.halt = none ∧ r.calls = [⟨t.name, [], [], context, 0⟩] ∧ r.context = context ∧
      r.output = s.config.written
        ((render t.content (t.model [] [] context)).mapError .template) := by
  intro r
  let tag : Tag := ⟨t.name, .opening, [], bracketed t.name, 0⟩
  let p : Pass := (⟨.empty, ⟨context, clock, [], []⟩, 0⟩ : Pass).report
    (.parse (.unclosedTag tag.name tag.start))
  obtain ⟨e, hinvoke, hcalls, hcontext⟩ : ∃ e, p.effects.invoke s tag [] tag.raw =
      (.ok (s.config.written ((render t.content (t.model [] [] context)).mapError .template)), e) ∧
      e.calls = [⟨t.name, [], [], context, 0⟩] ∧ e.context = context := by
    have hhandler : (t.descriptor render).handler tag.arguments [] p.effects.context = _ :=
      t.handler_eq render [] [] context
    cases hr : render t.content (t.model [] [] context) with
    | ok out =>
      rw [hr] at hhandler
      have hcomes : Effects.Comes s tag [] tag.raw p.effects _ :=
        .answered _ out context (clock.note false) ht hwatch (by rw [hhandler]; rfl)
      exact ⟨_, hcomes.invoke_eq, rfl, rfl⟩
    | error err =>
      rw [hr] at hhandler
      have hcomes : Effects.Comes s tag [] tag.raw p.effects _ :=
        .failed _ (.template err) context (clock.note false) ht hwatch (by rw [hhandler]; rfl)
      exact ⟨_, hcomes.invoke_eq, rfl, rfl⟩
  obtain ⟨q, hq, heffects, hstack⟩ := Pass.exists_standalone_of_invoke hinvoke
  have hwalk : Pass.walk s 0 (Document.parse (bracketed t.name)).nodes
      ⟨.empty, ⟨context, clock, [], []⟩, 0⟩ = .ok q := by
    rw [Document.parse_bracketed hname]
    exact Pass.walk_cons_of_ok ((Pass.step_unclosed (Nat.zero_le 0) rfl hunclosed).trans hq) []
  have hr : r = q.toReport none := Document.evaluate_of_walk hwalk
  rw [hr]
  refine ⟨rfl, ?_, ?_, ?_⟩
  · rw [← hcalls, ← heffects]
    rfl
  · rw [← hcontext, ← heffects]
    rfl
  · show q.stack.unwind = _
    rw [hstack, Stack.unwind_emit]
    rfl

/-- **A template whose name tags can have is reached by it.** -/
theorem Template.reachable (render : Renderer) : t.Reachable render where
  inserted hsnippet := by
    simp only [Template.descriptor, Descriptor.defaultShortcode, hsnippet]
    rfl
  tag := (isTagName_iff_isLoneTag t.name).1 hname
  called _ _ _ ht hunclosed hwatch := evaluate_bracketed hname ht hunclosed hwatch

end

/-- **A name that tags cannot have is never called.** -/
theorem isUncallable {name : Text} (h : isTagName name = false) : IsUncallable name := by
  rintro s input context clock c hc rfl
  obtain ⟨t, ht, hname⟩ := Document.exists_holds_of_mem_calls hc
  rw [← hname, isTagName_of_holds ht] at h
  cases h

/-- **The validator says which names tags have.**  A text is a name just if it is, in brackets, one
opening tag of this name without arguments and without partner, and every tag of every document has
a name.  Of the templates of a store, those that are offered are reached by their names in brackets,
and the store's table answers to such a name with the last template that has it; those that are left
out could be called by no document, and no run can tell that they are left out, whatever else there
is in front of them and behind them in the table. -/
theorem names_of_tags (store : TemplateStore) (render : Renderer) :
    (∀ s, isTagName s = true ↔ (Document.parse (bracketed s)).IsLoneTag s) ∧
    (∀ input t partner, .tag t partner ∈ (Document.parse input).nodes →
      isTagName t.name = true) ∧
    (∀ t ∈ store.templates, t.descriptor render ∈ store.descriptors render →
      t.Reachable render ∧ ∃ u ∈ store.templates, u.name = t.name ∧
        store.last? t.name = some u ∧
        ∀ context, (store.table render context).get? t.name = some (u.descriptor render)) ∧
    (∀ t ∈ store.templates, t.descriptor render ∉ store.descriptors render →
      IsUncallable t.name) ∧
    ∀ (before after : List Descriptor) (config : Config) (watch : Watch) (input : Text)
      (context : Context) (clock : Clock),
      let offered := Table.empty.insertAll (before ++ store.descriptors render ++ after)
      let all := Table.empty.insertAll
        (before ++ store.templates.map (·.descriptor render) ++ after)
      evaluate ⟨offered, config, watch⟩ input context clock =
        evaluate ⟨all, config, watch⟩ input context clock := by
  refine ⟨isTagName_iff_isLoneTag, fun _ _ _ h => isTagName_of_mem_parse h, fun t ht hoffered => ?_,
    fun t ht hskipped => ?_, fun before after config watch input context clock => ?_⟩
  · have hname := (store.mem_descriptors_iff render ht).1 hoffered
    obtain ⟨u, hu, huname, hlast⟩ := store.exists_last? ht
    refine ⟨Template.reachable hname render, u, hu, huname, hlast, fun context => ?_⟩
    rw [TemplateStore.get?_table, if_pos hname, hlast]
    rfl
  · rw [store.mem_descriptors_iff render ht] at hskipped
    exact isUncallable (Bool.eq_false_iff.2 hskipped)
  · exact (evaluate_of_alike (store.alike_descriptors render before after) config watch input context
      clock).symm

/-- A store with a template that is offered and one whose name holds a bracket. -/
theorem names_of_tags_bracket :
    let t : Template := ⟨"a-1".toList, "x".toList, {}⟩
    let u : Template := ⟨"a]b".toList, "y".toList, {}⟩
    let render : Renderer := fun content _ => .ok content
    let store : TemplateStore := ⟨[t, u]⟩
    let s : Setting := ⟨store.table render .empty, {}, {}⟩
    t.descriptor render ∈ store.descriptors render ∧
      u.descriptor render ∉ store.descriptors render ∧
      (evaluate s "[a-1]".toList .empty).calls = [⟨"a-1".toList, [], [], .empty, 0⟩] ∧
      (evaluate s "[a-1]".toList .empty).output = "x".toList ∧ IsUncallable "a]b".toList := by
  intro t u render store s
  have ht : t.descriptor render ∈ store.descriptors render :=
    (store.mem_descriptors_iff render (by simp [store])).2 (by decide)
  have hu : u.descriptor render ∉ store.descriptors render := by
    rw [store.mem_descriptors_iff render (by simp [store])]
    decide
  obtain ⟨-, -, hkept, hskipped, -⟩ := names_of_tags store render
  obtain ⟨hreach, v, hv, hvname, -, hget⟩ := hkept t (by simp [store]) ht
  have htable : s.table.get? t.name = some (t.descriptor render) := by
    rw [hget .empty]
    rcases List.mem_pair.1 hv with rfl | rfl
    · rfl
    · cases hvname
  obtain ⟨-, hcalls, -, houtput⟩ := hreach.called s .empty {} htable rfl (by decide)
  exact ⟨ht, hu, hcalls, houtput, hskipped u (by simp [store]) hu⟩

end Tagtext
