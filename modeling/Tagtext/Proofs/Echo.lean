import Tagtext.Proofs.Step

/-!
# What is not called is kept

A pass *echoes* a text when all it has put out, the opening tags of open pairs
included, is that text word for word, and it has called nothing.  Each way of
passing a node over adds the node as it is written; so a document none of whose
names the table answers to comes out as it went in, whatever the token, the
deadline and the configuration.

    p echoes w → p.step s i n = .ok q → q echoes w ++ n.raw,
      if the step calls no known tag                                (exists_echoes_of_uncalled)
    (evaluate s input context clock).output = input               (evaluate_of_unknown)
-/

namespace Tagtext

namespace Pass

/-- All that `p` has put out is `written`, and nothing was called since `start`. -/
structure Echoes (start : Effects) (written : Text) (p : Pass) : Prop where
  unwind : p.stack.unwind = written
  context : p.effects.context = start.context
  clock : p.effects.clock = start.clock
  calls : p.effects.calls = start.calls

namespace Echoes

variable {start : Effects} {written : Text} {p : Pass}

theorem emit (h : Echoes start written p) (t : Text) : Echoes start (written ++ t) (p.emit t) :=
  ⟨by rw [stack_emit, Stack.unwind_emit, h.unwind], h.context, h.clock, h.calls⟩

theorem report (h : Echoes start written p) (d : Diagnostic) : Echoes start written (p.report d) :=
  ⟨h.unwind, h.context, h.clock, h.calls⟩

theorem push (h : Echoes start written p) (i : Nat) (tag : Tag) :
    Echoes start (written ++ tag.raw) { p with stack := p.stack.push i tag } :=
  ⟨by rw [Stack.unwind_push, h.unwind], h.context, h.clock, h.calls⟩

/-- An unknown pair is put together again from its tags and what stands between them. -/
theorem close (h : Echoes start written p) {f : Frame} {fs : List Frame}
    (hf : p.stack.frames = f :: fs) (closer : Tag) :
    Echoes start (written ++ closer.raw)
      ({ p with stack := p.stack.pop }.emit (f.opener.raw ++ f.buffer ++ closer.raw)) := by
  refine ⟨?_, h.context, h.clock, h.calls⟩
  rw [stack_emit, Stack.unwind_emit, ← h.unwind, Stack.unwind_of_frames hf]
  simp only [List.append_assoc]

end Echoes

/-! ## Unknown names -/

section
variable {s : Setting} {start : Effects}

theorem standalone_of_unknown {tag : Tag} (h : s.table.get? tag.name = none) (p : Pass) :
    p.standalone s tag =
      .ok ((p.report (.unresolved tag.name tag.start)).emit tag.raw) := by
  unfold standalone
  rw [Effects.invoke_of_unknown h]
  rfl

theorem close_of_unknown {f : Frame} (h : s.table.get? f.opener.name = none) (closer : Tag)
    (p : Pass) :
    p.close s f closer = .ok ((({ p with stack := p.stack.pop } : Pass).report
      (.unresolved f.opener.name f.opener.start)).emit
        (f.opener.raw ++ f.buffer ++ closer.raw)) := by
  unfold close
  rw [Effects.invoke_of_unknown h]
  rfl

/-- A step that calls no known tag puts out the node as it is written. -/
theorem exists_echoes_of_uncalled {written : Text} {p : Pass} {n : Node} {i : Nat}
    (h : Echoes start written p) (hcall : ∀ t, Calls s i p n t → s.table.get? t.name = none) :
    ∃ q, p.step s i n = .ok q ∧ Echoes start (written ++ n.raw) q := by
  have ht := takes_step s i n p
  generalize p.step s i n = r at ht
  cases ht with
  | kept n hlt => exact ⟨_, rfl, h.emit _⟩
  | text t hle => exact ⟨_, rfl, h.emit _⟩
  | malformed raw e hle => exact ⟨_, rfl, (h.report _).emit _⟩
  | alone tag partner hle hk =>
    rw [standalone_of_unknown (hcall tag (.alone tag partner hle hk))]
    exact ⟨_, rfl, (h.report _).emit _⟩
  | deep tag close hle hk hd =>
    have he := (h.report
      (.parse (.nestingTooDeep tag.name tag.start s.config.maxNestingDepth))).emit tag.raw
    exact ⟨_, rfl, he.unwind, he.context, he.clock, he.calls⟩
  | opened tag close hle hk hd => exact ⟨_, rfl, h.push i tag⟩
  | unclosed tag hle hk hu =>
    rw [standalone_of_unknown (hcall tag (.unclosed tag hle hk hu))]
    exact ⟨_, rfl, ((h.report _).report _).emit _⟩
  | stays tag hle hk hu => exact ⟨_, rfl, (h.report _).emit _⟩
  | closed tag f fs hle hk hf =>
    rw [close_of_unknown (hcall f.opener (.closed tag f fs hle hk hf))]
    have he := h.close hf tag
    exact ⟨_, rfl, he.unwind, he.context, he.clock, he.calls⟩
  | orphan tag partner hle hk hf => exact ⟨_, rfl, h.emit _⟩

/-- What is called is the tag of the node or that of an open pair. -/
theorem Calls.of_openers {p : Pass} {n : Node} {i : Nat} {tag : Tag} (h : Calls s i p n tag) :
    n.tag? = some tag ∨ tag ∈ p.stack.openers := by
  cases h with
  | alone tag partner hle hk => exact Or.inl rfl
  | unclosed tag hle hk hu => exact Or.inl rfl
  | closed tag f fs hle hk hf =>
    rw [Stack.openers, hf]
    exact Or.inr List.mem_cons_self

/-- What stands open behind a step stood open in front of it, or is the tag of the node. -/
theorem openers_of_step {p q : Pass} {n : Node} {i : Nat} (h : p.step s i n = .ok q) :
    ∀ t ∈ q.stack.openers, t ∈ p.stack.openers ∨ n.tag? = some t := by
  intro t hmem
  have ht := takes_step s i n p
  generalize p.step s i n = r at ht h
  cases ht with
  | opened tag close hle hk hd =>
    cases h
    rw [Stack.openers_push] at hmem
    rcases List.mem_cons.1 hmem with rfl | hmem
    · exact Or.inr rfl
    · exact Or.inl hmem
  | closed tag f fs hle hk hf =>
    obtain ⟨out, e, _, rfl⟩ := exists_of_close_ok h
    rw [stack_emit, Stack.openers_emit, Stack.openers_pop] at hmem
    exact Or.inl (List.mem_of_mem_tail hmem)
  | alone tag partner hle hk =>
    obtain ⟨out, e, _, rfl⟩ := exists_of_standalone_ok h
    exact Or.inl (by simpa using hmem)
  | unclosed tag hle hk hu =>
    obtain ⟨out, e, _, rfl⟩ := exists_of_standalone_ok h
    exact Or.inl (by simpa using hmem)
  | _ =>
    cases h
    exact Or.inl (by simpa using hmem)

/-- A step at which every tag in sight is unknown puts out the node as it is written. -/
theorem exists_echoes_step {written : Text} {p : Pass} {n : Node} {i : Nat}
    (h : Echoes start written p) (hn : ∀ t, n.tag? = some t → s.table.get? t.name = none)
    (ho : ∀ t ∈ p.stack.openers, s.table.get? t.name = none) :
    ∃ q, p.step s i n = .ok q ∧ Echoes start (written ++ n.raw) q ∧
      ∀ t ∈ q.stack.openers, s.table.get? t.name = none := by
  obtain ⟨q, hs, hq⟩ := exists_echoes_of_uncalled h fun t ht => ht.of_openers.elim (hn t) (ho t)
  exact ⟨q, hs, hq, fun t ht => (openers_of_step hs t ht).elim (ho t) (hn t)⟩

/-- A walk over unknown tags puts out the nodes as they are written. -/
theorem exists_echoes_walk {nodes : List Node} : ∀ {written : Text} {p : Pass} {i : Nat},
    (∀ n ∈ nodes, ∀ t, n.tag? = some t → s.table.get? t.name = none) →
    Echoes start written p → (∀ t ∈ p.stack.openers, s.table.get? t.name = none) →
    ∃ q, walk s i nodes p = .ok q ∧ Echoes start (written ++ (nodes.map Node.raw).flatten) q := by
  induction nodes with
  | nil =>
    intro written p i _ h _
    exact ⟨p, rfl, by simpa using h⟩
  | cons n rest ih =>
    intro written p i hn h ho
    obtain ⟨p', hs, h', ho'⟩ := exists_echoes_step h (hn n List.mem_cons_self) ho
    obtain ⟨q, hw, hq⟩ := ih (fun m hm => hn m (List.mem_cons_of_mem n hm)) h' ho'
    refine ⟨q, ?_, ?_⟩
    · rw [walk_cons_of_ok hs, hw]
    · simpa [List.append_assoc] using hq

end

end Pass

/-- **Unknown tags pass through.**  When the table answers to no tag name of the document, a run is
completed, puts out the document as it is written, and calls nothing: whatever the configuration and
the context, and whatever becomes of the token and the deadline. -/
theorem evaluate_of_unknown (s : Setting) (input : Text) (context : Context) (clock : Clock)
    (h : ∀ t partner, Node.tag t partner ∈ (Document.parse input).nodes →
      s.table.get? t.name = none) :
    (evaluate s input context clock).halt = none ∧
      (evaluate s input context clock).output = input ∧
      (evaluate s input context clock).context = context ∧
      (evaluate s input context clock).calls = [] := by
  have hn : ∀ n ∈ (Document.parse input).nodes, ∀ t, n.tag? = some t →
      s.table.get? t.name = none := by
    intro n hn t ht
    cases n with
    | tag t' partner =>
      cases ht
      exact h t partner hn
    | text t' => cases ht
    | malformed t' e => cases ht
  have hstart : Pass.Echoes ⟨context, clock, [], []⟩ [] ⟨.empty, ⟨context, clock, [], []⟩, 0⟩ :=
    ⟨rfl, rfl, rfl, rfl⟩
  obtain ⟨q, hw, hq⟩ :=
    Pass.exists_echoes_walk (i := 0) hn hstart (by simp [Stack.empty, Stack.openers])
  have hsource := Document.source_parse input
  have hr : evaluate s input context clock = q.toReport none := Document.evaluate_of_walk hw
  rw [hr]
  refine ⟨rfl, ?_, hq.context, hq.calls⟩
  show q.stack.unwind = input
  rw [hq.unwind, List.nil_append]
  exact hsource

/-- Crossed and malformed tags, a nesting limit of zero, and a token cancelled before the start. -/
theorem evaluate_of_unknown_crossed :
    let d : Descriptor := ⟨"d".toList, .code, {}, .immediate fun _ _ c => (.ok ['!'], c)⟩
    let s : Setting :=
      ⟨Table.empty.insertAll [d], { maxNestingDepth := 0 }, { hasToken := true, deadline := some 0 }⟩
    let input := "x[a][b y='[c/]']z[/a][/b][c/][e".toList
    (∀ t partner, Node.tag t partner ∈ (Document.parse input).nodes →
        s.table.get? t.name = none) ∧
      (evaluate s input .empty ⟨0, true⟩).halt = none ∧
      (evaluate s input .empty ⟨0, true⟩).output = input := by
  intro d s input
  have hunknown : ∀ t partner, Node.tag t partner ∈ (Document.parse input).nodes →
      s.table.get? t.name = none := by
    have hall : ∀ n ∈ (Document.parse input).nodes,
        (n.tag?.all fun t => (s.table.get? t.name).isNone) = true := by decide +kernel
    intro t partner ht
    simpa [Node.tag?] using hall _ ht
  have h := evaluate_of_unknown s input .empty ⟨0, true⟩ hunknown
  exact ⟨hunknown, h.1, h.2.1⟩

end Tagtext
