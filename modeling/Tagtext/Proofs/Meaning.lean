import Tagtext.Proofs.Forest
import Tagtext.Proofs.Step

/-!
# The meaning of a document

What a document comes to, said by recursion on its forest and without a stack:
siblings are evaluated from left to right, each in the context that the one
before it left; a pair first evaluates what stands between its tags and then
calls its handler once with that text; a pair inside too many others stays as it
is written.  A run that nothing interrupts comes to the same (`evaluate_eq_meaning`):

    output, context, diagnostics and calls of
    evaluate ⟨table, config, {}⟩ input context  =  (Document.parse input).forest.meaning … 0 context
-/

namespace Tagtext

/-! ## The recursive evaluation -/

/-- What a handler makes of arguments, content and context: text or a fault, and a context. -/
abbrev Behavior := Arguments → Text → Context → Except HandlerError Text × Context

/-- What is called for each name. -/
abbrev Behaviors := Text → Option Behavior

/-- What a part of a document comes to. -/
structure Meaning where
  output : Text
  context : Context
  diagnostics : List Diagnostic
  calls : List Call

namespace Meaning

/-- Text that stands for itself. -/
def verbatim (t : Text) (context : Context) : Meaning := ⟨t, context, [], []⟩

/-- A diagnostic in front of all others. -/
def reporting (d : Diagnostic) (m : Meaning) : Meaning :=
  { m with diagnostics := d :: m.diagnostics }

/-- One part and behind it another. -/
def followedBy (m : Meaning) (next : Context → Meaning) : Meaning :=
  let m' := next m.context
  ⟨m.output ++ m'.output, m'.context, m.diagnostics ++ m'.diagnostics, m.calls ++ m'.calls⟩

/-- One part and then another that takes its output as content. -/
def enclosedBy (m : Meaning) (outer : Text → Context → Meaning) : Meaning :=
  let m' := outer m.output m.context
  ⟨m'.output, m'.context, m.diagnostics ++ m'.diagnostics, m.calls ++ m'.calls⟩

end Meaning

section
variable (behave : Behaviors) (config : Config)

/-- What a tag comes to whose content is evaluated; an unknown name leaves `fallback`. -/
def Tag.meaning (tag : Tag) (fallback content : Text) (context : Context) : Meaning :=
  match behave tag.name with
  | none => ⟨fallback, context, [.unresolved tag.name tag.start], []⟩
  | some f =>
    let call : Call := ⟨tag.name, tag.arguments, content, context, tag.start⟩
    match f tag.arguments content context with
    | (.ok out, context') => ⟨out, context', [], [call]⟩
    | (.error e, context') =>
      ⟨config.failure.replacement, context', [.handlerFailed tag.name tag.start e], [call]⟩

/-- What a node without partner comes to. -/
def Node.meaning (context : Context) : Node → Meaning
  | .text t => .verbatim t context
  | .malformed raw e => (Meaning.verbatim raw context).reporting (.parse e)
  | .tag t _ =>
    match t.kind with
    | .selfClosing => t.meaning behave config t.raw [] context
    | .opening =>
      Meaning.reporting (.parse (.unclosedTag t.name t.start)) <|
        match config.unclosed with
        | .standalone => t.meaning behave config t.raw [] context
        | .literal => .verbatim t.raw context
    | .closing => .verbatim t.raw context

/-- What a forest inside `depth` pairs comes to. -/
def Forest.meaning (depth : Nat) (context : Context) : Forest → Meaning
  | .nil => .verbatim [] context
  | .leaf n next =>
    (Node.meaning behave config context n).followedBy fun c => next.meaning depth c
  | .pair opener inside closer next =>
    let here :=
      if depth < config.maxNestingDepth then
        (inside.meaning (depth + 1) context).enclosedBy fun content c =>
          opener.meaning behave config (opener.raw ++ content ++ closer.raw) content c
      else
        (Meaning.verbatim (opener.raw ++ inside.raw ++ closer.raw) context).reporting
          (.parse (.nestingTooDeep opener.name opener.start config.maxNestingDepth))
    here.followedBy fun c => next.meaning depth c

/-- Every name is answered to by a handler that ends, and ends as `behave` says. -/
def Table.Realizes (table : Table) (behave : Behaviors) : Prop :=
  ∀ name, match table.get? name, behave name with
    | some d, some f => ∀ args content context,
        (d.handler args content context).result = some (f args content context)
    | none, none => True
    | _, _ => False

end

/-! ## Calls -/

theorem Table.Realizes.of_none {table : Table} {behave : Behaviors} (hb : table.Realizes behave)
    {name : Text} (h : table.get? name = none) : behave name = none := by
  have hname := hb name
  rw [h] at hname
  cases hf : behave name with
  | none => rfl
  | some f => rw [hf] at hname; cases hname

theorem Table.Realizes.of_some {table : Table} {behave : Behaviors} (hb : table.Realizes behave)
    {name : Text} {d : Descriptor} (h : table.get? name = some d) :
    ∃ f, behave name = some f ∧ ∀ args content context,
      (d.handler args content context).result = some (f args content context) := by
  have hname := hb name
  rw [h] at hname
  cases hf : behave name with
  | none => rw [hf] at hname; cases hname
  | some f => exact ⟨f, rfl, by rwa [hf] at hname⟩

/-- `e'` is what has come of `e` when a part with this meaning was evaluated. -/
structure Effects.Adds (e : Effects) (m : Meaning) (e' : Effects) : Prop where
  context : e'.context = m.context
  diagnostics : e'.diagnostics = e.diagnostics ++ m.diagnostics
  calls : e'.calls = e.calls ++ m.calls

section
variable {table : Table} {behave : Behaviors} (config : Config)

/-- A call comes to the meaning of its tag. -/
theorem Effects.exists_invoke (hb : table.Realizes behave) (tag : Tag) (content fallback : Text)
    (e : Effects) :
    ∃ e', e.invoke ⟨table, config, {}⟩ tag content fallback =
      (.ok (tag.meaning behave config fallback content e.context).output, e') ∧
      e.Adds (tag.meaning behave config fallback content e.context) e' := by
  have hcomes := comes_invoke ⟨table, config, {}⟩ tag content fallback e
  generalize e.invoke ⟨table, config, {}⟩ tag content fallback = r at hcomes ⊢
  unfold Tag.meaning
  cases hcomes with
  | unknown h =>
    rw [hb.of_none h]
    exact ⟨_, rfl, rfl, rfl, by simp [Effects.report]⟩
  | refused d cause t h hw => cases hw
  | abandoned d cause context clock h hw hp =>
    obtain ⟨f, _, hres⟩ := hb.of_some h
    obtain ⟨k', hk⟩ := Work.exists_proceed_of_result (hres tag.arguments content e.context) e.clock
    rw [hk] at hp
    cases hp
  | answered d out context clock h hw hp =>
    obtain ⟨f, hf, hres⟩ := hb.of_some h
    have hout := hres tag.arguments content e.context
    rw [Work.result_of_proceed hp, Option.some.injEq] at hout
    rw [hf]
    simp only [← hout]
    exact ⟨_, rfl, rfl, by simp, rfl⟩
  | failed d err context clock h hw hp =>
    obtain ⟨f, hf, hres⟩ := hb.of_some h
    have hout := hres tag.arguments content e.context
    rw [Work.result_of_proceed hp, Option.some.injEq] at hout
    rw [hf]
    simp only [← hout]
    exact ⟨_, rfl, rfl, rfl, rfl⟩

/-! ## Steps -/

namespace Pass

/-- `q` is what has come of `p` when a part with this meaning was taken. -/
structure Adds (p : Pass) (m : Meaning) (q : Pass) : Prop where
  stack : q.stack = p.stack.emit m.output
  effects : p.effects.Adds m q.effects

namespace Adds

variable {p q r : Pass} {m : Meaning}

theorem verbatim (p : Pass) (t : Text) :
    p.Adds (.verbatim t p.effects.context) (p.emit t) :=
  ⟨rfl, rfl, (List.append_nil _).symm, (List.append_nil _).symm⟩

theorem reporting {d : Diagnostic} (h : (p.report d).Adds m q) : p.Adds (m.reporting d) q := by
  refine ⟨h.stack, h.effects.context, ?_, h.effects.calls⟩
  rw [h.effects.diagnostics]
  simp [Effects.report, Meaning.reporting]

theorem followedBy {next : Context → Meaning} (h : p.Adds m q)
    (h' : q.Adds (next q.effects.context) r) : p.Adds (m.followedBy next) r := by
  rw [h.effects.context] at h'
  refine ⟨?_, h'.effects.context, ?_, ?_⟩
  · rw [h'.stack, h.stack, Stack.emit_emit]
    rfl
  · rw [h'.effects.diagnostics, h.effects.diagnostics, List.append_assoc]
    rfl
  · rw [h'.effects.calls, h.effects.calls, List.append_assoc]
    rfl

theorem length_frames (h : p.Adds m q) : q.stack.frames.length = p.stack.frames.length := by
  rw [h.stack, Stack.length_frames_emit]

end Adds

theorem exists_standalone (hb : table.Realizes behave) (tag : Tag) (p : Pass) :
    ∃ q, p.standalone ⟨table, config, {}⟩ tag = .ok q ∧
      p.Adds (tag.meaning behave config tag.raw [] p.effects.context) q ∧
      q.keepUntil = p.keepUntil := by
  obtain ⟨e', hi, he⟩ := Effects.exists_invoke config hb tag [] tag.raw p.effects
  unfold standalone
  rw [hi]
  exact ⟨_, rfl, ⟨rfl, he⟩, rfl⟩

/-- A node without partner is taken for what it means. -/
theorem exists_step_leaf (hb : table.Realizes behave) {n : Node} (hn : n.partner? = none)
    {i : Nat} {p : Pass} (hp : p.keepUntil ≤ i) :
    ∃ q, p.step ⟨table, config, {}⟩ i n = .ok q ∧
      p.Adds (Node.meaning behave config p.effects.context n) q ∧ q.keepUntil = p.keepUntil := by
  have ht := takes_step ⟨table, config, {}⟩ i n p
  generalize p.step ⟨table, config, {}⟩ i n = r at ht ⊢
  cases ht with
  | kept n hlt => omega
  | text t hle => exact ⟨_, rfl, .verbatim p t, rfl⟩
  | malformed raw e hle => exact ⟨_, rfl, (Adds.verbatim (p.report _) raw).reporting, rfl⟩
  | alone tag partner hle hk =>
    obtain ⟨q, hq, hadds, hkeep⟩ := exists_standalone config hb tag p
    exact ⟨q, hq, by simpa only [Node.meaning, hk] using hadds, hkeep⟩
  | deep tag close hle hk hd => cases hn
  | opened tag close hle hk hd => cases hn
  | unclosed tag hle hk hu =>
    obtain ⟨q, hq, hadds, hkeep⟩ := exists_standalone config hb tag
      (p.report (.parse (.unclosedTag tag.name tag.start)))
    refine ⟨q, hq, ?_, hkeep⟩
    simp only [Node.meaning, hk, show config.unclosed = .standalone from hu]
    exact hadds.reporting
  | stays tag hle hk hu =>
    refine ⟨_, rfl, ?_, rfl⟩
    simp only [Node.meaning, hk, show config.unclosed = .literal from hu]
    exact (Adds.verbatim (p.report _) tag.raw).reporting
  | closed tag f fs hle hk hf => cases hn
  | orphan tag partner hle hk hf =>
    refine ⟨_, rfl, ?_, rfl⟩
    simp only [Node.meaning, hk]
    exact .verbatim p tag.raw

/-- Nodes of a pair that is kept are put out as they are written. -/
theorem walk_kept (s : Setting) (rest : List Node) (nodes : List Node) : ∀ {i : Nat} {p : Pass},
    i + nodes.length ≤ p.keepUntil →
    walk s i (nodes ++ rest) p =
      walk s (i + nodes.length) rest (p.emit (nodes.map Node.raw).flatten) := by
  induction nodes with
  | nil =>
    intro i p _
    simp [Pass.emit]
  | cons n nodes ih =>
    intro i p h
    rw [List.length_cons] at h
    have hs : p.step s i n = .ok (p.emit n.raw) := by
      unfold step
      rw [if_pos (by omega)]
    rw [List.cons_append, walk_cons_of_ok hs, ih (by rw [keepUntil_emit]; omega)]
    simp [Pass.emit, Nat.add_assoc, Nat.add_comm 1]

/-- A pair inside too many others is kept as it is written. -/
theorem walk_deep_pair {opener : Tag} (ho : opener.kind = .opening) (inside : Forest) (closer : Tag)
    {i : Nat} {p : Pass} (hp : p.keepUntil ≤ i)
    (hd : config.maxNestingDepth ≤ p.stack.frames.length) (rest : List Node) :
    ∃ q, walk ⟨table, config, {}⟩ i (.tag opener (some (i + 1 + inside.size)) ::
        (inside.nodes (i + 1) ++ .tag closer (some i) :: rest)) p =
      walk ⟨table, config, {}⟩ (i + 1 + inside.size + 1) rest q ∧
      p.Adds ((Meaning.verbatim (opener.raw ++ inside.raw ++ closer.raw)
        p.effects.context).reporting
          (.parse (.nestingTooDeep opener.name opener.start config.maxNestingDepth))) q ∧
      q.keepUntil = i + 1 + inside.size + 1 := by
  let d : Diagnostic := .parse (.nestingTooDeep opener.name opener.start config.maxNestingDepth)
  let p₁ : Pass := { (p.report d).emit opener.raw with keepUntil := i + 1 + inside.size + 1 }
  have hs : p.step ⟨table, config, {}⟩ i (.tag opener (some (i + 1 + inside.size))) = .ok p₁ :=
    step_deep hp ho hd _
  have hsplit : inside.nodes (i + 1) ++ .tag closer (some i) :: rest =
      (inside.nodes (i + 1) ++ [.tag closer (some i)]) ++ rest := by
    simp
  have hlen : (inside.nodes (i + 1) ++ [Node.tag closer (some i)]).length = inside.size + 1 := by
    simp [inside.length_nodes]
  have hraw : ((inside.nodes (i + 1) ++ [Node.tag closer (some i)]).map Node.raw).flatten =
      inside.raw ++ closer.raw := by
    simp [inside.map_raw_nodes, Node.raw]
  rw [walk_cons_of_ok hs, hsplit, walk_kept _ _ _ (by rw [hlen]; exact Nat.le_of_eq rfl), hlen,
    hraw]
  refine ⟨p₁.emit (inside.raw ++ closer.raw), rfl, ?_, rfl⟩
  have h := (Adds.verbatim (p.report d) (opener.raw ++ inside.raw ++ closer.raw)).reporting
  refine ⟨?_, h.effects⟩
  simp [p₁, Meaning.verbatim, Meaning.reporting]

/-- A pair is opened, its content taken, and its handler called with what that came to. -/
theorem exists_step_closer (hb : table.Realizes behave) {opener closer : Tag}
    (hc : closer.kind = .closing) {i j : Nat} {p q : Pass} {m : Meaning} (hq : q.keepUntil ≤ j)
    (h : Adds { p with stack := p.stack.push i opener } m q) :
    ∃ r, q.step ⟨table, config, {}⟩ j (.tag closer (some i)) = .ok r ∧
      p.Adds (m.enclosedBy fun content c =>
        opener.meaning behave config (opener.raw ++ content ++ closer.raw) content c) r ∧
      r.keepUntil = q.keepUntil := by
  have hframes : q.stack.frames = ⟨i, opener, m.output⟩ :: p.stack.frames := by
    rw [h.stack, Stack.frames_emit_push]
  have hpop : q.stack.pop = p.stack := by
    rw [h.stack, Stack.pop_emit_push]
  obtain ⟨e', hi, he⟩ := Effects.exists_invoke config hb opener m.output
    (opener.raw ++ m.output ++ closer.raw) q.effects
  rw [h.effects.context] at hi he
  have hs : q.step ⟨table, config, {}⟩ j (.tag closer (some i)) =
      q.close ⟨table, config, {}⟩ ⟨i, opener, m.output⟩ closer :=
    step_closed hq hc hframes
  rw [hs]
  unfold close
  simp only [hi]
  refine ⟨_, rfl, ⟨?_, ?_, ?_, ?_⟩, rfl⟩
  · rw [stack_emit, hpop]
    rfl
  · exact he.context
  · rw [effects_emit, he.diagnostics, h.effects.diagnostics, List.append_assoc]
    rfl
  · rw [effects_emit, he.calls, h.effects.calls, List.append_assoc]
    rfl

/-- A pair adds what it means, if the forest between its tags does. -/
theorem exists_walk_pair (hb : table.Realizes behave) {opener closer : Tag}
    (ho : opener.kind = .opening) (hc : closer.kind = .closing) {inside : Forest} {i : Nat}
    (hinside : ∀ {p : Pass} (rest : List Node), p.keepUntil ≤ i + 1 →
      ∃ q, walk ⟨table, config, {}⟩ (i + 1) (inside.nodes (i + 1) ++ rest) p =
          walk ⟨table, config, {}⟩ (i + 1 + inside.size) rest q ∧
        p.Adds (inside.meaning behave config p.stack.frames.length p.effects.context) q ∧
        q.keepUntil ≤ i + 1 + inside.size)
    {p : Pass} (hp : p.keepUntil ≤ i) (rest : List Node) :
    ∃ q, walk ⟨table, config, {}⟩ i (.tag opener (some (i + 1 + inside.size)) ::
        (inside.nodes (i + 1) ++ .tag closer (some i) :: rest)) p =
      walk ⟨table, config, {}⟩ (i + 1 + inside.size + 1) rest q ∧
      p.Adds (if p.stack.frames.length < config.maxNestingDepth then
          (inside.meaning behave config (p.stack.frames.length + 1) p.effects.context).enclosedBy
            fun content c =>
              opener.meaning behave config (opener.raw ++ content ++ closer.raw) content c
        else
          (Meaning.verbatim (opener.raw ++ inside.raw ++ closer.raw)
            p.effects.context).reporting
              (.parse (.nestingTooDeep opener.name opener.start config.maxNestingDepth))) q ∧
      q.keepUntil ≤ i + 1 + inside.size + 1 := by
  by_cases hd : p.stack.frames.length < config.maxNestingDepth
  · rw [if_pos hd]
    let p₁ : Pass := { p with stack := p.stack.push i opener }
    have hs : p.step ⟨table, config, {}⟩ i (.tag opener (some (i + 1 + inside.size))) = .ok p₁ :=
      step_opened hp ho hd _
    obtain ⟨q₁, hw₁, hq₁, hk₁⟩ :=
      hinside (p := p₁) (.tag closer (some i) :: rest) (Nat.le_succ_of_le hp)
    obtain ⟨q, hs₂, hq, hk⟩ := exists_step_closer config hb hc hk₁ hq₁
    refine ⟨q, ?_, hq, by omega⟩
    rw [walk_cons_of_ok hs, hw₁, walk_cons_of_ok hs₂]
  · rw [if_neg hd]
    obtain ⟨q, hw, hq, hk⟩ := walk_deep_pair config ho inside closer hp (by omega) rest
    exact ⟨q, hw, hq, Nat.le_of_eq hk⟩

/-- **A walk over a forest adds what the forest means**, whatever is open in front of it and
whatever follows. -/
theorem exists_walk_forest (hb : table.Realizes behave) (F : Forest) (hF : F.WellFormed) :
    ∀ {i : Nat} {p : Pass} (rest : List Node), p.keepUntil ≤ i →
    ∃ q, walk ⟨table, config, {}⟩ i (F.nodes i ++ rest) p =
        walk ⟨table, config, {}⟩ (i + F.size) rest q ∧
      p.Adds (F.meaning behave config p.stack.frames.length p.effects.context) q ∧
      q.keepUntil ≤ i + F.size := by
  induction F with
  | nil =>
    intro i p rest hp
    have h := Adds.verbatim p []
    rw [emit_nil] at h
    exact ⟨p, rfl, h, hp⟩
  | leaf n next ih =>
    intro i p rest hp
    obtain ⟨hn, hnext⟩ := hF
    obtain ⟨p₁, hs, hadds, hkeep⟩ := exists_step_leaf config hb hn hp
    obtain ⟨q, hw, hq, hqk⟩ := ih hnext (i := i + 1) (p := p₁) rest (by omega)
    rw [hadds.length_frames] at hq
    refine ⟨q, ?_, hadds.followedBy hq, by rw [Forest.size]; omega⟩
    rw [Forest.nodes, List.cons_append, walk_cons_of_ok hs, hw, Forest.size]
    congr 1
    omega
  | pair opener inside closer next ihi ihn =>
    intro i p rest hp
    obtain ⟨ho, hc, hinside, hnext⟩ := hF
    obtain ⟨q₁, hw₁, hq₁, hk₁⟩ := exists_walk_pair config hb ho hc (ihi hinside) hp
      (next.nodes (i + 1 + inside.size + 1) ++ rest)
    obtain ⟨q, hw, hq, hk⟩ := ihn hnext (p := q₁) rest hk₁
    rw [hq₁.length_frames] at hq
    refine ⟨q, ?_, ?_, by rw [Forest.size]; omega⟩
    · rw [Forest.nodes, List.cons_append, List.append_assoc, List.cons_append, hw₁, hw, Forest.size]
      congr 1
      omega
    · rw [Forest.meaning]
      exact hq₁.followedBy hq

end Pass

/-- **A run comes to the meaning of its document.**  A run without token and deadline is completed,
and its output, its final context, its diagnostics and its calls, each with what it was given, are
those of the recursive evaluation of the forest that the partners make of the nodes. -/
theorem evaluate_eq_meaning (hb : table.Realizes behave) (input : Text) (context : Context)
    (clock : Clock) :
    let d := Document.parse input
    let r := evaluate ⟨table, config, {}⟩ input context clock
    let m := d.forest.meaning behave config 0 context
    d.forest.nodes 0 = d.nodes ∧ d.forest.WellFormed ∧ r.halt = none ∧ r.output = m.output ∧
      r.context = m.context ∧ r.diagnostics = m.diagnostics ∧ r.calls = m.calls := by
  intro d r m
  obtain ⟨hnodes, hF⟩ := Document.nodes_forest (Document.matched_parse input)
  obtain ⟨q, hw, hq, _⟩ := Pass.exists_walk_forest config hb d.forest hF (i := 0)
    (p := ⟨.empty, ⟨context, clock, [], []⟩, 0⟩) [] (Nat.le_refl 0)
  rw [List.append_nil, hnodes] at hw
  have hr : r = q.toReport none := Document.evaluate_of_walk hw
  rw [hr]
  refine ⟨hnodes, hF, rfl, ?_, hq.effects.context, ?_, ?_⟩
  · show q.stack.unwind = m.output
    rw [hq.stack, Stack.unwind_emit]
    rfl
  · exact hq.effects.diagnostics
  · exact hq.effects.calls

end

/-- A pair inside a pair, an unknown tag, and a handler that counts its calls. -/
theorem evaluate_eq_meaning_nested :
    let f : Behavior := fun _ content c => (.ok ('*' :: content), c.increment "n".toList)
    let table := Table.empty.insertAll [⟨"b".toList, .code, {}, .immediate f⟩]
    let behave : Behaviors := fun name => if name = "b".toList then some f else none
    let input := "[b]x[a][b/][/a][/b]".toList
    table.Realizes behave ∧
      (evaluate ⟨table, {}, {}⟩ input .empty).output = "*x[a]*[/a]".toList ∧
      ((Document.parse input).forest.meaning behave {} 0 .empty).output = "*x[a]*[/a]".toList := by
  intro f table behave input
  have hb : table.Realizes behave := by
    intro name
    by_cases hn : name = ['b']
    · subst hn
      exact fun _ _ _ => rfl
    · have hnone : table.get? name = none := by
        simp [table, Table.insertAll, Table.get?_insert, hn]
      rw [hnone]
      simp [behave, hn]
  obtain ⟨_, _, _, hout, _⟩ := evaluate_eq_meaning {} hb input .empty {}
  have hrun : (evaluate ⟨table, {}, {}⟩ input .empty).output = "*x[a]*[/a]".toList := by
    decide +kernel
  exact ⟨hb, hrun, hout.symm.trans hrun⟩

end Tagtext
