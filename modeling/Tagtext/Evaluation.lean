import Tagtext.Config
import Tagtext.Document
import Tagtext.Interruption
import Tagtext.Table

/-!
# Evaluation of a document

One pass over the nodes of a document, from left to right, replaces every tag by
what its handler returns.  A stack of frames holds the pairs of tags that are
open; the text inside a pair collects in its frame, so a handler is given the
evaluated content when the closing tag is reached.

* A malformed span and a closing tag without partner stay as they are written.
* A tag whose name the table does not know stays, its content evaluated.
* An opening tag without partner is called without content, or stays.
* A pair inside too many others stays as it is written, with all that is in it.
* A failed handler's tag is replaced as the configuration says.

All but the second of these are reported as diagnostics, unknown names too.
Nothing in a document ends a run; only the token and the deadline do, and what
stands in the stack at that moment is the partial output.
-/

namespace Tagtext

/-- Something a run recovered from. -/
inductive Diagnostic where
  | parse (error : ParseError)
  /-- A tag whose name no descriptor answers to. -/
  | unresolved (name : Text) (offset : Nat)
  /-- A tag whose handler failed. -/
  | handlerFailed (name : Text) (offset : Nat) (error : HandlerError)
  deriving DecidableEq, Repr

namespace Diagnostic

/-- Where in the document the cause is. -/
def offset : Diagnostic → Nat
  | parse e => e.offset
  | unresolved _ o => o
  | handlerFailed _ o _ => o

/-- The words that report a diagnostic. -/
def message : Diagnostic → Text
  | parse e => e.message
  | unresolved name o =>
    "unknown shortcode '".toList ++ name ++ "' at byte ".toList ++ decimal o
  | handlerFailed name o e =>
    "shortcode '".toList ++ name ++ "' at byte ".toList ++ decimal o ++ " failed: ".toList ++ e.text

end Diagnostic

/-- A call of a handler: what it was given and where its tag stands. -/
structure Call where
  name : Text
  arguments : Arguments
  content : Text
  context : Context
  offset : Nat

/-! ## The stack of open pairs -/

/-- An open pair: the index of its opening tag, that tag, and its content so far. -/
structure Frame where
  node : Nat
  opener : Tag
  buffer : Text

/-- The text put out so far: outside all pairs, and inside each open one, the innermost first. -/
structure Stack where
  root : Text
  frames : List Frame

namespace Stack

/-- Nothing put out and nothing open. -/
def empty : Stack := ⟨[], []⟩

/-- Puts out text in the innermost open pair. -/
def emit (t : Text) (s : Stack) : Stack :=
  match s.frames with
  | [] => { s with root := s.root ++ t }
  | f :: fs => { s with frames := { f with buffer := f.buffer ++ t } :: fs }

/-- Opens a pair. -/
def push (node : Nat) (opener : Tag) (s : Stack) : Stack :=
  { s with frames := ⟨node, opener, []⟩ :: s.frames }

/-- Forgets the innermost open pair. -/
def pop (s : Stack) : Stack := { s with frames := s.frames.tail }

/-- All text put out, with the opening tags of open pairs as they are written. -/
def unwind (s : Stack) : Text :=
  s.frames.foldr (fun f t => t ++ f.opener.raw ++ f.buffer) s.root

/-- The indices of the opening tags, the innermost first. -/
def nodes (s : Stack) : List Nat := s.frames.map (·.node)

/-- The opening tags, the innermost first. -/
def openers (s : Stack) : List Tag := s.frames.map (·.opener)

end Stack

/-! ## The pass -/

/-- What a run works with. -/
structure Setting where
  table : Table
  config : Config
  watch : Watch := {}

/-- What a run has brought about beside its output. -/
structure Effects where
  context : Context
  clock : Clock
  diagnostics : List Diagnostic
  calls : List Call

/-- How far a run has come. -/
structure Pass where
  stack : Stack
  effects : Effects
  /-- Nodes before this index belong to a pair that is kept as it is written. -/
  keepUntil : Nat

/-- Reports a diagnostic. -/
def Effects.report (d : Diagnostic) (e : Effects) : Effects :=
  { e with diagnostics := e.diagnostics ++ [d] }

/-- Calls the handler for a tag; a name that the table does not know leaves `fallback`. -/
def Effects.invoke (s : Setting) (tag : Tag) (content fallback : Text) (e : Effects) :
    Except Halt Text × Effects :=
  match s.table.get? tag.name with
  | none => (.ok fallback, e.report (.unresolved tag.name tag.start))
  | some d =>
    match s.watch.haltBy? e.clock e.clock.now with
    | some (cause, _) => (.error cause, e)
    | none =>
      let call : Call := ⟨tag.name, tag.arguments, content, e.context, tag.start⟩
      let e := { e with calls := e.calls ++ [call] }
      match (d.handler tag.arguments content e.context).proceed s.watch e.clock with
      | .abandoned cause context clock => (.error cause, { e with context, clock })
      | .finished (.ok out) context clock => (.ok out, { e with context, clock })
      | .finished (.error err) context clock =>
        (.ok s.config.failure.replacement,
          { e with context, clock }.report (.handlerFailed tag.name tag.start err))

namespace Pass

/-- Puts out text. -/
def emit (t : Text) (p : Pass) : Pass := { p with stack := p.stack.emit t }

/-- Reports a diagnostic. -/
def report (d : Diagnostic) (p : Pass) : Pass := { p with effects := p.effects.report d }

/-- Puts out what the handler of a tag that stands alone returns. -/
def standalone (s : Setting) (tag : Tag) (p : Pass) : Except (Halt × Pass) Pass :=
  match p.effects.invoke s tag [] tag.raw with
  | (.ok out, e) => .ok ({ p with effects := e }.emit out)
  | (.error cause, e) => .error (cause, { p with effects := e })

/-- Closes the innermost open pair and puts out what its handler returns.  If the call is
interrupted the pair stays open. -/
def close (s : Setting) (f : Frame) (closer : Tag) (p : Pass) : Except (Halt × Pass) Pass :=
  match p.effects.invoke s f.opener f.buffer (f.opener.raw ++ f.buffer ++ closer.raw) with
  | (.ok out, e) => .ok ({ p with effects := e, stack := p.stack.pop }.emit out)
  | (.error cause, e) => .error (cause, { p with effects := e })

/-- Takes the next node, which has this index. -/
def step (s : Setting) (index : Nat) (n : Node) (p : Pass) : Except (Halt × Pass) Pass :=
  if index < p.keepUntil then .ok (p.emit n.raw)
  else
    match n with
    | .text t => .ok (p.emit t)
    | .malformed raw e => .ok ((p.report (.parse e)).emit raw)
    | .tag tag partner =>
      match tag.kind, partner with
      | .selfClosing, _ => p.standalone s tag
      | .opening, some close =>
        if s.config.maxNestingDepth ≤ p.stack.frames.length then
          let e := .nestingTooDeep tag.name tag.start s.config.maxNestingDepth
          .ok { (p.report (.parse e)).emit tag.raw with keepUntil := close + 1 }
        else .ok { p with stack := p.stack.push index tag }
      | .opening, none =>
        let p := p.report (.parse (.unclosedTag tag.name tag.start))
        match s.config.unclosed with
        | .standalone => p.standalone s tag
        | .literal => .ok (p.emit tag.raw)
      | .closing, some opener =>
        match p.stack.frames with
        | f :: _ => if f.node = opener then p.close s f tag else .ok (p.emit tag.raw)
        | [] => .ok (p.emit tag.raw)
      | .closing, none => .ok (p.emit tag.raw)

/-- Takes all nodes, the first of which has this index. -/
def walk (s : Setting) : Nat → List Node → Pass → Except (Halt × Pass) Pass
  | _, [], p => .ok p
  | index, n :: rest, p =>
    match p.step s index n with
    | .ok p => walk s (index + 1) rest p
    | .error stopped => .error stopped

end Pass

/-! ## Runs -/

/-- What a run leaves behind. -/
structure Report where
  /-- What ended the run early; `none` for a run that was completed. -/
  halt : Option Halt
  /-- The output, or as much of it as there was when the run ended. -/
  output : Text
  diagnostics : List Diagnostic
  context : Context
  calls : List Call
  clock : Clock

/-- Whether a run was completed and had nothing to report. -/
def Report.isClean (r : Report) : Bool := r.halt.isNone && r.diagnostics.isEmpty

/-- The report of a run that has come this far. -/
def Pass.toReport (halt : Option Halt) (p : Pass) : Report where
  halt
  output := p.stack.unwind
  diagnostics := p.effects.diagnostics
  context := p.effects.context
  calls := p.effects.calls
  clock := p.effects.clock

/-- Evaluates a document from a context and a clock on. -/
def Document.evaluate (s : Setting) (context : Context) (clock : Clock) (d : Document) : Report :=
  let start : Effects := ⟨context, clock, [], []⟩
  if d.isPlain then Pass.toReport none ⟨⟨d.source, []⟩, start, 0⟩
  else
    match Pass.walk s 0 d.nodes ⟨.empty, start, 0⟩ with
    | .ok p => p.toReport none
    | .error (cause, p) => p.toReport (some cause)

/-- Evaluates a text. -/
def evaluate (s : Setting) (input : Text) (context : Context) (clock : Clock := {}) : Report :=
  (Document.parse input).evaluate s context clock

/-! ## Lemmas -/

namespace Stack

@[simp] theorem unwind_empty : empty.unwind = [] := rfl

@[simp] theorem emit_nil (s : Stack) : s.emit [] = s := by
  obtain ⟨root, _ | ⟨f, fs⟩⟩ := s <;> simp [emit]

@[simp] theorem emit_emit (s : Stack) (t u : Text) : (s.emit t).emit u = s.emit (t ++ u) := by
  obtain ⟨root, _ | ⟨f, fs⟩⟩ := s <;> simp [emit]

@[simp] theorem unwind_emit (s : Stack) (t : Text) : (s.emit t).unwind = s.unwind ++ t := by
  obtain ⟨root, _ | ⟨f, fs⟩⟩ := s <;> simp [emit, unwind]

@[simp] theorem unwind_push (s : Stack) (i : Nat) (o : Tag) :
    (s.push i o).unwind = s.unwind ++ o.raw := by
  simp [push, unwind]

/-- What is taken off the text put out when the innermost pair is forgotten. -/
theorem unwind_of_frames {s : Stack} {f : Frame} {fs : List Frame} (h : s.frames = f :: fs) :
    s.unwind = s.pop.unwind ++ f.opener.raw ++ f.buffer := by
  simp [unwind, pop, h]

@[simp] theorem pop_emit_push (s : Stack) (i : Nat) (o : Tag) (t : Text) :
    ((s.push i o).emit t).pop = s := by
  simp [push, emit, pop]

@[simp] theorem nodes_emit (s : Stack) (t : Text) : (s.emit t).nodes = s.nodes := by
  obtain ⟨root, _ | ⟨f, fs⟩⟩ := s <;> simp [emit, nodes]

@[simp] theorem nodes_push (s : Stack) (i : Nat) (o : Tag) : (s.push i o).nodes = i :: s.nodes := rfl

@[simp] theorem nodes_pop (s : Stack) : s.pop.nodes = s.nodes.tail := by
  simp [pop, nodes]

@[simp] theorem openers_emit (s : Stack) (t : Text) : (s.emit t).openers = s.openers := by
  obtain ⟨root, _ | ⟨f, fs⟩⟩ := s <;> simp [emit, openers]

@[simp] theorem openers_push (s : Stack) (i : Nat) (o : Tag) :
    (s.push i o).openers = o :: s.openers := rfl

@[simp] theorem openers_pop (s : Stack) : s.pop.openers = s.openers.tail := by
  simp [pop, openers]

@[simp] theorem length_nodes (s : Stack) : s.nodes.length = s.frames.length := by
  simp [nodes]

@[simp] theorem length_frames_emit (s : Stack) (t : Text) :
    (s.emit t).frames.length = s.frames.length := by
  rw [← length_nodes, nodes_emit, length_nodes]

@[simp] theorem length_frames_push (s : Stack) (i : Nat) (o : Tag) :
    (s.push i o).frames.length = s.frames.length + 1 := rfl

theorem frames_emit_push (s : Stack) (i : Nat) (o : Tag) (t : Text) :
    ((s.push i o).emit t).frames = ⟨i, o, t⟩ :: s.frames := by
  simp [push, emit]

end Stack

namespace Pass

@[simp] theorem stack_emit (t : Text) (p : Pass) : (p.emit t).stack = p.stack.emit t := rfl
@[simp] theorem effects_emit (t : Text) (p : Pass) : (p.emit t).effects = p.effects := rfl
@[simp] theorem keepUntil_emit (t : Text) (p : Pass) : (p.emit t).keepUntil = p.keepUntil := rfl
@[simp] theorem emit_nil (p : Pass) : p.emit [] = p := by
  simp [emit]

@[simp] theorem stack_report (d : Diagnostic) (p : Pass) : (p.report d).stack = p.stack := rfl
@[simp] theorem effects_report (d : Diagnostic) (p : Pass) :
    (p.report d).effects = p.effects.report d := rfl
@[simp] theorem keepUntil_report (d : Diagnostic) (p : Pass) :
    (p.report d).keepUntil = p.keepUntil := rfl

theorem walk_cons_of_ok {s : Setting} {index : Nat} {n : Node} {p q : Pass}
    (h : p.step s index n = .ok q) (rest : List Node) :
    walk s index (n :: rest) p = walk s (index + 1) rest q := by
  simp [walk, h]

/-- Text alone is put out as it is. -/
theorem walk_text (s : Setting) (nodes : List Node) (h : nodes.all Node.isText = true) :
    ∀ (index : Nat) (p : Pass), walk s index nodes p = .ok (p.emit (nodes.map Node.raw).flatten) := by
  induction nodes with
  | nil =>
    intro index p
    simp [walk, Pass.emit]
  | cons n rest ih =>
    intro index p
    simp only [List.all_cons, Bool.and_eq_true] at h
    obtain ⟨hn, hrest⟩ := h
    cases n with
    | text t =>
      have hstep : p.step s index (.text t) = .ok (p.emit t) := by
        unfold step
        split <;> rfl
      rw [walk_cons_of_ok hstep, ih hrest]
      simp [Pass.emit, Node.raw]
    | malformed t e => cases hn
    | tag t partner => cases hn

end Pass

/-- Plain text takes the same way as all else, only faster. -/
theorem Document.evaluate_eq_walk (s : Setting) (context : Context) (clock : Clock) (d : Document) :
    d.evaluate s context clock =
      match Pass.walk s 0 d.nodes ⟨.empty, ⟨context, clock, [], []⟩, 0⟩ with
      | .ok p => p.toReport none
      | .error (cause, p) => p.toReport (some cause) := by
  unfold Document.evaluate
  simp only
  split
  · next h =>
    rw [Pass.walk_text s d.nodes h]
    simp [Pass.toReport, Pass.emit, Stack.empty, Stack.emit, Document.source]
  · rfl

theorem Document.evaluate_of_walk {s : Setting} {context : Context} {clock : Clock} {d : Document}
    {q : Pass} (h : Pass.walk s 0 d.nodes ⟨.empty, ⟨context, clock, [], []⟩, 0⟩ = .ok q) :
    d.evaluate s context clock = q.toReport none := by
  rw [evaluate_eq_walk, h]

theorem Document.evaluate_of_walk_error {s : Setting} {context : Context} {clock : Clock}
    {d : Document} {cause : Halt} {q : Pass}
    (h : Pass.walk s 0 d.nodes ⟨.empty, ⟨context, clock, [], []⟩, 0⟩ = .error (cause, q)) :
    d.evaluate s context clock = q.toReport (some cause) := by
  rw [evaluate_eq_walk, h]

end Tagtext
