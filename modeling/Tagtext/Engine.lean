import Tagtext.Pacing
import Tagtext.Registrations
import Tagtext.TemplateStore

/-!
# The engine

An engine brings together what evaluation needs: registered descriptors, stored
templates, further providers, seeds for the context, and a configuration.  Every
run seeds the context, builds a table of its own, and makes one pass over the
document.  The timeout counts from the start of the run, the building of the
table included.
-/

namespace Tagtext

/-- A store of templates as an engine reads it. -/
structure TemplateSource where
  store : TemplateStore
  /-- How long it takes to list the templates, in milliseconds; `none` if that never ends. -/
  delay : Option Nat := some 0
  /-- Why the store cannot be read, if it cannot. -/
  outage : Option Text := none

/-- What is needed to evaluate documents. -/
structure Engine where
  registrations : Registrations := .empty
  templates : Option TemplateSource := none
  render : Renderer
  /-- Providers asked after the registrations and the templates. -/
  furtherProviders : List Provider := []
  /-- What each run does to its context first, in order. -/
  seeds : List (Context → Context) := []
  config : Config := {}

namespace Engine

/-- The provider of the registered descriptors. -/
def codeProvider (r : Registrations) : Provider where
  name := "code".toList
  offer _ := .ok r.descriptors

/-- The provider of the stored templates. -/
def templateProvider (s : TemplateSource) (render : Renderer) : Provider where
  name := "templates".toList
  delay := s.delay
  offer _ :=
    match s.outage with
    | some reason => .error (.store reason)
    | none => .ok (s.store.descriptors render)

/-- All providers, in the order in which they are asked. -/
def providers (e : Engine) : List Provider :=
  codeProvider e.registrations ::
    (e.templates.map (templateProvider · e.render)).toList ++ e.furtherProviders

/-- The engine, if its configuration can be worked with. -/
def build (e : Engine) : Except ConfigError Engine := e.config.validate.map fun _ => e

/-- The context that a run starts with. -/
def seed (e : Engine) (context : Context) : Context :=
  e.seeds.foldl (fun c f => f c) context

/-- The table for a context. -/
def table (e : Engine) (context : Context) : Table := Provider.table e.providers context

/-- What an author can use, sorted by name. -/
def list (e : Engine) (context : Context) : List Info := (e.table (e.seed context)).infos

/-- What a run with this engine looks out for, given its token. -/
def watch (e : Engine) (hasToken : Bool) (cancelAt : Option Nat) (cancelsFirst : Bool := false) :
    Watch where
  hasToken
  cancelAt
  deadline := e.config.timeout
  cancelsFirst

/-- Evaluates a text.  The token, if the run has one, may have been cancelled before, and another
party may cancel it at a time counted from the start of the run. -/
def run (e : Engine) (input : Text) (context : Context) (hasToken : Bool := false)
    (cancelled : Bool := false) (cancelAt : Option Nat := none) (cancelsFirst : Bool := false)
    (pace : Pace := {}) : Report :=
  let context := e.seed context
  let watch := e.watch hasToken cancelAt cancelsFirst
  match watch.await { now := pace.start, cancelled } (Provider.totalDelay e.providers) with
  | (some cause, clock) => ⟨some cause, [], [], context, [], clock⟩
  | (none, clock) =>
    (Document.parse input).evaluatePaced pace ⟨e.table context, e.config, watch⟩ context clock

/-! ## Lemmas -/

section
variable (e : Engine) (input : Text) (context : Context) (hasToken cancelled : Bool)
  (cancelAt : Option Nat) (cancelsFirst : Bool) (pace : Pace)

theorem run_of_await_some {cause : Halt} {clock : Clock}
    (h : (e.watch hasToken cancelAt cancelsFirst).await { now := pace.start, cancelled }
      (Provider.totalDelay e.providers) = (some cause, clock)) :
    e.run input context hasToken cancelled cancelAt cancelsFirst pace =
      ⟨some cause, [], [], e.seed context, [], clock⟩ := by
  simp only [run, h]

theorem run_of_await_none {clock : Clock}
    (h : (e.watch hasToken cancelAt cancelsFirst).await { now := pace.start, cancelled }
      (Provider.totalDelay e.providers) = (none, clock)) :
    e.run input context hasToken cancelled cancelAt cancelsFirst pace =
      (Document.parse input).evaluatePaced pace
        ⟨e.table (e.seed context), e.config, e.watch hasToken cancelAt cancelsFirst⟩
        (e.seed context) clock := by
  simp only [run, h]

/-- At any pace a run is over before its table is built, or evaluates its text with the table. -/
theorem run_halted_or_evaluatePaced :
    (∃ cause t, e.run input context hasToken cancelled cancelAt cancelsFirst pace =
      ⟨some cause, [], [], e.seed context, [], { now := t, cancelled }⟩) ∨
    ∃ built, Provider.totalDelay e.providers = some built ∧
      e.run input context hasToken cancelled cancelAt cancelsFirst pace =
        (Document.parse input).evaluatePaced pace
          ⟨e.table (e.seed context), e.config, e.watch hasToken cancelAt cancelsFirst⟩
          (e.seed context) { now := pace.start + built, cancelled } := by
  have hawait := (e.watch hasToken cancelAt cancelsFirst).await_cases
    { now := pace.start, cancelled } (Provider.totalDelay e.providers)
  rcases hawait with ⟨cause, t, h⟩ | ⟨built, hbuilt, h⟩
  · exact Or.inl ⟨cause, t, run_of_await_some _ _ _ _ _ _ _ _ h⟩
  · exact Or.inr ⟨built, hbuilt, run_of_await_none _ _ _ _ _ _ _ _ h⟩

/-- A run is over before its table is built, or evaluates its text with the table. -/
theorem run_halted_or_evaluate :
    (∃ cause t, e.run input context hasToken cancelled cancelAt cancelsFirst =
      ⟨some cause, [], [], e.seed context, [], { now := t, cancelled }⟩) ∨
    ∃ built, Provider.totalDelay e.providers = some built ∧
      e.run input context hasToken cancelled cancelAt cancelsFirst =
        evaluate ⟨e.table (e.seed context), e.config, e.watch hasToken cancelAt cancelsFirst⟩ input
          (e.seed context) { now := built, cancelled } := by
  rcases e.run_halted_or_evaluatePaced input context hasToken cancelled cancelAt cancelsFirst {} with
    h | ⟨built, hbuilt, h⟩
  · exact Or.inl h
  · rw [Document.evaluatePaced_still, Nat.zero_add] at h
    exact Or.inr ⟨built, hbuilt, h⟩

end

end Engine

end Tagtext
