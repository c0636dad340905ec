import Tagtext.Name
import Tagtext.Provider

/-!
# Stored templates

Authors write tags as templates and keep them in a store.  A template answers to
its name by having its content rendered against a model of the call:

* `name`: the tag's name
* `args`: the named arguments, the last of each name
* `positional`: the nameless arguments, in order
* `content`: the tag's evaluated content
* `context`: the context

A template whose name no tag can have is left out.
-/

namespace Tagtext

/-- A tag written by an author. -/
structure Template where
  name : Text
  /-- What is rendered for each tag. -/
  content : Text
  metadata : Metadata := {}
  deriving DecidableEq, Repr

/-- How a template's content is rendered against a model. -/
abbrev Renderer := Text → Json → Except TemplateError Text

namespace Template

/-- What the content of a template is rendered against. -/
def model (t : Template) (args : Arguments) (content : Text) (context : Context) : Json :=
  .ofEntries
    [("name".toList, .string t.name),
     ("args".toList, .object (args.namedMap.map fun (k, v) => (k, .string v))),
     ("positional".toList, .texts args.positionals),
     ("content".toList, .string content),
     ("context".toList, context.toJson)]

/-- The handler that renders a template. -/
def handler (t : Template) (render : Renderer) : Handler :=
  .immediate fun args content context =>
    match render t.content (t.model args content context) with
    | .ok out => (.ok out, context)
    | .error e => (.error (.template e), context)

/-- The descriptor of a template. -/
def descriptor (t : Template) (render : Renderer) : Descriptor :=
  ⟨t.name, .template, t.metadata, t.handler render⟩

/-- The handler of a template renders its model, and leaves the context as it is. -/
theorem handler_eq (t : Template) (render : Renderer) (args : Arguments) (content : Text)
    (context : Context) : t.handler render args content context =
      .finish ((render t.content (t.model args content context)).mapError .template) context
        false := by
  simp only [handler, Handler.immediate]
  cases render t.content (t.model args content context) <;> rfl

end Template

/-- The templates of a store, in the order in which they were stored. -/
structure TemplateStore where
  templates : List Template
  deriving DecidableEq, Repr

namespace TemplateStore

/-- Puts a template in the place of the first with its name, else at the end. -/
def place (t : Template) : List Template → List Template
  | [] => [t]
  | u :: rest => if u.name = t.name then t :: rest else u :: place t rest

/-- Stores a template. -/
def upsert (s : TemplateStore) (t : Template) : TemplateStore := ⟨place t s.templates⟩

/-- The first template with a name. -/
def find? (s : TemplateStore) (name : Text) : Option Template :=
  s.templates.find? (·.name == name)

/-- Takes the first template with a name out of the store. -/
def remove (s : TemplateStore) (name : Text) : TemplateStore :=
  ⟨s.templates.eraseP (·.name == name)⟩

/-- The descriptors of the templates that a tag can name. -/
def descriptors (s : TemplateStore) (render : Renderer) : List Descriptor :=
  (s.templates.filter fun t => isTagName t.name).map (·.descriptor render)

end TemplateStore

end Tagtext
