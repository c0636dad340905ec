import Tagtext.Template.Reader
import Tagtext.TemplateStore

/-!
# Rendering templates

`Template.render` renders the text of a template against a model, a JSON object
whose members are the names in reach, in front of the functions that every
template can call.  Inside a loop `loop` tells how far it has come.
-/

namespace Tagtext

namespace Template

mutual

/-- A scope with what a target gives to a value; a target of several parts needs a list of as many,
or a mapping of as many keys. -/
def Target.bind (v : Value) (s : Scope) : Target → Except TemplateError Scope
  | .name n => .ok ((n, v) :: s)
  | .several targets =>
    match v.parts? with
    | some vs => bindParts vs s targets
    | none => .error .failed

/-- A scope with what targets give to as many values. -/
def bindParts (vs : List Value) (s : Scope) : List Target → Except TemplateError Scope
  | [] => if vs.isEmpty then .ok s else .error .failed
  | t :: rest =>
    match vs with
    | [] => .error .failed
    | v :: vs => do bindParts vs (← t.bind v s) rest

end

/-- Puts the outputs for all items one after the other, the first item being number `index`. -/
def forEach (render : Nat → Value → Except TemplateError Text) :
    Nat → List Value → Except TemplateError Text
  | _, [] => .ok []
  | index, v :: rest => do
    let out ← render index v
    let more ← forEach render (index + 1) rest
    .ok (out ++ more)

mutual

/-- The output of a part. -/
def Part.render (s : Scope) : Part → Except TemplateError Text
  | .text t => .ok t
  | .output e => do .ok (← e.eval s).display
  | .choice condition body otherwise => do
    if (← condition.eval s).truth then renderAll s body else renderAll s otherwise
  | .loop target e body otherwise => do
    let v ← e.eval s
    match v.visit? with
    | none => .error .failed
    | some [] => renderAll s otherwise
    | some items =>
      forEach (fun index item => do
        let state : Value := .loop index items v.isCounted
        let inner ← target.bind item (("loop".toList, state) :: s)
        renderAll inner body)
        0 items

/-- The output of parts, one after the other. -/
def renderAll (s : Scope) : List Part → Except TemplateError Text
  | [] => .ok []
  | p :: rest => do
    let out ← p.render s
    let more ← renderAll s rest
    .ok (out ++ more)

end

/-- The names in reach of every template. -/
def functions : Scope :=
  [Function.range, .mapping, .record, .report].map fun f => (f.name, .function f)

/-- Renders a template against a model. -/
def render : Renderer := fun template model =>
  match read? template with
  | none => .error .malformed
  | some parts =>
    match model with
    | .object members => renderAll (Value.ofMembers members ++ functions) parts
    | _ => renderAll functions parts

end Template

end Tagtext
