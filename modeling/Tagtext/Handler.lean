import Tagtext.Argument
import Tagtext.Context

/-!
# Handlers

A handler turns one tag into text.  It is given the tag's arguments, its content
(already evaluated, and empty for a tag that stands alone) and the context.
What it does is a `Work`: a sequence of steps, each of which leaves a context
behind, may cancel the run's token, and finishes, waits, or never ends.
-/

namespace Tagtext

/-- Why a template cannot be rendered. -/
inductive TemplateError where
  /-- It breaks the rules of the template language. -/
  | malformed
  /-- It asks for something that its model does not allow. -/
  | failed
  deriving DecidableEq, Repr

/-- The words that report a template that cannot be rendered. -/
def TemplateError.message : TemplateError → Text
  | malformed => "template syntax error".toList
  | failed => "template render error".toList

/-- Why a handler fails. -/
inductive HandlerError where
  /-- For a reason of its own. -/
  | message (text : Text)
  /-- Its template cannot be rendered. -/
  | template (error : TemplateError)
  /-- For a reason that something it relies on reports. -/
  | other (text : Text)
  deriving DecidableEq, Repr

/-- The words that report a failed handler. -/
def HandlerError.text : HandlerError → Text
  | message t => t
  | template e => e.message
  | other t => t

/-- What a handler does when it is called, step by step. -/
inductive Work where
  /-- A last step that leaves a context and yields a result. -/
  | finish (result : Except HandlerError Text) (context : Context) (cancels : Bool)
  /-- A step that leaves a context and waits for some milliseconds. -/
  | pause (ms : Nat) (context : Context) (cancels : Bool) (next : Work)
  /-- A step that leaves a context and never goes on. -/
  | hang (context : Context) (cancels : Bool)

/-- What is called for a tag. -/
abbrev Handler := Arguments → Text → Context → Work

/-- The handler that is done in one step. -/
def Handler.immediate (f : Arguments → Text → Context → Except HandlerError Text × Context) :
    Handler := fun args content context =>
  let (result, context) := f args content context
  .finish result context false

/-- How long work takes if nothing stops it; `none` if it never ends. -/
def Work.duration : Work → Option Nat
  | finish _ _ _ => some 0
  | pause ms _ _ next => next.duration.map (ms + ·)
  | hang _ _ => none

/-- The result that work ends with and the context it leaves, if it ends. -/
def Work.result : Work → Option (Except HandlerError Text × Context)
  | finish r c _ => some (r, c)
  | pause _ _ _ next => next.result
  | hang _ _ => none

end Tagtext
