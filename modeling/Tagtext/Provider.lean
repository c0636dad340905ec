import Tagtext.Table

/-!
# Providers

A provider offers descriptors for a context, and takes some time to do so, or
never answers.  A table is built by asking providers in turn; one that fails is
passed over.
-/

namespace Tagtext

/-- Why a provider offers nothing. -/
inductive ProviderError where
  /-- Its store cannot be read. -/
  | store (reason : Text)
  /-- What is stored is no list of templates. -/
  | invalid
  deriving DecidableEq, Repr

/-- The words that report a failed provider. -/
def ProviderError.message : ProviderError → Text
  | store reason => "template store unavailable: ".toList ++ reason
  | invalid => "invalid template definition".toList

/-- A source of descriptors. -/
structure Provider where
  name : Text
  /-- How long it takes to answer, in milliseconds; `none` if it never does. -/
  delay : Option Nat := some 0
  offer : Context → Except ProviderError (List Descriptor)

namespace Provider

/-- What a provider adds to a table: its offer, or nothing if it fails. -/
def descriptors (p : Provider) (context : Context) : List Descriptor :=
  match p.offer context with
  | .ok ds => ds
  | .error _ => []

/-- The table that providers fill for a context. -/
def table (providers : List Provider) (context : Context) : Table :=
  providers.foldl (fun t p => t.insertAll (p.descriptors context)) .empty

/-- How long it takes to ask all providers; `none` if one of them never answers. -/
def totalDelay (providers : List Provider) : Option Nat :=
  providers.foldr (fun p total => p.delay.bind fun ms => total.map (ms + ·)) (some 0)

end Provider

end Tagtext
