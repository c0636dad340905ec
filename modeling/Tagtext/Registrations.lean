import Tagtext.Descriptor

/-!
# Registrations

The descriptors that a program registers when it starts, in the order in which
their names first came.  Registering a name again puts the new descriptor in the
old one's place.
-/

namespace Tagtext

/-- Descriptors of code, one for each name, in the order of first registration. -/
structure Registrations where
  descriptors : List Descriptor

namespace Registrations

/-- No registration. -/
def empty : Registrations := ⟨[]⟩

/-- Puts a descriptor in the place of the first with its name, else at the end. -/
def place (d : Descriptor) : List Descriptor → List Descriptor
  | [] => [d]
  | e :: rest => if e.name = d.name then d :: rest else e :: place d rest

/-- Registers a handler under a name. -/
def add (r : Registrations) (name : Text) (handler : Handler) (metadata : Metadata := {}) :
    Registrations := ⟨place ⟨name, .code, metadata, handler⟩ r.descriptors⟩

/-- Registers all that another set registers. -/
def merge (r other : Registrations) : Registrations :=
  ⟨other.descriptors.foldl (fun ds d => place d ds) r.descriptors⟩

/-- The descriptor registered under a name. -/
def get? (r : Registrations) (name : Text) : Option Descriptor :=
  r.descriptors.find? (·.name == name)

/-- The registered names, in order. -/
def names (r : Registrations) : List Text := r.descriptors.map (·.name)

/-- How many names are registered. -/
def size (r : Registrations) : Nat := r.descriptors.length

end Registrations

end Tagtext
