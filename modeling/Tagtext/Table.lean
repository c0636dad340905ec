import Tagtext.Descriptor

/-!
# Tables

A table resolves tag names to descriptors.  Of two descriptors with one name, a
template wins over code in whatever order they come; of two with one origin the
later wins.  Its view is `t.get? n`:

    (t.insert d).1 = false ↔ a template has the name and `d` is code  (fst_insert)
    (t.insert d).2.get? d.name = some d, unless refused               (get?_insert)
-/

namespace Tagtext

/-- Descriptors by name, in increasing order of the names. -/
structure Table where
  entries : Dictionary Descriptor

namespace Table

/-- The table without any name. -/
def empty : Table := ⟨[]⟩

/-- The descriptor that answers to a name. -/
def get? (t : Table) (name : Text) : Option Descriptor := Dictionary.get? t.entries name

/-- Whether a name is answered to. -/
def contains (t : Table) (name : Text) : Bool := (t.get? name).isSome

/-- Whether a name belongs to a template and so is closed to descriptors of code. -/
def refuses (t : Table) (d : Descriptor) : Bool :=
  d.origin == .code && (t.get? d.name).any (·.origin == .template)

/-- Adds a descriptor, and tells whether it got its name. -/
def insert (t : Table) (d : Descriptor) : Bool × Table :=
  if t.refuses d then (false, t) else (true, ⟨Dictionary.insert d.name d t.entries⟩)

/-- Adds descriptors one after the other. -/
def insertAll (t : Table) (ds : List Descriptor) : Table :=
  ds.foldl (fun t d => (t.insert d).2) t

/-- The names, in increasing order. -/
def names (t : Table) : List Text := Dictionary.keys t.entries

/-- The descriptors, in increasing order of their names. -/
def descriptors (t : Table) : List Descriptor := t.entries.map (·.2)

/-- The summaries, in increasing order of their names. -/
def infos (t : Table) : List Info := t.descriptors.map (·.info)

/-- The number of names. -/
def size (t : Table) : Nat := t.entries.length

/-- How many names belong to an origin. -/
def countOrigin (t : Table) (o : Origin) : Nat := t.descriptors.countP (·.origin == o)

/-! ## Lemmas -/

@[simp] theorem get?_empty (n : Text) : empty.get? n = none := rfl

theorem fst_insert (t : Table) (d : Descriptor) : (t.insert d).1 = !t.refuses d := by
  unfold insert
  cases t.refuses d <;> rfl

theorem get?_insert (t : Table) (d : Descriptor) (n : Text) :
    (t.insert d).2.get? n = if n = d.name ∧ t.refuses d = false then some d else t.get? n := by
  unfold insert
  by_cases h : t.refuses d = true
  · simp [h]
  · simp [h, get?, Dictionary.get?_insert]

end Table

end Tagtext
