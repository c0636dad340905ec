import Tagtext.Text

/-!
# Dictionaries

A dictionary binds texts to values and keeps its entries in increasing order of
their keys, compared by code point.  Its view is the look-up `d.get? k`:

    (d.insert k v).get? j = if j = k then some v else d.get? j      (get?_insert)
    (d.erase k).get? j = if j = k then none else d.get? j           (get?_erase)

and a dictionary built by these operations is sorted (`Sorted`), so that equal
views mean equal dictionaries.
-/

namespace Tagtext

/-- Texts bound to values, in increasing order of the texts. -/
abbrev Dictionary (α : Type) := List (Text × α)

namespace Dictionary

variable {α : Type}

/-- The keys strictly increase. -/
def Sorted (d : Dictionary α) : Prop := d.Pairwise fun a b => a.1 < b.1

/-- The value bound to a key. -/
def get? (d : Dictionary α) (key : Text) : Option α :=
  (d.find? (·.1 == key)).map (·.2)

/-- Binds a key to a value, in place of what it was bound to. -/
def insert (key : Text) (value : α) : Dictionary α → Dictionary α
  | [] => [(key, value)]
  | (k, v) :: rest =>
    if key = k then (key, value) :: rest
    else if key < k then (key, value) :: (k, v) :: rest
    else (k, v) :: insert key value rest

/-- Takes away what a key is bound to. -/
def erase (d : Dictionary α) (key : Text) : Dictionary α := d.filter (·.1 != key)

/-- The keys, in increasing order. -/
def keys (d : Dictionary α) : List Text := d.map (·.1)

/-- Whether a key is bound. -/
def contains (d : Dictionary α) (key : Text) : Bool := (d.get? key).isSome

/-- The entries of a list, a later one in place of an earlier one with its key. -/
def ofList (entries : List (Text × α)) : Dictionary α :=
  entries.foldl (fun d (k, v) => d.insert k v) []

/-! ## Lemmas -/

@[simp] theorem get?_nil (k : Text) : get? ([] : Dictionary α) k = none := rfl

theorem get?_cons (e : Text × α) (d : Dictionary α) (k : Text) :
    get? (e :: d) k = if e.1 = k then some e.2 else get? d k := by
  by_cases h : e.1 = k <;> simp [get?, h]

theorem get?_insert (k : Text) (v : α) (d : Dictionary α) (j : Text) :
    (d.insert k v).get? j = if j = k then some v else d.get? j := by
  induction d with
  | nil => simp [insert, get?_cons, eq_comm]
  | cons e d ih =>
    obtain ⟨k', v'⟩ := e
    unfold insert
    split
    · next h =>
      subst h
      by_cases hj : j = k
      · simp [get?_cons, hj]
      · simp [get?_cons, hj, Ne.symm hj]
    · next h =>
      split
      · by_cases hj : j = k
        · simp [get?_cons, hj]
        · simp [get?_cons, hj, Ne.symm hj]
      · rw [get?_cons, get?_cons, ih]
        by_cases hj : j = k
        · subst hj; simp [Ne.symm h]
        · simp [hj]

theorem get?_erase (d : Dictionary α) (k j : Text) :
    (d.erase k).get? j = if j = k then none else d.get? j := by
  induction d with
  | nil => simp [erase]
  | cons e d ih =>
    unfold erase at *
    rw [List.filter_cons]
    by_cases h : e.1 = k
    · simp only [h, bne_self_eq_false, Bool.false_eq_true, if_false, ih, get?_cons]
      by_cases hj : j = k
      · simp [hj]
      · simp [hj, Ne.symm hj]
    · simp only [bne_iff_ne, ne_eq, h, not_false_eq_true, if_true, get?_cons, ih]
      by_cases hj : j = k
      · subst hj; simp [h]
      · simp [hj]

theorem mem_insert {k : Text} {v : α} {d : Dictionary α} {e : Text × α}
    (h : e ∈ d.insert k v) : e = (k, v) ∨ e ∈ d := by
  induction d with
  | nil => simpa [insert] using h
  | cons f d ih =>
    unfold insert at h
    grind

theorem sorted_insert {d : Dictionary α} (h : d.Sorted) (k : Text) (v : α) :
    (d.insert k v).Sorted := by
  induction d with
  | nil => simp [insert, Sorted]
  | cons e d ih =>
    obtain ⟨k', v'⟩ := e
    obtain ⟨hlt, hd⟩ := List.pairwise_cons.1 h
    unfold insert
    split
    · next hk => subst hk; exact List.pairwise_cons.2 ⟨hlt, hd⟩
    · next hk =>
      split
      · next hkk =>
        refine List.pairwise_cons.2 ⟨fun a ha => ?_, h⟩
        rcases List.mem_cons.1 ha with rfl | ha
        · exact hkk
        · exact List.lt_trans hkk (hlt a ha)
      · next hkk =>
        refine List.pairwise_cons.2 ⟨fun a ha => ?_, ih hd⟩
        rcases mem_insert ha with rfl | ha
        · have := List.not_lt.1 hkk
          grind
        · exact hlt a ha

theorem sorted_erase {d : Dictionary α} (h : d.Sorted) (k : Text) : (d.erase k).Sorted :=
  List.Pairwise.filter _ h

theorem sorted_ofList (entries : List (Text × α)) : (ofList entries).Sorted := by
  have step : ∀ (es : List (Text × α)) (d : Dictionary α), d.Sorted →
      (es.foldl (fun d (k, v) => d.insert k v) d).Sorted := by
    intro es
    induction es with
    | nil => exact fun d h => h
    | cons e es ih => exact fun d h => ih _ (sorted_insert h e.1 e.2)
  exact step entries [] List.Pairwise.nil

end Dictionary

end Tagtext
