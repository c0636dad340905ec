import Mathlib.Data.List.Induction
import Mathlib.Data.List.Sort
import Tagtext.Provider

/-!
# Which descriptor answers to a name

A table takes descriptors one at a time, and whether it takes one depends on
what it holds by then.  What comes out depends on the origins alone and, for one
origin, on the order: a name belongs to its last template, and without any
template to its last descriptor of code (`winner?`).

    (Table.empty.insertAll ds).get? n = winner? n ds                (get?_insertAll)
    (table ps c).get? n = winner? n (offers ps c)                   (table_overrides)

Tables that are built by insertion are sorted, so equal winners mean equal
tables (`Table.IsSorted.ext`): the order of descriptors with different names or
origins, and failing providers, leave no trace in a table.
-/

namespace Tagtext

namespace Descriptor

/-- Whether a descriptor has this name and this origin. -/
def isOf (d : Descriptor) (name : Text) (o : Origin) : Bool := d.name == name && d.origin == o

/-- The last descriptor of this name and this origin. -/
def last? (name : Text) (o : Origin) (ds : List Descriptor) : Option Descriptor :=
  (ds.filter (·.isOf name o)).getLast?

/-- The descriptor that a name belongs to: its last template, else its last descriptor of code. -/
def winner? (name : Text) (ds : List Descriptor) : Option Descriptor :=
  (last? name .template ds).or (last? name .code ds)

end Descriptor

namespace Provider

/-- Whether a provider makes an offer. -/
def answers (context : Context) (p : Provider) : Bool := (p.offer context).isOk

/-- All that the providers that do not fail offer, in the order of the providers. -/
def offers (providers : List Provider) (context : Context) : List Descriptor :=
  (providers.filterMap fun p => (p.offer context).toOption).flatten

end Provider

/-! ## Dictionaries and tables -/

/-- In a sorted dictionary a key is bound to what its entry says. -/
theorem Dictionary.mem_iff {α : Type} {d : Dictionary α} (h : d.Sorted) (e : Text × α) :
    e ∈ d ↔ Dictionary.get? d e.1 = some e.2 := by
  induction d with
  | nil => simp
  | cons f d ih =>
    obtain ⟨hlt, hd⟩ := List.pairwise_cons.1 h
    rw [List.mem_cons, Dictionary.get?_cons]
    by_cases hk : f.1 = e.1
    · rw [if_pos hk]
      constructor
      · rintro (rfl | he)
        · rfl
        · exact absurd (hlt e he) (by rw [hk]; exact List.lt_irrefl _)
      · intro hv
        exact Or.inl (Prod.ext hk.symm (Option.some.inj hv).symm)
    · rw [if_neg hk, ← ih hd]
      constructor
      · rintro (rfl | he)
        · exact absurd rfl hk
        · exact he
      · exact Or.inr

/-- Sorted dictionaries with one view are one dictionary. -/
theorem Dictionary.Sorted.ext {α : Type} {d d' : Dictionary α} (h : d.Sorted) (h' : d'.Sorted)
    (hget : ∀ k, Dictionary.get? d k = Dictionary.get? d' k) : d = d' := by
  have : Std.Irrefl fun a b : Text × α => a.1 < b.1 := ⟨fun a => List.lt_irrefl a.1⟩
  refine List.Pairwise.eq_of_mem_iff h h' fun e => ?_
  rw [mem_iff h, mem_iff h', hget]

namespace Table

/-- The names strictly increase. -/
def IsSorted (t : Table) : Prop := Dictionary.Sorted t.entries

theorem IsSorted.ext {t t' : Table} (h : t.IsSorted) (h' : t'.IsSorted)
    (hget : ∀ n, t.get? n = t'.get? n) : t = t' := by
  obtain ⟨entries⟩ := t
  obtain ⟨entries'⟩ := t'
  exact congrArg Table.mk (Dictionary.Sorted.ext h h' hget)

theorem IsSorted.insert {t : Table} (h : t.IsSorted) (d : Descriptor) :
    (t.insert d).2.IsSorted := by
  unfold Table.insert
  split
  · exact h
  · exact Dictionary.sorted_insert h d.name d

theorem insertAll_append (t : Table) (ds ds' : List Descriptor) :
    t.insertAll (ds ++ ds') = (t.insertAll ds).insertAll ds' := List.foldl_append

theorem insertAll_concat (t : Table) (ds : List Descriptor) (d : Descriptor) :
    t.insertAll (ds ++ [d]) = ((t.insertAll ds).insert d).2 := t.insertAll_append ds [d]

theorem isSorted_insertAll (ds : List Descriptor) : (empty.insertAll ds).IsSorted := by
  induction ds using List.reverseRecOn with
  | nil => exact List.Pairwise.nil
  | append_singleton ds d ih =>
    rw [insertAll_concat]
    exact ih.insert d

/-- A table is closed to a descriptor of code whose name a template has, and to nothing else. -/
theorem refuses_iff (t : Table) (d : Descriptor) :
    t.refuses d = true ↔
      d.origin = .code ∧ ∃ e, t.get? d.name = some e ∧ e.origin = .template := by
  simp [refuses, Option.any_eq_true]

end Table

/-! ## Winners -/

namespace Descriptor

theorem last?_concat (name : Text) (o : Origin) (ds : List Descriptor) (d : Descriptor) :
    last? name o (ds ++ [d]) = if d.isOf name o then some d else last? name o ds := by
  unfold last?
  by_cases h : d.isOf name o = true
  · simp [h]
  · simp [h]

theorem isOf_of_last? {name : Text} {o : Origin} {ds : List Descriptor} {d : Descriptor}
    (h : last? name o ds = some d) : d ∈ ds ∧ d.name = name ∧ d.origin = o := by
  have hmem := List.mem_of_getLast? h
  simpa [isOf] using hmem

theorem last?_eq_none {name : Text} {o : Origin} {ds : List Descriptor} :
    last? name o ds = none ↔ ∀ d ∈ ds, d.name = name → d.origin ≠ o := by
  simp [last?, isOf]

/-- The winner is a template just when there is a template. -/
theorem exists_winner?_template {name : Text} {ds : List Descriptor} :
    (∃ e, winner? name ds = some e ∧ e.origin = .template) ↔
      (last? name .template ds).isSome = true := by
  unfold winner?
  cases ht : last? name .template ds with
  | some e => simpa using (isOf_of_last? ht).2.2
  | none =>
    simp only [Option.none_or, Option.isSome_none, Bool.false_eq_true, iff_false]
    rintro ⟨e, he, horigin⟩
    rw [(isOf_of_last? he).2.2] at horigin
    cases horigin

/-- One more descriptor wins its name unless it is code and the name has a template. -/
theorem winner?_concat (name : Text) (ds : List Descriptor) (d : Descriptor) :
    winner? name (ds ++ [d]) =
      if name = d.name ∧ ¬ (d.origin = .code ∧ (last? name .template ds).isSome = true) then some d
      else winner? name ds := by
  unfold winner?
  rw [last?_concat, last?_concat]
  by_cases hn : name = d.name
  · subst hn
    cases ho : d.origin with
    | template => simp [isOf, ho]
    | code => cases ht : last? d.name .template ds <;> simp [isOf, ho]
  · simp [isOf, hn, Ne.symm hn]

/-- A name is nobody's just when no descriptor has it. -/
theorem winner?_eq_none {name : Text} {ds : List Descriptor} :
    winner? name ds = none ↔ ∀ d ∈ ds, d.name ≠ name := by
  simp only [winner?, Option.or_eq_none_iff, last?_eq_none]
  constructor
  · rintro ⟨ht, hc⟩ d hd hname
    cases ho : d.origin with
    | template => exact ht d hd hname ho
    | code => exact hc d hd hname ho
  · exact fun h => ⟨fun d hd hname => absurd hname (h d hd), fun d hd hname => absurd hname (h d hd)⟩

end Descriptor

open Descriptor

/-- **A table filled from nothing holds the winners.** -/
theorem Table.get?_insertAll (ds : List Descriptor) (n : Text) :
    (empty.insertAll ds).get? n = winner? n ds := by
  induction ds using List.reverseRecOn generalizing n with
  | nil => rfl
  | append_singleton ds d ih =>
    have hrefuses : (empty.insertAll ds).refuses d = false ↔
        ¬ (d.origin = .code ∧ (last? d.name .template ds).isSome = true) := by
      rw [← exists_winner?_template, ← ih d.name, ← refuses_iff, Bool.not_eq_true]
    rw [insertAll_concat, get?_insert, winner?_concat, ih]
    by_cases hn : n = d.name
    · subst hn
      simp only [true_and, hrefuses]
    · simp [hn]

namespace Provider

theorem table_eq_insertAll (providers : List Provider) (context : Context) :
    table providers context = Table.empty.insertAll (offers providers context) := by
  unfold table
  generalize Table.empty = t
  induction providers generalizing t with
  | nil => rfl
  | cons p ps ih =>
    rw [List.foldl_cons, ih]
    cases hp : p.offer context with
    | ok ds => simp [offers, descriptors, hp, Except.toOption, Table.insertAll]
    | error e => simp [offers, descriptors, hp, Except.toOption, Table.insertAll]

/-- Providers that fail offer nothing. -/
theorem offers_filter_answers (providers : List Provider) (context : Context) :
    offers (providers.filter (answers context)) context = offers providers context := by
  unfold offers
  rw [List.filterMap_filter]
  congr 2
  funext p
  cases hp : p.offer context with
  | ok ds => simp [answers, hp, Except.isOk, Except.toBool, Except.toOption]
  | error e => simp [answers, hp, Except.isOk, Except.toBool, Except.toOption]

/-- A table holds the winners among the offers. -/
theorem get?_table (providers : List Provider) (context : Context) (n : Text) :
    (table providers context).get? n = winner? n (offers providers context) := by
  rw [table_eq_insertAll, Table.get?_insertAll]

theorem mem_offers {providers : List Provider} {context : Context} {d : Descriptor} :
    d ∈ offers providers context ↔ ∃ p ∈ providers, ∃ ds, p.offer context = .ok ds ∧ d ∈ ds := by
  simp only [offers, List.mem_flatten, List.mem_filterMap]
  constructor
  · rintro ⟨ds, ⟨p, hp, hds⟩, hd⟩
    cases ho : p.offer context with
    | ok ds' =>
      rw [ho] at hds
      cases hds
      exact ⟨p, hp, ds, ho, hd⟩
    | error e =>
      rw [ho] at hds
      cases hds
  · rintro ⟨p, hp, ds, ho, hd⟩
    exact ⟨ds, ⟨p, hp, by rw [ho]; rfl⟩, hd⟩

/-- Winners alone make a table. -/
theorem table_congr {providers others : List Provider} {context context' : Context}
    (h : ∀ n o, last? n o (offers others context') = last? n o (offers providers context)) :
    table others context' = table providers context := by
  rw [table_eq_insertAll, table_eq_insertAll]
  refine (Table.isSorted_insertAll _).ext (Table.isSorted_insertAll _) fun n => ?_
  rw [Table.get?_insertAll, Table.get?_insertAll, winner?, winner?, h, h]

/-- **Templates override code, and later descriptors earlier ones.**  A table maps a name to the last
template of that name among all that the answering providers offer, else to the last descriptor of
code, and to nothing if nobody offers the name.  So it does not matter how descriptors that differ in
name or origin are ordered, nor which providers fail besides.  A descriptor is refused just when it
is code and the name has a template; then the table stays as it was. -/
theorem table_overrides (providers : List Provider) (context : Context) :
    (∀ n, (table providers context).get? n = winner? n (offers providers context)) ∧
    (∀ n, (table providers context).get? n = none ↔
      ∀ p ∈ providers, ∀ ds, p.offer context = .ok ds → ∀ d ∈ ds, d.name ≠ n) ∧
    (∀ others context', (∀ n o, (offers others context').filter (·.isOf n o) =
        (offers providers context).filter (·.isOf n o)) →
      table others context' = table providers context) ∧
    (∀ others, others.filter (answers context) = providers.filter (answers context) →
      table others context = table providers context) ∧
    ∀ (t : Table) (d : Descriptor),
      ((t.insert d).1 = false ↔
        d.origin = .code ∧ ∃ e, t.get? d.name = some e ∧ e.origin = .template) ∧
      ((t.insert d).1 = false → (t.insert d).2 = t) := by
  refine ⟨get?_table providers context, fun n => ?_, fun others context' h => ?_,
    fun others h => ?_, fun t d => ⟨?_, fun h => ?_⟩⟩
  · rw [get?_table, winner?_eq_none]
    constructor
    · exact fun h p hp ds ho d hd => h d (mem_offers.2 ⟨p, hp, ds, ho, hd⟩)
    · intro h d hd
      obtain ⟨p, hp, ds, ho, hd⟩ := mem_offers.1 hd
      exact h p hp ds ho d hd
  · refine table_congr fun n o => ?_
    unfold last?
    rw [h]
  · refine table_congr fun n o => ?_
    rw [← offers_filter_answers others, h, offers_filter_answers]
  · rw [Table.fst_insert, Bool.not_eq_false', Table.refuses_iff]
  · rw [Table.fst_insert, Bool.not_eq_false'] at h
    unfold Table.insert
    rw [if_pos h]

/-- A template in front of code of its name, and a provider that fails. -/
theorem table_overrides_template_first :
    let f (t : Text) : Handler := .immediate fun _ _ c => (.ok t, c)
    let template : Descriptor := ⟨['b'], .template, {}, f ['1']⟩
    let code : Descriptor := ⟨['b'], .code, {}, f ['2']⟩
    let other : Descriptor := ⟨['a'], .code, {}, f ['3']⟩
    let first : Provider := ⟨['x'], some 0, fun _ => .ok [template, other]⟩
    let failing : Provider := ⟨['y'], some 0, fun _ => .error .invalid⟩
    let second : Provider := ⟨['z'], some 5, fun _ => .ok [code]⟩
    (∀ n o, (offers [second, first] .empty).filter (·.isOf n o) =
        (offers [first, failing, second] .empty).filter (·.isOf n o)) ∧
      table [second, first] .empty = table [first, failing, second] .empty ∧
      (table [first, failing, second] .empty).get? ['b'] = some template := by
  intro f template code other first failing second
  have hfilter : ∀ n o, (offers [second, first] .empty).filter (·.isOf n o) =
      (offers [first, failing, second] .empty).filter (·.isOf n o) := by
    intro n o
    have hleft : offers [second, first] .empty = [code, template, other] := rfl
    have hright : offers [first, failing, second] .empty = [template, other, code] := rfl
    rw [hleft, hright]
    by_cases hb : ['b'] = n
    · subst hb
      cases o <;> rfl
    · cases o <;> simp [List.filter_cons, Descriptor.isOf, template, code, other, hb]
  obtain ⟨hget, _, hreorder, _⟩ := table_overrides [first, failing, second] .empty
  exact ⟨hfilter, hreorder _ _ hfilter, (hget ['b']).trans rfl⟩

end Provider

end Tagtext
