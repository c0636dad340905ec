import Mathlib.Data.List.Induction
import Tagtext.Engine
import Tagtext.Proofs.Override

/-!
# One binding for each name

A set of registrations is built up from nothing by registering handlers and by
merging in sets that are built up in the same way (`Build`).  Its history is all
that has been registered on the way, a merged set's part where it is merged in.
Only the history matters:

    b.registrations = the history, registered one by one            (registrations_eq)
    r.get? n = the last registration of n                           (get?_registerAll)
    the names come in the order of their first registrations        (firstAt_lt_registerAll)
    (a.merge b).merge c = a.merge (b.merge c)                       (merge_assoc)

What carries this is that a descriptor may be put into a set before the set is
merged or afterwards (`placeAll_place`).  Since no name comes twice, a table
that is filled with the set finds what the set finds, though the one goes by the
last descriptor of a name and the other by the first (`getLast?_filter`).
-/

namespace Tagtext

/-! ## Building a set -/

/-- One way to register something under a name. -/
inductive Registration where
  /-- A handler that nothing is said about. -/
  | plain (name : Text) (handler : Handler)
  /-- A handler, and how to fill in what is said about it. -/
  | described (name : Text) (handler : Handler) (fill : Metadata → Metadata)
  /-- A function that is done in one step. -/
  | function (name : Text) (f : Arguments → Text → Context → Except HandlerError Text × Context)

namespace Registration

/-- The name that is registered. -/
def name : Registration → Text
  | plain n _ | described n _ _ | function n _ => n

/-- The descriptor that is registered. -/
def descriptor : Registration → Descriptor
  | plain n h => ⟨n, .code, {}, h⟩
  | described n h fill => ⟨n, .code, fill {}, h⟩
  | function n f => ⟨n, .code, {}, .immediate f⟩

/-- The last registration of a name. -/
def last? (name : Text) (gs : List Registration) : Option Registration :=
  (gs.filter (·.name == name)).getLast?

/-- Where a name is registered first. -/
def firstAt (name : Text) (gs : List Registration) : Nat := gs.findIdx (·.name == name)

end Registration

namespace Registrations

/-- Registers something. -/
def register (r : Registrations) : Registration → Registrations
  | .plain n h => r.add n h
  | .described n h fill => r.add n h (fill {})
  | .function n f => r.add n (.immediate f)

/-- Registers one thing after the other. -/
def registerAll (r : Registrations) (gs : List Registration) : Registrations :=
  gs.foldl register r

end Registrations

/-- How a set of registrations is built up. -/
inductive Build where
  | empty
  | register (b : Build) (g : Registration)
  | merge (b other : Build)

namespace Build

/-- The set that is built up. -/
def registrations : Build → Registrations
  | empty => .empty
  | register b g => b.registrations.register g
  | merge b other => b.registrations.merge other.registrations

/-- All that is registered on the way, in order. -/
def history : Build → List Registration
  | empty => []
  | register b g => b.history ++ [g]
  | merge b other => b.history ++ other.history

end Build

/-! ## Putting descriptors into a list -/

namespace Registrations

/-- Puts descriptors into a list one after the other. -/
def placeAll (ds es : List Descriptor) : List Descriptor := es.foldl (fun ds d => place d ds) ds

/-- The names in a list of descriptors. -/
def namesOf (ds : List Descriptor) : List Text := ds.map (·.name)

variable {d e : Descriptor} {ds es : List Descriptor}

@[simp] theorem namesOf_nil : namesOf [] = [] := rfl

@[simp] theorem namesOf_cons (d : Descriptor) (ds : List Descriptor) :
    namesOf (d :: ds) = d.name :: namesOf ds := rfl

@[simp] theorem placeAll_cons (ds : List Descriptor) (e : Descriptor) (es : List Descriptor) :
    placeAll ds (e :: es) = placeAll (place e ds) es := rfl

@[simp] theorem placeAll_concat (ds es : List Descriptor) (e : Descriptor) :
    placeAll ds (es ++ [e]) = place e (placeAll ds es) := by
  unfold placeAll
  rw [List.foldl_concat]

theorem place_cons (d e : Descriptor) (rest : List Descriptor) :
    place d (e :: rest) = if e.name = d.name then d :: rest else e :: place d rest := rfl

theorem register_eq (r : Registrations) (g : Registration) :
    r.register g = ⟨place g.descriptor r.descriptors⟩ := by
  cases g <;> rfl

/-- A new name comes last, and all others stay where they are. -/
theorem namesOf_place (d : Descriptor) (ds : List Descriptor) :
    namesOf (place d ds) =
      if d.name ∈ namesOf ds then namesOf ds else namesOf ds ++ [d.name] := by
  induction ds with
  | nil => simp [place]
  | cons e rest ih =>
    rw [place_cons]
    by_cases he : e.name = d.name
    · simp [he]
    · rw [if_neg he, namesOf_cons, namesOf_cons, ih]
      by_cases hd : d.name ∈ namesOf rest
      · simp [hd]
      · simp [hd, Ne.symm he]

theorem mem_namesOf_place (n : Text) (d : Descriptor) (ds : List Descriptor) :
    n ∈ namesOf (place d ds) ↔ n = d.name ∨ n ∈ namesOf ds := by
  rw [namesOf_place]
  split
  · next hd =>
    constructor
    · exact Or.inr
    · rintro (rfl | h)
      · exact hd
      · exact h
  · rw [List.mem_append, List.mem_singleton, or_comm]

theorem nodup_place (h : (namesOf ds).Nodup) (d : Descriptor) : (namesOf (place d ds)).Nodup := by
  rw [namesOf_place]
  split
  · exact h
  · next hd =>
    rw [List.nodup_append]
    refine ⟨h, List.nodup_singleton _, fun m hm n hn => ?_⟩
    rw [List.mem_singleton.1 hn]
    rintro rfl
    exact hd hm

theorem nodup_placeAll (h : (namesOf ds).Nodup) (es : List Descriptor) :
    (namesOf (placeAll ds es)).Nodup := by
  induction es generalizing ds with
  | nil => exact h
  | cons e es ih => exact ih (nodup_place h e)

theorem find?_place (d : Descriptor) (ds : List Descriptor) (n : Text) :
    (place d ds).find? (·.name == n) = if n = d.name then some d else ds.find? (·.name == n) := by
  induction ds with
  | nil =>
    by_cases hn : n = d.name
    · simp [place, hn]
    · simp [place, hn, Ne.symm hn]
  | cons e rest ih =>
    rw [place_cons]
    by_cases he : e.name = d.name
    · rw [if_pos he]
      by_cases hn : n = d.name
      · simp [hn]
      · simp [hn, he, Ne.symm hn]
    · rw [if_neg he, List.find?_cons, List.find?_cons, ih]
      by_cases hn : n = d.name
      · have hen : (e.name == n) = false := by simpa [hn] using he
        rw [hen, if_pos hn]
      · rw [if_neg hn, if_neg hn]

/-- Of two descriptors with one name the first leaves no trace. -/
theorem place_place (h : d.name = e.name) (ds : List Descriptor) :
    place d (place e ds) = place d ds := by
  induction ds with
  | nil => simp [place, h]
  | cons f rest ih =>
    by_cases hf : f.name = e.name
    · simp [place, hf, h]
    · simp [place, hf, h, ih]

/-- A descriptor whose name is there already may as well be put in first. -/
theorem place_comm (h : d.name ≠ e.name) (hd : d.name ∈ namesOf ds) :
    place d (place e ds) = place e (place d ds) := by
  induction ds with
  | nil => cases hd
  | cons f rest ih =>
    by_cases hfd : f.name = d.name
    · simp [place, hfd, h]
    · have hrest : d.name ∈ namesOf rest := by simpa [Ne.symm hfd] using hd
      by_cases hfe : f.name = e.name
      · simp [place, hfe, Ne.symm h]
      · simp [place, hfe, hfd, ih hrest]

theorem place_placeAll (hd : d.name ∈ namesOf ds) (hes : d.name ∉ namesOf es) :
    place d (placeAll ds es) = placeAll (place d ds) es := by
  induction es generalizing ds with
  | nil => rfl
  | cons e es ih =>
    simp only [namesOf_cons, List.mem_cons, not_or] at hes
    have hmem : d.name ∈ namesOf (place e ds) := (mem_namesOf_place _ e ds).2 (Or.inr hd)
    rw [placeAll_cons, ih hmem hes.2, place_comm hes.1 hd, placeAll_cons]

/-- **A descriptor may be put into a list before the list is merged or afterwards.** -/
theorem placeAll_place (hes : (namesOf es).Nodup) (d : Descriptor) (ds : List Descriptor) :
    placeAll ds (place d es) = place d (placeAll ds es) := by
  induction es generalizing ds with
  | nil => rfl
  | cons e es ih =>
    rw [namesOf_cons, List.nodup_cons] at hes
    rw [place_cons, placeAll_cons]
    split
    · next he =>
      -- the rest does not have the name, so `d` takes the place of `e` at once
      have hd : d.name ∈ namesOf (place e ds) :=
        (mem_namesOf_place _ e ds).2 (Or.inl he.symm)
      rw [place_placeAll hd (by rw [← he]; exact hes.1), place_place he.symm, placeAll_cons]
    · rw [placeAll_cons, ih hes.2]

theorem placeAll_placeAll (hds : (namesOf ds).Nodup) (cs es : List Descriptor) :
    placeAll cs (placeAll ds es) = placeAll (placeAll cs ds) es := by
  induction es using List.reverseRecOn with
  | nil => rfl
  | append_singleton es e ih =>
    rw [placeAll_concat, placeAll_concat, placeAll_place (nodup_placeAll hds es), ih]

/-- **Merging is associative** as soon as no name comes twice in the set in the middle. -/
theorem merge_assoc {b : Registrations} (hb : b.names.Nodup) (a c : Registrations) :
    (a.merge b).merge c = a.merge (b.merge c) :=
  congrArg Registrations.mk (placeAll_placeAll hb a.descriptors c.descriptors).symm

/-- To merge descriptors of code is to add them one by one. -/
theorem merge_eq_foldl_add {other : Registrations}
    (hcode : ∀ d ∈ other.descriptors, d.origin = .code) (r : Registrations) :
    r.merge other =
      other.descriptors.foldl (fun r d => r.add d.name d.handler d.metadata) r := by
  obtain ⟨es⟩ := other
  show (⟨placeAll r.descriptors es⟩ : Registrations) = _
  induction es generalizing r with
  | nil => rfl
  | cons e es ih =>
    rw [List.forall_mem_cons] at hcode
    have hadd : r.add e.name e.handler e.metadata = ⟨place e r.descriptors⟩ := by
      obtain ⟨name, origin, metadata, handler⟩ := e
      obtain rfl : origin = .code := hcode.1
      rfl
    rw [placeAll_cons, List.foldl_cons, hadd]
    exact ih ⟨place e r.descriptors⟩ hcode.2

/-! ## Lists without repeated names -/

theorem find?_of_mem (h : (namesOf ds).Nodup) (hd : d ∈ ds) :
    ds.find? (·.name == d.name) = some d := by
  induction ds with
  | nil => cases hd
  | cons e rest ih =>
    rw [namesOf_cons, List.nodup_cons] at h
    rw [List.find?_cons]
    rcases List.mem_cons.1 hd with rfl | hd
    · simp
    · have hne : (e.name == d.name) = false := by
        have hmem : d.name ∈ namesOf rest := List.mem_map_of_mem hd
        rw [beq_eq_false_iff_ne]
        rintro he
        exact h.1 (he ▸ hmem)
      rw [hne]
      exact ih h.2 hd

/-- The last descriptor of a name is the first. -/
theorem getLast?_filter (h : (namesOf ds).Nodup) (n : Text) :
    (ds.filter (·.name == n)).getLast? = ds.find? (·.name == n) := by
  cases hf : ds.find? (·.name == n) with
  | none =>
    rw [List.getLast?_eq_none_iff, List.filter_eq_nil_iff]
    exact List.find?_eq_none.1 hf
  | some d =>
    have hmem : d ∈ ds.filter (·.name == n) := by
      have hname := List.find?_some hf
      exact List.mem_filter.2 ⟨List.mem_of_find?_eq_some hf, hname⟩
    cases hl : (ds.filter (·.name == n)).getLast? with
    | none =>
      rw [List.getLast?_eq_none_iff.1 hl] at hmem
      cases hmem
    | some e =>
      have he := List.mem_filter.1 (List.mem_of_getLast? hl)
      have hfind := find?_of_mem h he.1
      rw [eq_of_beq he.2, hf] at hfind
      exact hfind.symm

/-! ## What is registered one by one -/

theorem registerAll_eq (r : Registrations) (gs : List Registration) :
    r.registerAll gs = ⟨placeAll r.descriptors (gs.map (·.descriptor))⟩ := by
  induction gs generalizing r with
  | nil => rfl
  | cons g gs ih =>
    rw [registerAll, List.foldl_cons, register_eq]
    exact ih _

theorem registerAll_append (r : Registrations) (gs ks : List Registration) :
    r.registerAll (gs ++ ks) = (r.registerAll gs).registerAll ks :=
  List.foldl_append

theorem registerAll_concat (r : Registrations) (gs : List Registration) (g : Registration) :
    r.registerAll (gs ++ [g]) = (r.registerAll gs).register g := registerAll_append r gs [g]

/-- To merge what is registered from nothing is to register it. -/
theorem merge_registerAll (r : Registrations) (gs : List Registration) :
    r.merge (empty.registerAll gs) = r.registerAll gs := by
  have hnil : (namesOf []).Nodup := List.nodup_nil
  rw [registerAll_eq, registerAll_eq]
  exact congrArg Registrations.mk (placeAll_placeAll hnil r.descriptors _)

theorem nodup_names_registerAll (gs : List Registration) : (empty.registerAll gs).names.Nodup := by
  have hnil : (namesOf []).Nodup := List.nodup_nil
  rw [registerAll_eq]
  exact nodup_placeAll hnil _

theorem name_descriptor (g : Registration) : g.descriptor.name = g.name := by
  cases g <;> rfl

theorem origin_descriptor (g : Registration) : g.descriptor.origin = .code := by
  cases g <;> rfl

/-- **A name has what was registered last under it.** -/
theorem get?_registerAll (gs : List Registration) (n : Text) :
    (empty.registerAll gs).get? n = (Registration.last? n gs).map (·.descriptor) := by
  induction gs using List.reverseRecOn with
  | nil => rfl
  | append_singleton gs g ih =>
    rw [registerAll_concat, register_eq, get?, find?_place, name_descriptor]
    rw [get?] at ih
    by_cases hn : n = g.name
    · simp [Registration.last?, hn]
    · simp [Registration.last?, hn, Ne.symm hn, ih]

theorem mem_names_registerAll (gs : List Registration) (n : Text) :
    n ∈ (empty.registerAll gs).names ↔ ∃ g ∈ gs, g.name = n := by
  induction gs using List.reverseRecOn with
  | nil => simp [registerAll, names, empty]
  | append_singleton gs g ih =>
    have hplace := mem_namesOf_place n g.descriptor (empty.registerAll gs).descriptors
    rw [registerAll_concat, register_eq]
    refine hplace.trans ?_
    rw [name_descriptor, show n ∈ namesOf (empty.registerAll gs).descriptors ↔ _ from ih]
    simp only [List.mem_append, List.mem_singleton, or_and_right, exists_or, exists_eq_left]
    rw [or_comm, eq_comm (a := n)]

theorem firstAt_lt_length {gs : List Registration} {n : Text} :
    Registration.firstAt n gs < gs.length ↔ n ∈ (empty.registerAll gs).names := by
  rw [mem_names_registerAll, Registration.firstAt, List.findIdx_lt_length]
  simp

/-- A name keeps the place of its first registration; a new one is registered last. -/
theorem firstAt_concat (gs : List Registration) (g : Registration) (n : Text) :
    (n ∈ (empty.registerAll gs).names →
        Registration.firstAt n (gs ++ [g]) = Registration.firstAt n gs) ∧
      (n ∉ (empty.registerAll gs).names → gs.length ≤ Registration.firstAt n (gs ++ [g])) := by
  rw [← firstAt_lt_length]
  unfold Registration.firstAt
  rw [List.findIdx_append]
  constructor
  · intro h
    rw [if_pos h]
  · intro h
    rw [if_neg h]
    exact Nat.le_add_left _ _

/-- **The names come in the order of their first registrations.** -/
theorem firstAt_lt_registerAll (gs : List Registration) : (empty.registerAll gs).names.Pairwise
    fun m n => Registration.firstAt m gs < Registration.firstAt n gs := by
  induction gs using List.reverseRecOn with
  | nil => exact List.Pairwise.nil
  | append_singleton gs g ih =>
    have hold : (empty.registerAll gs).names.Pairwise fun m n =>
        Registration.firstAt m (gs ++ [g]) < Registration.firstAt n (gs ++ [g]) := by
      refine ih.imp_of_mem fun hm hn h => ?_
      rw [(firstAt_concat gs g _).1 hm, (firstAt_concat gs g _).1 hn]
      exact h
    rw [registerAll_concat, register_eq]
    show (namesOf (place g.descriptor (empty.registerAll gs).descriptors)).Pairwise _
    rw [namesOf_place]
    split
    · exact hold
    · next hnew =>
      rw [name_descriptor] at hnew ⊢
      refine List.pairwise_append.2 ⟨hold, List.pairwise_singleton _ _, fun m hm n hn => ?_⟩
      rw [List.mem_singleton.1 hn, (firstAt_concat gs g m).1 hm]
      exact Nat.lt_of_lt_of_le (firstAt_lt_length.2 hm) ((firstAt_concat gs g g.name).2 hnew)

/-- What is in the set of registrations is what was registered last under its name. -/
theorem exists_last?_of_mem {gs : List Registration} {d : Descriptor}
    (hd : d ∈ (empty.registerAll gs).descriptors) :
    ∃ g, Registration.last? d.name gs = some g ∧ d = g.descriptor := by
  have hget : (empty.registerAll gs).get? d.name = some d :=
    find?_of_mem (nodup_names_registerAll gs) hd
  rw [get?_registerAll, Option.map_eq_some_iff] at hget
  obtain ⟨g, hg, rfl⟩ := hget
  exact ⟨g, hg, rfl⟩

/-! ## The table of a set -/

/-- In a table a set of registrations alone resolves each name as the set does. -/
theorem get?_table_codeProvider {r : Registrations} (hr : r.names.Nodup)
    (hcode : ∀ d ∈ r.descriptors, d.origin = .code) (context : Context) (n : Text) :
    (Provider.table [Engine.codeProvider r] context).get? n = r.get? n := by
  have hoffers : Provider.offers [Engine.codeProvider r] context = r.descriptors := by
    simp [Provider.offers, Engine.codeProvider, Except.toOption]
  have htemplate : Descriptor.last? n .template r.descriptors = none := by
    rw [Descriptor.last?_eq_none]
    intro d hd _
    rw [hcode d hd]
    decide
  have hfilter : r.descriptors.filter (·.isOf n .code) = r.descriptors.filter (·.name == n) := by
    refine List.filter_congr fun d hd => ?_
    simp [Descriptor.isOf, hcode d hd]
  rw [Provider.get?_table, hoffers, Descriptor.winner?, htemplate, Option.none_or, Descriptor.last?,
    hfilter, getLast?_filter hr]
  rfl

end Registrations

/-! ## Sets that are built up -/

/-- **Only the history matters**: merged sets might as well have been registered on the spot. -/
theorem Build.registrations_eq (b : Build) :
    b.registrations = Registrations.empty.registerAll b.history := by
  induction b with
  | empty => rfl
  | register b g ih =>
    rw [registrations, history, Registrations.registerAll_concat, ih]
  | merge b other ihb iho =>
    rw [registrations, history, Registrations.registerAll_append, iho,
      Registrations.merge_registerAll, ihb]

/-- **One binding for each name.**  However a set of registrations is built up, no name comes twice
in it; the names come in the order of their first registrations; and each has the descriptor, with
all that is said about it, that was registered last.  To merge a set is to register what it holds one
by one, or all that was ever registered in it; and merging is associative.  A table that is built from
the set alone resolves every name as the set does. -/
theorem registrations_binding (b : Build) :
    let r := b.registrations
    r.names.Nodup ∧
    (∀ n, n ∈ r.names ↔ ∃ g ∈ b.history, g.name = n) ∧
    r.names.Pairwise (fun m n =>
      Registration.firstAt m b.history < Registration.firstAt n b.history) ∧
    (∀ d ∈ r.descriptors, ∃ g, Registration.last? d.name b.history = some g ∧ d = g.descriptor) ∧
    (∀ n, r.get? n = (Registration.last? n b.history).map (·.descriptor)) ∧
    (∀ other : Build,
      r.merge other.registrations =
        other.registrations.descriptors.foldl (fun r d => r.add d.name d.handler d.metadata) r ∧
      r.merge other.registrations = r.registerAll other.history) ∧
    (∀ c d : Build, (r.merge c.registrations).merge d.registrations =
      r.merge (c.registrations.merge d.registrations)) ∧
    ∀ context n, (Provider.table [Engine.codeProvider r] context).get? n = r.get? n := by
  intro r
  have hr : r = Registrations.empty.registerAll b.history := b.registrations_eq
  have hnodup : ∀ c : Build, c.registrations.names.Nodup := by
    intro c
    rw [c.registrations_eq]
    exact Registrations.nodup_names_registerAll c.history
  have hlast : ∀ c : Build, ∀ d ∈ c.registrations.descriptors,
      ∃ g, Registration.last? d.name c.history = some g ∧ d = g.descriptor := by
    intro c d hd
    rw [c.registrations_eq] at hd
    exact Registrations.exists_last?_of_mem hd
  have hcode : ∀ c : Build, ∀ d ∈ c.registrations.descriptors, d.origin = .code := by
    intro c d hd
    obtain ⟨g, _, rfl⟩ := hlast c d hd
    exact Registrations.origin_descriptor g
  refine ⟨hnodup b, fun n => ?_, ?_, hlast b, fun n => ?_, fun other => ⟨?_, ?_⟩,
    fun c d => Registrations.merge_assoc (hnodup c) r d.registrations,
    Registrations.get?_table_codeProvider (hnodup b) (hcode b)⟩
  · rw [hr]
    exact Registrations.mem_names_registerAll b.history n
  · rw [hr]
    exact Registrations.firstAt_lt_registerAll b.history
  · rw [hr]
    exact Registrations.get?_registerAll b.history n
  · exact Registrations.merge_eq_foldl_add (hcode other) r
  · rw [other.registrations_eq, Registrations.merge_registerAll]

end Tagtext
