import Mathlib.Data.List.Basic
import Tagtext.Engine
import Tagtext.Proofs.Override
import Tagtext.TemplateFile

/-!
# Edits of stored templates

A store puts a template in the place of the first one with its name, or takes the
first one away.  A table resolves a name to the last template that has it.  So an
edit shows in the table just when no other template has the same name:

    last? (edit s e) n = what e leaves      if n is the name of e and s has it once at most
    last? (edit s e) n = last? s n          otherwise                         (last?_edit)

No edit makes a second template of a name (`length_withName_edit_le`).  A store
that starts without repeated names is therefore a map from names to templates
all along; one that starts with a repeated name hides the edits of that name
until all but one of its templates are taken away.
-/

namespace Tagtext

/-- A change to a store. -/
inductive StoreEdit where
  | upsert (t : Template)
  | remove (name : Text)
  deriving DecidableEq, Repr

namespace StoreEdit

/-- The name that an edit is about. -/
def name : StoreEdit → Text
  | upsert t => t.name
  | remove n => n

/-- What an edit leaves in the place of the template it takes away. -/
def leaves : StoreEdit → Option Template
  | upsert t => some t
  | remove _ => none

end StoreEdit

namespace TemplateStore

/-- Makes a change. -/
def edit (s : TemplateStore) : StoreEdit → TemplateStore
  | .upsert t => s.upsert t
  | .remove n => s.remove n

/-- Makes changes one after the other. -/
def editAll (s : TemplateStore) (es : List StoreEdit) : TemplateStore := es.foldl edit s

/-- The templates with a name, in the order in which they are stored. -/
def withName (s : TemplateStore) (name : Text) : List Template :=
  s.templates.filter (·.name == name)

/-- The last template with a name. -/
def last? (s : TemplateStore) (name : Text) : Option Template := (s.withName name).getLast?

/-- The table built from a store alone. -/
def table (s : TemplateStore) (render : Renderer) (context : Context) : Table :=
  Provider.table [Engine.templateProvider { store := s } render] context

/-! ## Lemmas -/

theorem filter_place (t : Template) (ts : List Template) (n : Text) :
    (place t ts).filter (·.name == n) =
      if n = t.name then t :: (ts.filter (·.name == n)).tail else ts.filter (·.name == n) := by
  induction ts with
  | nil =>
    by_cases hn : n = t.name
    · simp [place, hn]
    · simp [place, hn, Ne.symm hn]
  | cons u rest ih =>
    unfold place
    by_cases hu : u.name = t.name
    · rw [if_pos hu]
      by_cases hn : n = t.name
      · simp [hn, hu]
      · simp [hn, hu, Ne.symm hn]
    · rw [if_neg hu, List.filter_cons, ih, List.filter_cons]
      by_cases hn : n = t.name
      · subst hn
        simp [hu]
      · simp [hn]

theorem filter_eraseP (ts : List Template) (m n : Text) :
    (ts.eraseP (·.name == m)).filter (·.name == n) =
      if n = m then (ts.filter (·.name == n)).tail else ts.filter (·.name == n) := by
  induction ts with
  | nil => simp
  | cons u rest ih =>
    rw [List.eraseP_cons]
    by_cases hu : u.name = m
    · subst hu
      by_cases hn : n = u.name
      · simp [hn]
      · simp [hn, Ne.symm hn]
    · have hm : (u.name == m) = false := by simpa using hu
      rw [hm, cond_false, List.filter_cons, ih, List.filter_cons]
      by_cases hn : n = m
      · subst hn
        simp [hu]
      · simp [hn]

/-- **An edit changes the first of the templates with its name**, and nothing else. -/
theorem withName_edit (s : TemplateStore) (e : StoreEdit) (n : Text) :
    (s.edit e).withName n =
      if n = e.name then e.leaves.toList ++ (s.withName n).tail else s.withName n := by
  cases e with
  | upsert t => exact filter_place t s.templates n
  | remove m => exact filter_eraseP s.templates m n

/-- No edit makes a second template of a name. -/
theorem length_withName_edit_le {s : TemplateStore} {n : Text} (h : (s.withName n).length ≤ 1)
    (e : StoreEdit) : ((s.edit e).withName n).length ≤ 1 := by
  have hleaves : e.leaves.toList.length ≤ 1 := by cases e <;> simp [StoreEdit.leaves]
  rw [withName_edit]
  split
  · rw [List.length_append, List.length_tail]
    omega
  · exact h

theorem length_withName_editAll_le {s : TemplateStore} {n : Text} (h : (s.withName n).length ≤ 1)
    (es : List StoreEdit) : ((s.editAll es).withName n).length ≤ 1 := by
  induction es generalizing s with
  | nil => exact h
  | cons e es ih => exact ih (length_withName_edit_le h e)

/-- **An edit shows just when no other template has its name.** -/
theorem last?_edit (s : TemplateStore) (e : StoreEdit) (n : Text) :
    (s.edit e).last? n =
      if n = e.name ∧ (s.withName n).length ≤ 1 then e.leaves else s.last? n := by
  unfold last?
  rw [withName_edit]
  by_cases hn : n = e.name
  · cases hs : s.withName n with
    | nil => cases e <;> simp [hn, StoreEdit.leaves]
    | cons t rest =>
      cases rest with
      | nil => cases e <;> simp [hn, StoreEdit.leaves]
      | cons u rest =>
        -- the last template stands behind the one that is changed
        have hlast : (e.leaves.toList ++ u :: rest).getLast? = (u :: rest).getLast? :=
          List.getLast?_append_of_ne_nil _ (List.cons_ne_nil u rest)
        simp [hn, hlast]
  · simp [hn]

/-- What a run of edits leaves under a name that the store has once at most: what the last of its
edits leaves. -/
theorem last?_editAll {s : TemplateStore} {n : Text} (h : (s.withName n).length ≤ 1)
    (es : List StoreEdit) :
    (s.editAll es).last? n =
      ((es.filter (·.name == n)).getLast?.map StoreEdit.leaves).getD (s.last? n) := by
  induction es using List.reverseRecOn with
  | nil => rfl
  | append_singleton es e ih =>
    have hconcat : s.editAll (es ++ [e]) = (s.editAll es).edit e := by simp [editAll]
    rw [hconcat, last?_edit, List.filter_append]
    by_cases hn : n = e.name
    · have hlen : ((s.editAll es).withName e.name).length ≤ 1 :=
        length_withName_editAll_le (hn ▸ h) es
      simp [hn, hlen]
    · simp [hn, Ne.symm hn, ih]

section
variable (s : TemplateStore) (render : Renderer) (context : Context)

/-- **A table built from a store** resolves a name to the last template that has it, if tags can. -/
theorem get?_table (n : Text) :
    (s.table render context).get? n =
      if isTagName n then (s.last? n).map (·.descriptor render) else none := by
  have hoffers : Provider.offers [Engine.templateProvider { store := s } render] context =
      s.descriptors render := List.append_nil _
  have hcode : Descriptor.last? n .code (s.descriptors render) = none := by
    rw [Descriptor.last?_eq_none]
    intro d hd _ horigin
    obtain ⟨t, _, ht⟩ := List.mem_map.1 hd
    rw [← ht] at horigin
    cases horigin
  have hfilter : (s.descriptors render).filter (·.isOf n .template) =
      if isTagName n then (s.withName n).map (·.descriptor render) else [] := by
    unfold descriptors withName
    rw [List.filter_map, List.filter_filter]
    split
    · next hname =>
      congr 1
      refine List.filter_congr fun t _ => ?_
      by_cases ht : t.name = n
      · simp [Template.descriptor, Descriptor.isOf, ht, hname]
      · simp [Template.descriptor, Descriptor.isOf, ht]
    · next hname =>
      rw [List.map_eq_nil_iff, List.filter_eq_nil_iff]
      intro t _ ht
      simp only [Function.comp, Template.descriptor, Descriptor.isOf, Bool.and_eq_true,
        beq_iff_eq] at ht
      rw [ht.1.1] at ht
      exact hname ht.2
  rw [table, Provider.get?_table, hoffers, Descriptor.winner?, hcode, Option.or_none,
    Descriptor.last?, hfilter]
  split
  · rw [last?, List.getLast?_map]
  · rfl

/-- In a table an edit changes what its own name resolves to, and that only if no other template has
the name. -/
theorem get?_table_edit (e : StoreEdit) (n : Text) :
    ((s.edit e).table render context).get? n =
      if n = e.name ∧ (s.withName n).length ≤ 1 then
        if isTagName n then e.leaves.map (·.descriptor render) else none
      else (s.table render context).get? n := by
  rw [get?_table, get?_table, last?_edit]
  by_cases h : n = e.name ∧ (s.withName n).length ≤ 1
  · rw [if_pos h, if_pos h]
  · rw [if_neg h, if_neg h]

end

/-- **Edits take effect in the next table, unless a name is repeated.**  After any edits of a store
and for any name that at most one of its templates has, a template that is put in is what the name
resolves to in the table built next, with its content and its metadata, and a name that is taken out
resolves to nothing.  A name that several templates have resolves to what it did before its edit.  No
edit touches another name.  Edits never repeat a name; one that the store had once at most at the
start resolves to what the last of its edits has left. -/
theorem table_editAll (s : TemplateStore) (es : List StoreEdit) (render : Renderer)
    (context : Context) :
    let now := s.editAll es
    (∀ t, isTagName t.name = true → (now.withName t.name).length ≤ 1 →
      ((now.upsert t).table render context).get? t.name = some (t.descriptor render)) ∧
    (∀ n, (now.withName n).length ≤ 1 → ((now.remove n).table render context).get? n = none) ∧
    (∀ e, 2 ≤ (now.withName e.name).length →
      ((now.edit e).table render context).get? e.name = (now.table render context).get? e.name) ∧
    (∀ e n, n ≠ e.name →
      ((now.edit e).table render context).get? n = (now.table render context).get? n) ∧
    ∀ n, (s.withName n).length ≤ 1 → (now.withName n).length ≤ 1 ∧
      (now.table render context).get? n = if isTagName n then
          (((es.filter (·.name == n)).getLast?.map StoreEdit.leaves).getD (s.last? n)).map
            (·.descriptor render)
        else none := by
  intro now
  refine ⟨fun t hname h => ?_, fun n h => ?_, fun e h => ?_, fun e n hn => ?_, fun n h => ⟨?_, ?_⟩⟩
  · have hedit := now.get?_table_edit render context (.upsert t) t.name
    rwa [if_pos ⟨rfl, h⟩, if_pos hname] at hedit
  · have hedit := now.get?_table_edit render context (.remove n) n
    rw [if_pos ⟨rfl, h⟩] at hedit
    exact hedit.trans (by split <;> rfl)
  · rw [get?_table_edit, if_neg]
    rintro ⟨_, hle⟩
    omega
  · rw [get?_table_edit, if_neg]
    rintro ⟨he, _⟩
    exact hn he
  · exact length_withName_editAll_le h es
  · rw [get?_table, last?_editAll h]

/-- A template put in behind edits of its name and of another one. -/
theorem table_editAll_tidy :
    let s : TemplateStore := ⟨[⟨['a'], ['1'], {}⟩, ⟨['b'], ['2'], {}⟩]⟩
    let es : List StoreEdit := [.remove ['a'], .upsert ⟨['b'], ['3'], {}⟩, .upsert ⟨['a'], ['4'], {}⟩]
    let t : Template := ⟨['a'], ['5'], { hint := some ['h'] }⟩
    let render : Renderer := fun content _ => .ok content
    isTagName t.name = true ∧ ((s.editAll es).withName t.name).length ≤ 1 ∧
      (((s.editAll es).upsert t).table render .empty).get? ['a'] = some (t.descriptor render) ∧
      (((s.editAll es).remove ['a']).table render .empty).get? ['a'] = none := by
  intro s es t render
  have hname : isTagName t.name = true := by decide
  have hlen : ((s.editAll es).withName t.name).length ≤ 1 := by decide
  obtain ⟨hupsert, hremove, _⟩ := table_editAll s es render .empty
  exact ⟨hname, hlen, hupsert t hname hlen, hremove ['a'] hlen⟩

/-- A template file may repeat a name; then neither edit of that name shows in the next table, and
its tags come to what the second template says. -/
theorem table_editAll_repeated :
    let file := "[{name: a, content: one}, {name: a, content: two}]".toList
    let s : TemplateStore := ⟨[⟨['a'], "one".toList, {}⟩, ⟨['a'], "two".toList, {}⟩]⟩
    let t : Template := ⟨['a'], "three".toList, {}⟩
    let render : Renderer := fun content _ => .ok content
    let output (s : TemplateStore) :=
      (evaluate ⟨s.table render .empty, {}, {}⟩ "[a/]".toList .empty).output
    (parse file).toOption = some s ∧ isTagName t.name = true ∧
      output (s.upsert t) = "two".toList ∧
      ((s.upsert t).table render .empty).get? ['a'] ≠ some (t.descriptor render) ∧
      output (s.remove ['a']) = "two".toList ∧
      ((s.remove ['a']).table render .empty).get? ['a'] ≠ none := by
  intro file s t render output
  have hupsert : output (s.upsert t) = "two".toList := by decide +kernel
  have hremove : output (s.remove ['a']) = "two".toList := by decide +kernel
  refine ⟨by decide +kernel, by decide, hupsert, fun h => ?_, hremove, ?_⟩
  · have hresult : (((s.upsert t).table render .empty).get? ['a']).bind
        (fun d => (d.handler [] [] .empty).result.map (·.1)) = some (.ok "two".toList) := by
      rw [get?_table]
      rfl
    rw [h] at hresult
    cases hresult
  · rw [get?_table]
    exact Option.some_ne_none _

end TemplateStore

end Tagtext
