import Tagtext.Proofs.Override
import Tagtext.TemplateStore

/-!
# What code and templates see of arguments

Code asks for one argument at a time, and searches the list from its end or
counts through it.  A template is given two collections: the named values by
name and the others in order.  Both see the same arguments:

    args.named? n = args.namedMap.get? n                            (named?_eq_get?)
    args.at? i = args.positionals[i]?                               (at?_eq_getElem?)

so that the collections determine every lookup, and the lookups determine the
collections (`agree_iff`).  How named and nameless arguments alternate, and what
an earlier argument of a repeated name said, is seen by neither.
-/

namespace Tagtext

namespace Arguments

/-- The last argument of this name has this value. -/
def LastNamed (args : Arguments) (name value : Text) : Prop :=
  ∃ before after, args = before ++ .named name value :: after ∧ ∀ a ∈ after, a.name ≠ some name

/-- Every lookup finds the same in both lists. -/
structure Agree (a b : Arguments) : Prop where
  named : ∀ name, a.named? name = b.named? name
  namedOr : ∀ name default, a.namedOr name default = b.namedOr name default
  positional : ∀ index, a.at? index = b.at? index
  positionalOr : ∀ index default, a.atOr index default = b.atOr index default
  namedOrAt : ∀ name index, a.namedOrAt? name index = b.namedOrAt? name index

/-- The named values, in the order they are written. -/
def namedPairs (args : Arguments) : List (Text × Text) :=
  args.filterMap fun a => a.name.map fun n => (n, a.value)

end Arguments

/-! ## Lemmas -/

/-- A dictionary built from a list binds a key to what the last entry of that key says. -/
theorem Dictionary.get?_ofList {α : Type} (entries : List (Text × α)) (k : Text) :
    Dictionary.get? (Dictionary.ofList entries) k =
      (entries.reverse.find? (·.1 == k)).map (·.2) := by
  induction entries using List.reverseRecOn with
  | nil => rfl
  | append_singleton entries e ih =>
    have hconcat : ofList (entries ++ [e]) = Dictionary.insert e.1 e.2 (ofList entries) := by
      simp [ofList]
    rw [hconcat, get?_insert, ih, List.reverse_concat, List.find?_cons]
    by_cases h : e.1 = k
    · simp [h]
    · have hne : (e.1 == k) = false := by simpa using h
      rw [if_neg (Ne.symm h), hne]

namespace Arguments

theorem namedMap_eq (args : Arguments) : args.namedMap = Dictionary.ofList args.namedPairs := rfl

/-- The search from the end stops at the same argument with and without the nameless ones. -/
theorem named?_eq_get? (args : Arguments) (name : Text) :
    args.named? name = Dictionary.get? args.namedMap name := by
  have hpairs : args.namedPairs.reverse =
      args.reverse.filterMap fun a => a.name.map fun n => (n, a.value) := by
    simp [namedPairs]
  rw [namedMap_eq, Dictionary.get?_ofList, hpairs, named?]
  induction args.reverse with
  | nil => rfl
  | cons a rest ih =>
    cases hn : a.name with
    | none => simpa [hn] using ih
    | some n =>
      by_cases h : n = name
      · simp [hn, h]
      · simpa [hn, h] using ih

theorem at?_eq_getElem? (args : Arguments) (index : Nat) :
    args.at? index = args.positionals[index]? := by
  simp [at?, positionals]

theorem namedOrAt?_eq (args : Arguments) (name : Text) (index : Nat) :
    args.namedOrAt? name index = (args.named? name).or (args.at? index) := by
  unfold namedOrAt?
  cases args.named? name <;> rfl

theorem named?_eq_some_iff (args : Arguments) (name value : Text) :
    args.named? name = some value ↔ args.LastNamed name value := by
  constructor
  · intro h
    obtain ⟨a, hfind, rfl⟩ := Option.map_eq_some_iff.1 h
    obtain ⟨hname, after, before, hsplit, hnone⟩ := List.find?_eq_some_iff_append.1 hfind
    refine ⟨before.reverse, after.reverse, ?_, fun x hx => ?_⟩
    · have ha : a = .named name a.value := by
        cases a
        simpa [Argument.named] using hname
      rw [← ha, ← List.reverse_reverse args, hsplit]
      simp
    · simpa using hnone x (List.mem_reverse.1 hx)
  · rintro ⟨before, after, rfl, hafter⟩
    have hnone : after.reverse.find? (·.name == some name) = none := by
      simpa [List.find?_eq_none] using hafter
    simp [named?, List.find?_append, hnone, Argument.named]

theorem Agree.of_collections {a b : Arguments} (hnamed : a.namedMap = b.namedMap)
    (hpos : a.positionals = b.positionals) : Agree a b := by
  have named : ∀ name, a.named? name = b.named? name := fun name => by
    rw [named?_eq_get?, named?_eq_get?, hnamed]
  have positional : ∀ index, a.at? index = b.at? index := fun index => by
    rw [at?_eq_getElem?, at?_eq_getElem?, hpos]
  exact {
    named, positional
    namedOr := fun name default => by rw [Arguments.namedOr, Arguments.namedOr, named]
    positionalOr := fun index default => by rw [atOr, atOr, positional]
    namedOrAt := fun name index => by rw [namedOrAt?_eq, namedOrAt?_eq, named, positional] }

theorem sorted_namedMap (args : Arguments) : Dictionary.Sorted args.namedMap :=
  Dictionary.sorted_ofList _

/-- The collections that a template is given hold what the lookups find, no more and no less. -/
theorem agree_iff {a b : Arguments} :
    Agree a b ↔ a.namedMap = b.namedMap ∧ a.positionals = b.positionals := by
  refine ⟨fun h => ⟨?_, ?_⟩, fun h => .of_collections h.1 h.2⟩
  · refine Dictionary.Sorted.ext a.sorted_namedMap b.sorted_namedMap fun name => ?_
    rw [← named?_eq_get?, ← named?_eq_get?, h.named]
  · refine List.ext_getElem? fun index => ?_
    rw [← at?_eq_getElem?, ← at?_eq_getElem?, h.positional]

end Arguments

/-! ## Templates -/

/-- What a template's content is rendered against, member by member. -/
theorem Template.model_eq (t : Template) (args : Arguments) (content : Text) (context : Context) :
    t.model args content context = .object
      [("args".toList, .object (args.namedMap.map fun (k, v) => (k, .string v))),
       ("content".toList, .string content), ("context".toList, context.toJson),
       ("name".toList, .string t.name), ("positional".toList, .texts args.positionals)] := by
  rfl

/-- A model shows which arguments it was built from, up to what a lookup can tell apart. -/
theorem Template.model_eq_iff (t : Template) (a b : Arguments) (content : Text)
    (context : Context) :
    t.model a content context = t.model b content context ↔
      a.namedMap = b.namedMap ∧ a.positionals = b.positionals := by
  have hentry : Function.Injective fun e : Text × Text => (e.1, Json.string e.2) := by
    rintro ⟨k, v⟩ ⟨k', v'⟩ h
    simpa using h
  have hstring : Function.Injective Json.string := fun _ _ => Json.string.inj
  simp [model_eq, Json.texts, (List.map_injective_iff.2 hentry).eq_iff,
    (List.map_injective_iff.2 hstring).eq_iff]

theorem Template.handler_congr {t : Template} {render : Renderer} {a b : Arguments}
    (h : ∀ content context, t.model a content context = t.model b content context) :
    t.handler render a = t.handler render b := by
  funext content context
  rw [handler_eq, handler_eq, h]

/-- **Code and templates see the same arguments.**  For every list of arguments, a lookup by name
finds what the map of the named values binds the name to, which is the value of the last argument
of that name; a lookup by position finds the item of the list of nameless values; and a lookup by
both takes the first of the two that there is.  Two lists have the same two collections if and
only if no lookup, with or without a default, tells them apart, and if and only if a template's
model is the same for both, whatever the template, the content and the context.  The template's handler
renders its content against this model and does nothing else, so it does the same work for both. -/
theorem lookups_determine_models :
    (∀ (args : Arguments) (name : Text) (index : Nat),
      args.named? name = Dictionary.get? args.namedMap name ∧
      (∀ value, args.named? name = some value ↔ args.LastNamed name value) ∧
      args.at? index = args.positionals[index]? ∧
      args.namedOrAt? name index =
        (Dictionary.get? args.namedMap name).or args.positionals[index]?) ∧
    (∀ (t : Template) (render : Renderer) (args : Arguments) (content : Text) (context : Context),
      t.handler render args content context =
        .finish ((render t.content (t.model args content context)).mapError .template) context
          false) ∧
    ∀ a b : Arguments,
      (a.Agree b ↔ a.namedMap = b.namedMap ∧ a.positionals = b.positionals) ∧
      (∀ (t : Template) (content : Text) (context : Context),
        t.model a content context = t.model b content context ↔
          a.namedMap = b.namedMap ∧ a.positionals = b.positionals) ∧
      (a.namedMap = b.namedMap → a.positionals = b.positionals →
        ∀ (t : Template) (render : Renderer), t.handler render a = t.handler render b) := by
  refine ⟨fun args name index => ⟨?_, ?_, ?_, ?_⟩, Template.handler_eq, fun a b => ⟨?_, ?_, ?_⟩⟩
  · exact args.named?_eq_get? name
  · exact args.named?_eq_some_iff name
  · exact args.at?_eq_getElem? index
  · rw [args.namedOrAt?_eq, args.named?_eq_get?, args.at?_eq_getElem?]
  · exact Arguments.agree_iff
  · exact fun t content context => t.model_eq_iff a b content context
  · intro hnamed hpos t render
    exact Template.handler_congr fun content context =>
      (t.model_eq_iff a b content context).2 ⟨hnamed, hpos⟩

/-- The arguments of `[t k=1 'x' k=2]` and of `[t 'x' k=2]` in a template. -/
theorem lookups_determine_models_repeated :
    let a : Arguments := [.named ['k'] ['1'], .positional ['x'], .named ['k'] ['2']]
    let b : Arguments := [.positional ['x'], .named ['k'] ['2']]
    a ≠ b ∧ a.namedMap = b.namedMap ∧ a.positionals = b.positionals ∧ a.Agree b ∧
      ∀ (t : Template) (render : Renderer), t.handler render a = t.handler render b := by
  intro a b
  have hnamed : a.namedMap = b.namedMap := by decide +kernel
  have hpos : a.positionals = b.positionals := by decide +kernel
  obtain ⟨hagree, -, hhandler⟩ := lookups_determine_models.2.2 a b
  exact ⟨by decide +kernel, hnamed, hpos, hagree.2 ⟨hnamed, hpos⟩, hhandler hnamed hpos⟩

end Tagtext
