import Tagtext.Proofs.Grammar
import Tagtext.Proofs.Shift

/-!
# Blanks between arguments

A blank ends whatever argument stands in front of it, as the end of the text
does: a bare word, a name with nothing behind its equals sign, a bare value, a
quoted value.  So what is read of a text is read of it in front of blanks too
(`Reading.extend`), and arguments apart by blanks are read apart:

    lex p a = .ok xs →
      lex base (a ++ w ++ b) = (lex (base + |a| + |w|) b).map (xs ++ ·)     (lex_append_blanks)

How many blanks there are, and which ones, shows in offsets only.  Texts that
differ in nothing but the blanks outside quotes (`Respaced`) spell the same
arguments (`Respaced.lex_eq_ok_iff`).
-/

namespace Tagtext.Arguments

/-! ## Respaced texts -/

/-- What follows this text does not stand in quotes that it opens. -/
def EndsOutside (a : Text) : Prop := ∀ o, lex 0 a ≠ .error (.unterminatedQuote o)

/-- `w` is blank, and does not join what stands in front of it with what stands behind it. -/
structure Separates (a w b : Text) : Prop where
  blank : ∀ c ∈ w, isBlank c = true
  ne_nil : a ≠ [] → b ≠ [] → w ≠ []

/-- Two texts that differ in nothing but the blanks outside quotes: those at the start, those at the
end, and those in between. -/
inductive Respaced : Text → Text → Prop
  | gap {a w w' b : Text} (ha : EndsOutside a) (hw : Separates a w b) (hw' : Separates a w' b) :
      Respaced (a ++ w ++ b) (a ++ w' ++ b)
  | trans {s t u : Text} (h : Respaced s t) (h' : Respaced t u) : Respaced s u

/-! ## Lemmas -/

theorem EndsItem.append {s x : Text} (hs : EndsItem s) (hx : EndsItem x) : EndsItem (s ++ x) := by
  cases s with
  | nil => exact hx
  | cons c s => exact hs

theorem endsItem_blanks {w : Text} (hne : w ≠ []) (hw : ∀ c ∈ w, isBlank c = true) (b : Text) :
    EndsItem (w ++ b) := by
  cases w with
  | nil => exact absurd rfl hne
  | cons c w =>
    intro d hd
    cases hd
    exact hw c List.mem_cons_self

theorem Spelled.extend {u s x : Text} {a : Argument} (h : Spelled u a s) (hx : EndsItem x) :
    Spelled u a (s ++ x) := by
  cases h with
  | quoted hq hv rest => exact .quoted hq hv _
  | word hw hrest => exact .word hw (hrest.append hx)
  | namedQuoted hw hq hv rest => exact .namedQuoted hw hq hv _
  | namedBare hw hb hrest => exact .namedBare hw hb (hrest.append hx)

/-- **What is read of a text** is read of it in front of a blank too. -/
theorem Reading.extend {pos p : Nat} {s rest x : Text} {args : Arguments}
    (h : Reading pos s args p rest) (hx : EndsItem x) :
    Reading pos (s ++ x) args p (rest ++ x) := by
  induction h with
  | here pos s => exact .here pos _
  | blank hc h ih => exact .blank hc ih
  | item hu h ih =>
    rw [List.append_assoc]
    exact .item (hu.extend hx) ih

theorem lex_blanks {w : Text} (hw : ∀ c ∈ w, isBlank c = true) (pos : Nat) (s : Text) :
    lex pos (w ++ s) = lex (pos + byteLength w) s := by
  induction w generalizing pos with
  | nil => rfl
  | cons c w ih =>
    rw [List.forall_mem_cons] at hw
    rw [List.cons_append, lex_blank hw.1, ih hw.2, byteLength_cons, Nat.add_assoc]

/-- Where a text stands does not show in its arguments. -/
theorem lex_eq_ok_anywhere {p : Nat} {s : Text} {args : Arguments} (h : lex p s = .ok args)
    (q : Nat) : lex q s = .ok args := by
  have h0 : lex 0 s = .ok args := by
    have hshift := lex_shift p 0 s
    rw [Nat.add_zero, h] at hshift
    cases h0 : lex 0 s with
    | ok args' =>
      rw [h0] at hshift
      exact hshift.symm
    | error e =>
      rw [h0] at hshift
      cases hshift
  rw [← Nat.add_zero q, lex_shift, h0]
  rfl

/-- What stands behind arguments that a blank or the end of the text ends is read apart from them. -/
theorem lex_append_of_endsItem {p : Nat} {a x : Text} {xs : Arguments} (ha : lex p a = .ok xs)
    (hx : EndsItem x) (base : Nat) :
    lex base (a ++ x) = (lex (base + byteLength a) x).map (xs ++ ·) := by
  obtain ⟨q, hread⟩ := lex_eq_ok_iff.1 (lex_eq_ok_anywhere ha base)
  obtain ⟨u, hu, rfl⟩ := hread.exists_append
  rw [List.append_nil] at hu
  subst hu
  exact (hread.extend hx).lex_eq

/-- **Arguments apart by blanks are read apart.** -/
theorem lex_append_blanks {p : Nat} {a w : Text} {xs : Arguments} (ha : lex p a = .ok xs)
    (hne : w ≠ []) (hw : ∀ c ∈ w, isBlank c = true) (base : Nat) (b : Text) :
    lex base (a ++ w ++ b) =
      (lex (base + byteLength a + byteLength w) b).map (xs ++ ·) := by
  rw [List.append_assoc, lex_append_of_endsItem ha (endsItem_blanks hne hw b), lex_blanks hw]

/-- A text with a fault that is no open quote keeps it, whatever a blank sets off from it. -/
theorem exists_lex_error {a x : Text} {e : ParseError} (ha : EndsOutside a)
    (h : lex 0 a = .error e) (hx : EndsItem x) (base : Nat) :
    ∃ e', lex base (a ++ x) = .error e' := by
  obtain ⟨args, p, rest, hread, hfault⟩ := lex_eq_error_iff.1 h
  cases hfault with
  | unclosed hopen => exact absurd h (ha _)
  | unnamed r =>
    have hlong : lex 0 (a ++ x) = .error (.emptyArgumentName p) :=
      lex_eq_error_iff.2 ⟨args, p, _, hread.extend hx, .unnamed (r ++ x)⟩
    refine ⟨(ParseError.emptyArgumentName p).shift base, ?_⟩
    rw [← Nat.add_zero base, lex_shift, hlong]
    rfl

/-! ## Any change of blanks -/

theorem Separates.endsItem {a w b : Text} (hw : Separates a w b) (ha : a ≠ []) :
    EndsItem (w ++ b) := by
  by_cases hnil : w = []
  · by_cases hb : b = []
    · simp [hnil, hb, EndsItem]
    · exact absurd hnil (hw.ne_nil ha hb)
  · exact endsItem_blanks hnil hw.blank b

/-- What two texts with blanks between them spell does not depend on the blanks. -/
theorem lex_separated_iff {a w b : Text} (ha : EndsOutside a) (hw : Separates a w b) (base : Nat)
    (args : Arguments) : lex base (a ++ w ++ b) = .ok args ↔
      ∃ xs ys, lex 0 a = .ok xs ∧ lex 0 b = .ok ys ∧ args = xs ++ ys := by
  rw [List.append_assoc]
  by_cases hnil : a = []
  · subst hnil
    have hempty : lex 0 [] = .ok [] := by rw [lex.eq_def]
    rw [List.nil_append, lex_blanks hw.blank]
    constructor
    · intro h
      exact ⟨[], args, hempty, lex_eq_ok_anywhere h 0, rfl⟩
    · rintro ⟨xs, ys, hxs, hys, rfl⟩
      rw [hempty] at hxs
      cases hxs
      exact lex_eq_ok_anywhere hys _
  · have hends := hw.endsItem hnil
    cases h : lex 0 a with
    | error e =>
      obtain ⟨e', he'⟩ := exists_lex_error ha h hends base
      rw [he']
      simp
    | ok xs =>
      rw [lex_append_of_endsItem h hends, lex_blanks hw.blank]
      constructor
      · intro hargs
        cases hb : lex (base + byteLength a + byteLength w) b with
        | error e =>
          rw [hb] at hargs
          cases hargs
        | ok ys =>
          rw [hb] at hargs
          cases hargs
          exact ⟨xs, ys, rfl, lex_eq_ok_anywhere hb 0, rfl⟩
      · rintro ⟨xs', ys, hxs, hys, rfl⟩
        cases hxs
        rw [lex_eq_ok_anywhere hys]
        rfl

/-- **Blanks outside quotes do not change the arguments.** -/
theorem Respaced.lex_eq_ok_iff {s t : Text} (h : Respaced s t) (p q : Nat) (args : Arguments) :
    lex p s = .ok args ↔ lex q t = .ok args := by
  induction h generalizing p q with
  | gap ha hw hw' => rw [lex_separated_iff ha hw, lex_separated_iff ha hw']
  | trans h h' ih ih' => exact (ih p p).trans (ih' p q)

/-- **Reading arguments turns blanks into concatenation.**  If `a` spells arguments, then `a`, blanks
and `b` spell these and behind them those that `b` spells; and if `b` is at fault, they have the fault
that `b` has where it stands.  So the blanks at the start of a text, at its end, and between its
arguments, outside quotes, may be exchanged for others, more or fewer, and it spells the same
arguments in the same order. -/
theorem lex_spacing (a w b : Text) (hne : w ≠ []) (hw : ∀ c ∈ w, isBlank c = true) (base : Nat) :
    (∀ p xs, lex p a = .ok xs →
      (∀ q ys, lex q b = .ok ys → lex base (a ++ w ++ b) = .ok (xs ++ ys)) ∧
      ∀ e, lex (base + byteLength a + byteLength w) b = .error e →
        lex base (a ++ w ++ b) = .error e) ∧
    ∀ s t, Respaced s t → ∀ p q args, lex p s = .ok args ↔ lex q t = .ok args := by
  refine ⟨fun p xs ha => ⟨fun q ys hb => ?_, fun e he => ?_⟩, fun s t h => h.lex_eq_ok_iff⟩
  · rw [lex_append_blanks ha hne hw, lex_eq_ok_anywhere hb]
    rfl
  · rw [lex_append_blanks ha hne hw, he]
    rfl

/-- A name without value in front of blanks, and behind them a quote that is not closed. -/
theorem lex_spacing_open_quote :
    let a := "é='\\' ' k=".toList
    let w := "\t\u2003".toList
    let b := " x 'y".toList
    w ≠ [] ∧ (∀ c ∈ w, isBlank c = true) ∧
      lex 5 a = .ok [.named "é".toList "' ".toList, .named "k".toList []] ∧
      lex 7 (a ++ w ++ b) = .error (.unterminatedQuote 25) := by
  intro a w b
  have hall : w.all isBlank = true := by decide +kernel
  have hw : ∀ c ∈ w, isBlank c = true := List.all_eq_true.1 hall
  have ha : lex 5 a = .ok [.named "é".toList "' ".toList, .named "k".toList []] := by
    decide +kernel
  have hb : lex (7 + byteLength a + byteLength w) b = .error (.unterminatedQuote 25) := by
    decide +kernel
  exact ⟨by decide, hw, ha, ((lex_spacing a w b (by decide) hw 7).1 5 _ ha).2 _ hb⟩

end Tagtext.Arguments
