import Mathlib.Data.List.Basic
import Tagtext.Quoted

/-!
# Quoted values, as written and as read

`skipQuoted` and `readQuoted` find the same closing quote; the value read is the
text in between without the backslashes that take a character literally.

    readQuoted q s = (skipQuoted q s).map fun (inside, rest) =>
      (unescape inside.dropLast, rest)                              (readQuoted_eq)
    readQuoted q (escape t ++ q :: rest) = some (t, rest)           (readQuoted_escape)

The second holds of every value that does not end in a backslash, and no value
that is read ends in one (`getLast?_of_readQuoted`): in front of the closing
quote a backslash would take the quote literally.

What quotes may enclose is said without a reader by `Unbroken`:

    skipQuoted q s = some (v ++ [q], rest) ↔ Unbroken q v ∧ s = v ++ q :: rest
                                                                    (skipQuoted_eq_some_iff)
-/

namespace Tagtext

/-- A text without the backslashes that take the character behind them literally. -/
def unescape : Text → Text
  | [] => []
  | [c] => [c]
  | c :: d :: r =>
    if c = '\\' ∧ isEscapable d = true then d :: unescape r else c :: unescape (d :: r)

/-- A text with a backslash in front of each character that one takes literally. -/
def escape : Text → Text
  | [] => []
  | c :: r => if isEscapable c then '\\' :: c :: escape r else c :: escape r

/-! ## Lemmas -/

theorem isEscapable_of_isQuote {c : Char} (h : isQuote c = true) : isEscapable c = true := by
  simp only [isQuote, isEscapable, Bool.or_eq_true] at *
  exact Or.inl (Or.inl h)

theorem ne_backslash_of_isEscapable {c : Char} (h : isEscapable c = true) : c ≠ '\\' := by
  rintro rfl
  cases h

theorem ne_bracket_of_isQuote {c : Char} (h : isQuote c = true) : c ≠ ']' ∧ c ≠ '[' := by
  constructor
  · rintro rfl
    cases h
  · rintro rfl
    cases h

/-- What is skipped ends in the closing quote. -/
theorem getLast?_of_skipQuoted {q : Char} {s inside rest : Text}
    (h : skipQuoted q s = some (inside, rest)) : inside.getLast? = some q := by
  fun_induction skipQuoted q s generalizing inside rest with
  | case1 => cases h
  | case2 =>
    cases h
    rfl
  | case3 => cases h
  | case4 c d r _ ih =>
    obtain ⟨⟨a, b⟩, hab, he⟩ := Option.map_eq_some_iff.1 h
    cases he
    simp [List.getLast?_cons, ih hab]
  | case5 =>
    cases h
    rfl
  | case6 c d r _ _ ih =>
    obtain ⟨⟨a, b⟩, hab, he⟩ := Option.map_eq_some_iff.1 h
    cases he
    simp [List.getLast?_cons, ih hab]

theorem ne_nil_of_skipQuoted {q : Char} {s inside rest : Text}
    (h : skipQuoted q s = some (inside, rest)) : inside ≠ [] := by
  rintro rfl
  cases getLast?_of_skipQuoted h

theorem readQuoted_backslash {q d : Char} (r : Text) (hd : isEscapable d = true) :
    readQuoted q ('\\' :: d :: r) =
      (readQuoted q r).map fun (value, rest) => (d :: value, rest) := by
  rw [readQuoted]
  simp [hd]

theorem readQuoted_lone_backslash {q d : Char} (r : Text) (hd : isEscapable d = false) :
    readQuoted q ('\\' :: d :: r) =
      (readQuoted q (d :: r)).map fun (value, rest) => ('\\' :: value, rest) := by
  rw [readQuoted]
  simp [hd]

theorem readQuoted_quote {q : Char} (r : Text) (hq : q ≠ '\\') :
    readQuoted q (q :: r) = some ([], r) := by
  rw [readQuoted]
  · simp
  · exact hq

theorem readQuoted_other {q c : Char} (r : Text) (hc : c ≠ '\\') (hq : c ≠ q) :
    readQuoted q (c :: r) = (readQuoted q r).map fun (value, rest) => (c :: value, rest) := by
  rw [readQuoted]
  · simp [hq]
  · exact hc

/-- **The two readers of quoted values agree.**  They find the same closing quote, and the value
read is what stands in front of it, unescaped. -/
theorem readQuoted_eq {q : Char} (hq : isQuote q = true) (s : Text) :
    readQuoted q s =
      (skipQuoted q s).map fun (inside, rest) => (unescape inside.dropLast, rest) := by
  have hslash : q ≠ '\\' := ne_backslash_of_isEscapable (isEscapable_of_isQuote hq)
  fun_induction skipQuoted q s with
  | case1 => rfl
  | case2 => exact readQuoted_quote [] hslash
  | case3 c hc =>
    by_cases hb : c = '\\'
    · subst hb
      rfl
    · rw [readQuoted_other [] hb hc]
      rfl
  | case4 c d r hesc ih =>
    obtain ⟨rfl, hd⟩ := hesc
    rw [readQuoted_backslash r hd, ih, Option.map_map, Option.map_map]
    refine Option.map_congr ?_
    rintro ⟨inside, rest⟩ hs
    have hne := ne_nil_of_skipQuoted hs
    simp [List.dropLast_cons_of_ne_nil, hne, unescape, hd]
  | case5 d r hesc => exact readQuoted_quote (d :: r) hslash
  | case6 c d r hesc hc ih =>
    have hread : readQuoted q (c :: d :: r) =
        (readQuoted q (d :: r)).map fun (value, rest) => (c :: value, rest) := by
      by_cases hb : c = '\\'
      · subst hb
        exact readQuoted_lone_backslash r (by simpa using hesc)
      · exact readQuoted_other (d :: r) hb hc
    rw [hread, ih, Option.map_map, Option.map_map]
    refine Option.map_congr ?_
    rintro ⟨inside, rest⟩ hs
    have happ := skipQuoted_append hs
    cases inside with
    | nil => exact absurd rfl (ne_nil_of_skipQuoted hs)
    | cons e inside =>
      obtain ⟨rfl, _⟩ := List.cons.inj happ
      cases inside with
      | nil =>
        simp [unescape]
      | cons f inside =>
        have hesc' : ¬ (c = '\\' ∧ isEscapable e = true) := hesc
        simp [unescape, hesc']

/-- A value that is read does not end in a backslash. -/
theorem getLast?_of_readQuoted {q : Char} (hq : isQuote q = true) {s value rest : Text}
    (h : readQuoted q s = some (value, rest)) : value.getLast? ≠ some '\\' := by
  fun_induction readQuoted q s generalizing value rest with
  | case1 => cases h
  | case2 => cases h
  | case3 d r hd ih =>
    obtain ⟨⟨a, b⟩, hab, he⟩ := Option.map_eq_some_iff.1 h
    cases he
    have := ih hab
    have := ne_backslash_of_isEscapable hd
    cases a <;> simp_all [List.getLast?_cons]
  | case4 d r hd ih =>
    obtain ⟨⟨a, b⟩, hab, he⟩ := Option.map_eq_some_iff.1 h
    cases he
    have hlast := ih hab
    -- what stands behind a lone backslash is no quote, so something is read there
    have hne : a ≠ [] := by
      rintro rfl
      have hdq : d ≠ q := by
        rintro rfl
        exact hd (isEscapable_of_isQuote hq)
      by_cases hb : d = '\\'
      · subst hb
        cases r with
        | nil => cases hab
        | cons e r =>
          cases he : isEscapable e with
          | true =>
            rw [readQuoted_backslash r he] at hab
            simp at hab
          | false =>
            rw [readQuoted_lone_backslash r he] at hab
            simp at hab
      · rw [readQuoted_other r hb hdq] at hab
        simp at hab
    cases a with
    | nil => exact absurd rfl hne
    | cons e a => simpa [List.getLast?_cons] using hlast
  | case5 =>
    cases h
    simp
  | case6 c r hc _ ih =>
    obtain ⟨⟨a, b⟩, hab, he⟩ := Option.map_eq_some_iff.1 h
    cases he
    have := ih hab
    cases a with
    | nil => simpa using hc
    | cons e a => simpa [List.getLast?_cons] using this

/-- A value that does not end in a backslash is read back from what it is escaped to. -/
theorem readQuoted_escape {q : Char} (hq : isQuote q = true) (t rest : Text)
    (ht : t.getLast? ≠ some '\\') : readQuoted q (escape t ++ q :: rest) = some (t, rest) := by
  have hslash : q ≠ '\\' := ne_backslash_of_isEscapable (isEscapable_of_isQuote hq)
  induction t with
  | nil => exact readQuoted_quote rest hslash
  | cons c t ih =>
    cases hc : isEscapable c with
    | true =>
      have ht' : t.getLast? ≠ some '\\' := by
        cases t <;> simp_all [List.getLast?_cons]
      simp only [escape, hc, if_true, List.cons_append]
      rw [readQuoted_backslash _ hc, ih ht']
      rfl
    | false =>
      have hcq : c ≠ q := by
        rintro rfl
        rw [isEscapable_of_isQuote hq] at hc
        cases hc
      simp only [escape, hc, Bool.false_eq_true, if_false, List.cons_append]
      cases t with
      | nil =>
        have hb : c ≠ '\\' := by simpa using ht
        rw [readQuoted_other _ hb hcq, ih (by simp)]
        rfl
      | cons d t =>
        have ih' := ih (by simpa [List.getLast?_cons] using ht)
        by_cases hb : c = '\\'
        · subst hb
          -- what stands behind the backslash is a backslash or is not escapable
          cases hd : isEscapable d with
          | true =>
            simp only [escape, hd, if_true, List.cons_append] at ih' ⊢
            rw [readQuoted_lone_backslash _ (by decide), ih']
            rfl
          | false =>
            simp only [escape, hd, Bool.false_eq_true, if_false, List.cons_append] at ih' ⊢
            rw [readQuoted_lone_backslash _ hd, ih']
            rfl
        · rw [readQuoted_other _ hb hcq, ih']
          rfl

/-! ## What quotes enclose -/

/-- A text that may stand between two quotes `q`: a backslash takes the quote or bracket behind it
literally, and no other character is `q`.  A backslash that stands for itself is not the last
character, for it would take the closing quote. -/
inductive Unbroken (q : Char) : Text → Prop
  | nil : Unbroken q []
  | escaped {d : Char} {v : Text} (hd : isEscapable d = true) (hv : Unbroken q v) :
      Unbroken q ('\\' :: d :: v)
  | plain {c : Char} {v : Text} (hc : c ≠ q)
      (hslash : c = '\\' → ∃ d ∈ v.head?, isEscapable d = false) (hv : Unbroken q v) :
      Unbroken q (c :: v)

/-- What quotes enclose is skipped up to the closing one. -/
theorem Unbroken.skipQuoted {q : Char} (hq : isQuote q = true) {v : Text} (hv : Unbroken q v)
    (rest : Text) : skipQuoted q (v ++ q :: rest) = some (v ++ [q], rest) := by
  have hslash : q ≠ '\\' := ne_backslash_of_isEscapable (isEscapable_of_isQuote hq)
  induction hv with
  | nil => cases rest <;> simp [Tagtext.skipQuoted, hslash]
  | escaped hd hv ih => simp [Tagtext.skipQuoted, hd, ih]
  | @plain c v hc hlone hv ih =>
    have hesc : ∀ d ∈ (v ++ q :: rest).head?, ¬ (c = '\\' ∧ isEscapable d = true) := by
      rintro d hd ⟨hb, hescapable⟩
      obtain ⟨e, he, hlit⟩ := hlone hb
      cases v with
      | nil => cases he
      | cons f v =>
        cases hd
        cases he
        rw [hescapable] at hlit
        cases hlit
    cases hs : v ++ q :: rest with
    | nil => simp at hs
    | cons d r =>
      rw [hs] at ih hesc
      have hd := hesc d rfl
      simp only [List.cons_append, hs, Tagtext.skipQuoted, if_neg hd, if_neg hc, ih]
      rfl

/-- **A quoted value ends at the first quote of its kind that no backslash takes literally.** -/
theorem skipQuoted_eq_some_iff {q : Char} (hq : isQuote q = true) {s inside rest : Text} :
    skipQuoted q s = some (inside, rest) ↔
      ∃ v, Unbroken q v ∧ inside = v ++ [q] ∧ s = v ++ q :: rest := by
  constructor
  · intro h
    fun_induction skipQuoted q s generalizing inside rest with
    | case1 => cases h
    | case2 =>
      cases h
      exact ⟨[], .nil, rfl, rfl⟩
    | case3 => cases h
    | case4 c d r hesc ih =>
      obtain ⟨⟨a, b⟩, hab, he⟩ := Option.map_eq_some_iff.1 h
      cases he
      obtain ⟨rfl, hd⟩ := hesc
      obtain ⟨v, hv, rfl, rfl⟩ := ih hab
      exact ⟨'\\' :: d :: v, .escaped hd hv, rfl, rfl⟩
    | case5 d r hesc =>
      cases h
      exact ⟨[], .nil, rfl, rfl⟩
    | case6 c d r hesc hc ih =>
      obtain ⟨⟨a, b⟩, hab, he⟩ := Option.map_eq_some_iff.1 h
      cases he
      obtain ⟨v, hv, rfl, hs⟩ := ih hab
      refine ⟨c :: v, .plain hc (fun hb => ?_) hv, rfl, by rw [hs]; rfl⟩
      have hd : isEscapable d = false := by simpa [hb] using hesc
      cases v with
      | nil =>
        -- the closing quote itself would be taken literally
        cases hs
        rw [isEscapable_of_isQuote hq] at hd
        cases hd
      | cons e v =>
        cases hs
        exact ⟨d, rfl, hd⟩
  · rintro ⟨v, hv, rfl, rfl⟩
    exact hv.skipQuoted hq rest

/-- A value that is skipped nowhere has no closing quote. -/
theorem skipQuoted_eq_none_iff {q : Char} (hq : isQuote q = true) {s : Text} :
    skipQuoted q s = none ↔ ∀ v rest, Unbroken q v → s ≠ v ++ q :: rest := by
  constructor
  · rintro h v rest hv rfl
    rw [hv.skipQuoted hq] at h
    cases h
  · intro h
    cases hs : skipQuoted q s with
    | none => rfl
    | some k =>
      obtain ⟨inside, rest⟩ := k
      obtain ⟨v, hv, _, he⟩ := (skipQuoted_eq_some_iff hq).1 hs
      exact absurd he (h v rest hv)

end Tagtext
