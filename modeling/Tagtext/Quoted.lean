import Tagtext.Text

/-!
# Quoted values

A quoted value ends at the next quote of its own kind.  A backslash in front of
a quote or a bracket takes that character literally; any other backslash stands
for itself.  Two readers work on the text behind the opening quote:
`skipQuoted` finds where the value ends and keeps it as written, `readQuoted`
decodes it.

    skipQuoted q s = some (inside, rest) → inside ++ rest = s       (skipQuoted_append)
    readQuoted q s = some (value, rest) → rest.length < s.length    (length_readQuoted)
-/

namespace Tagtext

/-- Single or double quote. -/
def isQuote (c : Char) : Bool := c == '\'' || c == '"'

/-- The characters that a backslash takes literally. -/
def isEscapable (c : Char) : Bool := c == '\'' || c == '"' || c == '[' || c == ']'

/-- Splits the text behind an opening quote just after its closing quote. -/
def skipQuoted (quote : Char) : Text → Option (Text × Text)
  | [] => none
  | [c] => if c = quote then some ([c], []) else none
  | c :: d :: r =>
    if c = '\\' ∧ isEscapable d = true then
      (skipQuoted quote r).map fun (inside, rest) => (c :: d :: inside, rest)
    else if c = quote then some ([c], d :: r)
    else (skipQuoted quote (d :: r)).map fun (inside, rest) => (c :: inside, rest)

/-- The value that the text behind an opening quote spells, and what follows its closing quote. -/
def readQuoted (quote : Char) : Text → Option (Text × Text)
  | [] => none
  | '\\' :: r =>
    match r with
    | [] => none
    | d :: r' =>
      if isEscapable d then (readQuoted quote r').map fun (value, rest) => (d :: value, rest)
      else (readQuoted quote (d :: r')).map fun (value, rest) => ('\\' :: value, rest)
  | c :: r =>
    if c = quote then some ([], r)
    else (readQuoted quote r).map fun (value, rest) => (c :: value, rest)

/-! ## Lemmas -/

theorem skipQuoted_append {q : Char} {s inside rest : Text}
    (h : skipQuoted q s = some (inside, rest)) : inside ++ rest = s := by
  fun_induction skipQuoted q s generalizing inside rest with
  | case1 => simp at h
  | case2 => simp at h; simp [← h]
  | case3 => simp at h
  | case4 c d r _ ih =>
    obtain ⟨⟨a, b⟩, hab, e⟩ := Option.map_eq_some_iff.1 h
    cases e
    simp [ih hab]
  | case5 => simp at h; simp [← h]
  | case6 c d r _ _ ih =>
    obtain ⟨⟨a, b⟩, hab, e⟩ := Option.map_eq_some_iff.1 h
    cases e
    simp [ih hab]

theorem length_skipQuoted {q : Char} {s inside rest : Text}
    (h : skipQuoted q s = some (inside, rest)) : rest.length ≤ s.length := by
  rw [← skipQuoted_append h]
  simp

theorem length_readQuoted {q : Char} {s value rest : Text}
    (h : readQuoted q s = some (value, rest)) : rest.length < s.length := by
  fun_induction readQuoted q s generalizing value rest with
  | case1 => simp at h
  | case2 => simp at h
  | case3 d r _ ih =>
    obtain ⟨⟨a, b⟩, hab, e⟩ := Option.map_eq_some_iff.1 h
    cases e
    have := ih hab
    simp only [List.length_cons]
    omega
  | case4 d r _ ih =>
    obtain ⟨⟨a, b⟩, hab, e⟩ := Option.map_eq_some_iff.1 h
    cases e
    have := ih hab
    simp only [List.length_cons] at *
    omega
  | case5 => simp at h; simp [← h.2]
  | case6 c r _ _ ih =>
    obtain ⟨⟨a, b⟩, hab, e⟩ := Option.map_eq_some_iff.1 h
    cases e
    have := ih hab
    simp only [List.length_cons]
    omega

end Tagtext
