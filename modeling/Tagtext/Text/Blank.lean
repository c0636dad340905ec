import Tagtext.Text

/-!
# Blank characters

Two classes of white space separate things in a document.  The arguments of a
tag are split at any character with the Unicode property `White_Space`
(`isBlank`); a quoted value may open only behind one of five ASCII characters
(`isAsciiBlank`), and each of those is blank.
-/

namespace Tagtext

/-- Whether a character has the Unicode property `White_Space`. -/
def isBlank (c : Char) : Bool :=
  let n := c.toNat
  (9 ≤ n && n ≤ 13) || n == 0x20 || n == 0x85 || n == 0xA0 || n == 0x1680 ||
    (0x2000 ≤ n && n ≤ 0x200A) || n == 0x2028 || n == 0x2029 || n == 0x202F ||
    n == 0x205F || n == 0x3000

/-- Space, tab, line feed, form feed and carriage return. -/
def isAsciiBlank (c : Char) : Bool :=
  c == ' ' || c == '\t' || c == '\n' || c == '\x0c' || c == '\r'

/-- Drops the blank characters at the end. -/
def trimEnd : Text → Text
  | [] => []
  | c :: r =>
    match trimEnd r with
    | [] => if isBlank c then [] else [c]
    | d :: r' => c :: d :: r'

/-- Drops the blank characters at the start. -/
def trimStart (t : Text) : Text := t.dropWhile isBlank

/-- Drops the blank characters at both ends. -/
def trim (t : Text) : Text := trimEnd (trimStart t)

/-- The first run of characters that are not blank; empty if there is none. -/
def firstWord (t : Text) : Text := (trimStart t).takeWhile (!isBlank ·)

/-! ## Lemmas -/

theorem isBlank_of_isAsciiBlank {c : Char} (h : isAsciiBlank c = true) : isBlank c = true := by
  simp only [isAsciiBlank, Bool.or_eq_true, beq_iff_eq] at h
  rcases h with (((rfl | rfl) | rfl) | rfl) | rfl <;> decide

/-- What `trimEnd` drops is blank. -/
theorem exists_trimEnd_append (t : Text) :
    ∃ w, trimEnd t ++ w = t ∧ ∀ c ∈ w, isBlank c = true := by
  induction t with
  | nil => exact ⟨[], rfl, by simp⟩
  | cons c t ih =>
    obtain ⟨w, hw, hb⟩ := ih
    unfold trimEnd
    split
    · next h =>
      rw [h] at hw
      by_cases hc : isBlank c
      · exact ⟨c :: w, by simp_all, by simp_all⟩
      · exact ⟨w, by simp_all, hb⟩
    · next d r h => exact ⟨w, by rw [h] at hw; simp [← hw], hb⟩

end Tagtext
