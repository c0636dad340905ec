import Tagtext.Text

/-!
# Tag names

A tag name starts with an ASCII letter or an underscore and goes on with ASCII
letters, digits, underscores and hyphens.  Names are case-sensitive.
-/

namespace Tagtext

/-- Whether a character may start a tag name. -/
def isNameStart (c : Char) : Bool := c.isAlpha || c == '_'

/-- Whether a character may stand in a tag name. -/
def isNameChar (c : Char) : Bool := c.isAlphanum || c == '_' || c == '-'

/-- Whether a text is a tag name. -/
def isTagName : Text → Bool
  | [] => false
  | c :: r => isNameStart c && r.all isNameChar

/-! ## Lemmas -/

theorem isNameChar_of_isNameStart {c : Char} (h : isNameStart c = true) :
    isNameChar c = true := by
  simp only [isNameStart, isNameChar, Char.isAlphanum, Bool.or_eq_true] at *
  exact Or.inl (h.imp Or.inl id)

@[simp] theorem isTagName_nil : isTagName [] = false := rfl

theorem isTagName_cons_iff {c : Char} {r : Text} :
    isTagName (c :: r) = true ↔ isNameStart c = true ∧ ∀ d ∈ r, isNameChar d = true := by
  simp [isTagName]

/-- Every character of a name is a name character. -/
theorem isNameChar_of_mem {t : Text} (h : isTagName t = true) : ∀ c ∈ t, isNameChar c = true := by
  cases t with
  | nil => simp
  | cons c r =>
    obtain ⟨hc, hr⟩ := isTagName_cons_iff.1 h
    simpa using ⟨isNameChar_of_isNameStart hc, hr⟩

end Tagtext
