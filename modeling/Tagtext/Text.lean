/-!
# Text

Text is a list of characters.  Every position in a document is an offset in
UTF-8 bytes, so the length that matters is `byteLength`, and it is additive:

    byteLength (s ++ t) = byteLength s + byteLength t            (byteLength_append)
-/

namespace Tagtext

/-- A text, as its characters. -/
abbrev Text := List Char

/-- The length of a text in UTF-8 bytes. -/
def byteLength : Text → Nat
  | [] => 0
  | c :: r => c.utf8Size + byteLength r

/-- A number in decimal digits. -/
def decimal (n : Nat) : Text := Nat.toDigits 10 n

/-- An integer in decimal digits, with a minus sign in front if it is negative. -/
def signedDecimal : Int → Text
  | .ofNat n => decimal n
  | .negSucc n => '-' :: decimal (n + 1)

/-- Whether one of some ranges of code points holds a character. -/
def inRanges (ranges : List (Nat × Nat)) (c : Char) : Bool :=
  ranges.any fun (first, last) => first ≤ c.toNat && c.toNat ≤ last

/-- Splits a text behind the first `c`; without one, all of it comes first. -/
def splitBehind (c : Char) : Text → Text × Text
  | [] => ([], [])
  | d :: r =>
    if d = c then ([d], r)
    else
      let (before, after) := splitBehind c r
      (d :: before, after)

/-- The texts one after the other, with `separator` between them. -/
def joinWith (separator : Text) : List Text → Text
  | [] => []
  | [t] => t
  | t :: ts => t ++ separator ++ joinWith separator ts

/-! ## Lemmas -/

@[simp] theorem byteLength_nil : byteLength [] = 0 := rfl

@[simp] theorem byteLength_cons (c : Char) (t : Text) :
    byteLength (c :: t) = c.utf8Size + byteLength t := rfl

@[simp] theorem byteLength_append (s t : Text) :
    byteLength (s ++ t) = byteLength s + byteLength t := by
  induction s with
  | nil => simp
  | cons c s ih => simp [ih, Nat.add_assoc]

theorem splitBehind_append (c : Char) (t : Text) :
    (splitBehind c t).1 ++ (splitBehind c t).2 = t := by
  induction t with
  | nil => rfl
  | cons d t ih =>
    by_cases h : d = c
    · simp [splitBehind, h]
    · simp [splitBehind, h, ih]

end Tagtext
