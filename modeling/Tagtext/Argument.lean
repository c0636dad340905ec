import Tagtext.Dictionary
import Tagtext.Quoted
import Tagtext.Text.Blank
import Tagtext.ParseError

/-!
# Arguments of a tag

An argument is a value, as text, with or without a name.  A named lookup finds
the last argument of that name; a positional lookup counts the nameless ones
only, in the order they are written.

`Arguments.lex` reads the text between a tag's name and its end: items apart by
blanks, each a quoted value, a bare word, or `name=` in front of a quoted value,
a bare word or nothing.
-/

namespace Tagtext

/-- One argument as written in a tag, quotes and escapes removed. -/
structure Argument where
  name : Option Text
  value : Text
  deriving DecidableEq, Repr

namespace Argument

/-- An argument without a name. -/
def positional (value : Text) : Argument := ⟨none, value⟩

/-- An argument with a name. -/
def named (name value : Text) : Argument := ⟨some name, value⟩

end Argument

/-- The arguments of one tag, in the order they are written. -/
abbrev Arguments := List Argument

namespace Arguments

/-! ## Lookups -/

/-- The value of the last argument with this name. -/
def named? (args : Arguments) (name : Text) : Option Text :=
  (args.reverse.find? (·.name == some name)).map (·.value)

/-- The named values by name, the last one of each. -/
def namedMap (args : Arguments) : Dictionary Text :=
  Dictionary.ofList (args.filterMap fun a => a.name.map fun n => (n, a.value))

/-- The values without a name, in order. -/
def positionals (args : Arguments) : List Text :=
  (args.filter (·.name.isNone)).map (·.value)

/-- The value without a name at this position, named ones not counted. -/
def at? (args : Arguments) (index : Nat) : Option Text :=
  ((args.filter (·.name.isNone))[index]?).map (·.value)

/-- The value of the last argument with this name, else `default`. -/
def namedOr (args : Arguments) (name default : Text) : Text := (args.named? name).getD default

/-- The value without a name at this position, else `default`. -/
def atOr (args : Arguments) (index : Nat) (default : Text) : Text := (args.at? index).getD default

/-- The named value if there is one, else the positional one. -/
def namedOrAt? (args : Arguments) (name : Text) (index : Nat) : Option Text :=
  args.named? name <|> args.at? index

/-! ## Reading -/

/-- The value behind an equals sign at the offset `pos`, and the text behind it. -/
def readValue (pos : Nat) : Text → Except ParseError (Text × Text)
  | [] => .ok ([], [])
  | c :: r =>
    if isQuote c then
      match readQuoted c r with
      | some found => .ok found
      | none => .error (.unterminatedQuote pos)
    else .ok ((c :: r).takeWhile (!isBlank ·), (c :: r).dropWhile (!isBlank ·))

/-- Whether a character goes on with a bare word or the name of an argument. -/
def isWordChar (c : Char) : Bool := !isBlank c && c != '='

/-- The argument at the start of a text without leading blanks, and the text behind it. -/
def readItem (pos : Nat) (s : Text) : Except ParseError (Argument × Text) :=
  match s with
  | [] => .ok (.positional [], [])
  | c :: r =>
    if isQuote c then
      match readQuoted c r with
      | some (value, rest) => .ok (.positional value, rest)
      | none => .error (.unterminatedQuote pos)
    else
      let word := (c :: r).takeWhile isWordChar
      match (c :: r).dropWhile isWordChar with
      | '=' :: behind =>
        if word.isEmpty then .error (.emptyArgumentName pos)
        else
          match readValue (pos + byteLength word + 1) behind with
          | .ok (value, rest) => .ok (.named word value, rest)
          | .error e => .error e
      | rest => .ok (.positional word, rest)

/-! ## Lemmas -/

theorem length_dropWhile_le (p : Char → Bool) (s : Text) :
    (s.dropWhile p).length ≤ s.length :=
  (List.dropWhile_sublist p).length_le

theorem length_readValue {pos : Nat} {s value rest : Text}
    (h : readValue pos s = .ok (value, rest)) : rest.length ≤ s.length := by
  unfold readValue at h
  split at h
  · simp at h; simp [h]
  · next c r =>
    split at h
    · split at h
      · next found hq =>
        cases h
        have := length_readQuoted hq
        simp only [List.length_cons]
        omega
      · cases h
    · cases h
      exact length_dropWhile_le _ _

/-- Reading an item takes at least one character. -/
theorem length_readItem {pos : Nat} {c : Char} {r rest : Text} {a : Argument}
    (hc : isBlank c = false) (h : readItem pos (c :: r) = .ok (a, rest)) :
    rest.length < (c :: r).length := by
  unfold readItem at h
  simp only at h
  split at h
  · split at h
    · next hq =>
      cases h
      have := length_readQuoted hq
      simp only [List.length_cons]
      omega
    · cases h
  · split at h
    · next behind hd =>
      split at h
      · cases h
      · split at h
        · next hv =>
          cases h
          have h1 := length_readValue hv
          have h2 := length_dropWhile_le isWordChar (c :: r)
          rw [hd] at h2
          simp only [List.length_cons] at *
          omega
        · cases h
    · next hne =>
      cases h
      by_cases he : c = '='
      · subst he
        exact absurd rfl (hne r)
      · have hw : isWordChar c = true := by simp [isWordChar, hc, he]
        rw [List.dropWhile_cons_of_pos hw]
        have := length_dropWhile_le isWordChar r
        simp only [List.length_cons]
        omega

/-! ## All arguments -/

/-- The arguments that a text spells, `pos` being its offset in the document. -/
def lex (pos : Nat) (s : Text) : Except ParseError Arguments :=
  match s with
  | [] => .ok []
  | c :: r =>
    if hc : isBlank c then lex (pos + c.utf8Size) r
    else
      match h : readItem pos (c :: r) with
      | .error e => .error e
      | .ok (a, rest) =>
        have : rest.length < (c :: r).length := length_readItem (by simpa using hc) h
        match lex (pos + (byteLength (c :: r) - byteLength rest)) rest with
        | .error e => .error e
        | .ok args => .ok (a :: args)
termination_by s.length
decreasing_by
  · exact Nat.lt_succ_self _
  · exact this

end Arguments

end Tagtext
