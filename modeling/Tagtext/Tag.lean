import Tagtext.Argument
import Tagtext.Name

/-!
# Tags

A tag is what a marker says once it is read: `[name ...]` opens, `[/name]`
closes, `[name ... /]` stands alone.  `Tag.parse` reads any text, not only what
scanning yields.
-/

namespace Tagtext

/-- Whether a tag opens, closes or stands alone. -/
inductive TagKind where
  | opening
  | closing
  | selfClosing
  deriving DecidableEq, Repr

/-- One tag of a document. -/
structure Tag where
  name : Text
  kind : TagKind
  arguments : Arguments
  /-- The tag as written, brackets included. -/
  raw : Text
  /-- The offset of its opening bracket. -/
  start : Nat
  deriving DecidableEq, Repr

namespace Tag

/-- The offset just behind the tag's closing bracket. -/
def stop (t : Tag) : Nat := t.start + byteLength t.raw

/-- What stands between the brackets of a marker. -/
def inner? : Text → Option Text
  | '[' :: r => if r.getLast? = some ']' then some r.dropLast else none
  | _ => none

/-- Whether a name ends in front of this text. -/
def endsName : Text → Bool
  | [] => true
  | c :: _ => isBlank c || c == '/'

/-- Drops one slash at the end; with it the tag stands alone. -/
def splitSlash (s : Text) : Text × TagKind :=
  if s.getLast? = some '/' then (s.dropLast, .selfClosing) else (s, .opening)

/-- Reads a marker that starts at the offset `start`. -/
def parse (raw : Text) (start : Nat) : Except ParseError Tag :=
  match inner? raw with
  | none => .error (.unterminatedTag start)
  | some ('/' :: r) =>
    let name := trimEnd r
    if isTagName name then .ok ⟨name, .closing, [], raw, start⟩
    else .error (.invalidCloseTag raw start)
  | some inner =>
    let name := inner.takeWhile isNameChar
    let rest := inner.dropWhile isNameChar
    if isTagName name && endsName rest then
      let (body, kind) := splitSlash (trimEnd rest)
      match Arguments.lex (start + 1 + byteLength name) body with
      | .ok arguments => .ok ⟨name, kind, arguments, raw, start⟩
      | .error e => .error e
    else .error (.invalidTagName (firstWord inner) start)

/-! ## Lemmas -/

/-- A tag keeps the text and the offset it was read from. -/
theorem raw_start_of_parse {raw : Text} {start : Nat} {t : Tag} (h : parse raw start = .ok t) :
    t.raw = raw ∧ t.start = start := by
  unfold parse at h
  split at h
  · cases h
  · simp only at h
    split at h <;> cases h
    exact ⟨rfl, rfl⟩
  · simp only at h
    split at h
    · split at h <;> cases h
      exact ⟨rfl, rfl⟩
    · cases h

end Tag

end Tagtext
