import Tagtext.Descriptor
import Tagtext.Json.Writer
import Tagtext.Text.Blank

/-!
# Listings

A listing shows one tag a line: its name, its origin, what is inserted when an
author picks it, and its hint.  The columns are filled up with spaces, the first
of them to the length of the longest name in bytes, and no line ends in a blank.
-/

namespace Tagtext

/-- Fills a text up with spaces at its end. -/
def padRight (width : Nat) (t : Text) : Text := t ++ List.replicate (width - t.length) ' '

/-- The line of a tag, its name filled up to a width. -/
def Info.line (width : Nat) (i : Info) : Text :=
  let gap := [' ', ' ']
  trimEnd <| padRight width i.name ++ gap ++ padRight 8 i.origin.name ++ gap ++
    padRight 20 i.defaultShortcode ++ gap ++ i.hint.getD []

/-- The listing of some tags. -/
def listing (infos : List Info) : Text :=
  let width := (infos.map fun i => byteLength i.name).foldl max 0
  joinWith ['\n'] (infos.map (Info.line width))

/-- The listing of some tags as JSON. -/
def jsonListing (infos : List Info) : Text := (Json.array (infos.map Info.toJson)).pretty

end Tagtext
