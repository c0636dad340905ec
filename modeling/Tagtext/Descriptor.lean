import Tagtext.Handler

/-!
# Descriptors

A descriptor binds a tag name to a handler and carries what an authoring tool
shows about it.
-/

namespace Tagtext

/-- Where a descriptor comes from. -/
inductive Origin where
  /-- Registered when the program starts. -/
  | code
  /-- Written and stored by an author. -/
  | template
  deriving DecidableEq, Repr

/-- The name of an origin. -/
def Origin.name : Origin → Text
  | code => "code".toList
  | template => "template".toList

/-- What authoring tools show about a tag name; evaluation never looks at it. -/
structure Metadata where
  /-- One line on what the tag does. -/
  hint : Option Text := none
  /-- An example. -/
  usage : Option Text := none
  /-- What is inserted when an author picks the tag. -/
  snippet : Option Text := none
  categories : List Text := []
  deriving DecidableEq, Repr

/-- A tag name and what is called for it. -/
structure Descriptor where
  name : Text
  origin : Origin
  metadata : Metadata := {}
  handler : Handler

/-- The summary of a descriptor in listings. -/
structure Info where
  name : Text
  hint : Option Text
  usage : Option Text
  categories : List Text
  defaultShortcode : Text
  origin : Origin
  deriving DecidableEq, Repr

namespace Descriptor

/-- What is inserted when an author picks the tag: its snippet, else its name in brackets. -/
def defaultShortcode (d : Descriptor) : Text :=
  d.metadata.snippet.getD ('[' :: d.name ++ [']'])

/-- The summary of a descriptor. -/
def info (d : Descriptor) : Info where
  name := d.name
  hint := d.metadata.hint
  usage := d.metadata.usage
  categories := d.metadata.categories
  defaultShortcode := d.defaultShortcode
  origin := d.origin

end Descriptor

/-- A summary as a JSON object, in the order in which listings show it. -/
def Info.toJson (i : Info) : Json :=
  .object
    [("name".toList, .string i.name),
     ("hint".toList, .ofText? i.hint),
     ("usage".toList, .ofText? i.usage),
     ("categories".toList, .texts i.categories),
     ("defaultShortcode".toList, .string i.defaultShortcode),
     ("origin".toList, .string i.origin.name)]

end Tagtext
