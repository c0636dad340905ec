import Tagtext.Segment
import Tagtext.Tag

/-!
# Documents

A document is its nodes in source order, with opening and closing tags matched
up.  A closing tag matches the nearest tag of its name that is still open; the
tags opened after that one stay unmatched, and so does a closing tag that finds
nothing to match.

Reading a document loses nothing:

    (Document.parse s).source = s                                   (source_parse)
-/

namespace Tagtext

/-- One node of a document. -/
inductive Node where
  | text (text : Text)
  /-- A span kept as it is written because it could not be read. -/
  | malformed (raw : Text) (error : ParseError)
  /-- A tag, and the index of the node it is matched with. -/
  | tag (tag : Tag) (partner : Option Nat)
  deriving DecidableEq, Repr

namespace Node

/-- The text of a node as written. -/
def raw : Node → Text
  | text t => t
  | malformed t _ => t
  | tag t _ => t.raw

/-- The node that a segment makes, not matched with any other. -/
def ofSegment : Segment → Node
  | .literal t => text t
  | .malformed t e => malformed t e
  | .marker t start =>
    match Tag.parse t start with
    | .ok g => tag g none
    | .error e => malformed t e

/-- The tag that a node holds. -/
def tag? : Node → Option Tag
  | tag t _ => some t
  | _ => none

/-- The node that a tag is matched with. -/
def partner? : Node → Option Nat
  | tag _ p => p
  | _ => none

/-- The fault that a node reports. -/
def error? : Node → Option ParseError
  | malformed _ e => some e
  | _ => none

/-- Whether a node is plain text. -/
def isText : Node → Bool
  | text _ => true
  | _ => false

/-- Matches a tag with the node at an index. -/
def withPartner (partner : Option Nat) : Node → Node
  | tag t _ => tag t partner
  | n => n

end Node

/-! ## Matching -/

/-- The pairs of node indices that the nodes from `index` on complete, `opened` being the
tags still open in front of them, the innermost first. -/
def pairsFrom (index : Nat) (opened : List (Nat × Text)) : List Node → List (Nat × Nat)
  | [] => []
  | n :: rest =>
    match n.tag? with
    | none => pairsFrom (index + 1) opened rest
    | some t =>
      match t.kind with
      | .selfClosing => pairsFrom (index + 1) opened rest
      | .opening => pairsFrom (index + 1) ((index, t.name) :: opened) rest
      | .closing =>
        match opened.dropWhile (·.2 != t.name) with
        | [] => pairsFrom (index + 1) opened rest
        | (i, _) :: outer => (i, index) :: pairsFrom (index + 1) outer rest

/-- The index that a pair joins with `index`. -/
def partnerIn (pairs : List (Nat × Nat)) (index : Nat) : Option Nat :=
  pairs.findSome? fun (i, j) =>
    if i = index then some j else if j = index then some i else none

/-- Matches the opening and closing tags among some nodes. -/
def matchTags (nodes : List Node) : List Node :=
  let pairs := pairsFrom 0 [] nodes
  nodes.mapIdx fun i n => n.withPartner (partnerIn pairs i)

/-! ## Documents -/

/-- A document: its nodes in source order. -/
structure Document where
  nodes : List Node
  deriving DecidableEq, Repr

namespace Document

/-- Reads a document.  This never fails: what is wrong with the text becomes malformed nodes. -/
def parse (s : Text) : Document := ⟨matchTags ((scan s).map Node.ofSegment)⟩

/-- The text of a document. -/
def source (d : Document) : Text := (d.nodes.map Node.raw).flatten

/-- The faults in a document, in order. -/
def errors (d : Document) : List ParseError := d.nodes.filterMap Node.error?

/-- Whether a document holds nothing but text. -/
def isPlain (d : Document) : Bool := d.nodes.all Node.isText

end Document

/-! ## Lemmas -/

@[simp] theorem Node.raw_withPartner (p : Option Nat) (n : Node) : (n.withPartner p).raw = n.raw := by
  cases n <;> rfl

@[simp] theorem Node.raw_ofSegment (s : Segment) : (Node.ofSegment s).raw = s.raw := by
  cases s with
  | literal t => rfl
  | malformed t e => rfl
  | marker t start =>
    simp only [Node.ofSegment]
    split
    · next h => exact (Tag.raw_start_of_parse h).1
    · rfl

theorem map_raw_matchTags (nodes : List Node) :
    (matchTags nodes).map Node.raw = nodes.map Node.raw := by
  simp only [matchTags]
  apply List.ext_getElem?
  intro i
  simp [List.getElem?_mapIdx, Option.map_map, Function.comp_def]

/-- Reading a document loses nothing. -/
theorem Document.source_parse (s : Text) : (Document.parse s).source = s := by
  have h : Node.raw ∘ Node.ofSegment = Segment.raw := funext Node.raw_ofSegment
  simp only [source, parse, map_raw_matchTags, List.map_map, h, flatten_scan]

end Tagtext
