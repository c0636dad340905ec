import Tagtext.Yaml.Token

/-!
# Reading YAML

`Yaml.parse?` reads one document from its tokens.  Where a value is missing there
is `nothing`.  The items of a sequence may stand in the column of the key they
belong to; then no block is opened for them.
-/

namespace Tagtext

namespace Yaml

/-- Whether no value starts in front of these tokens, inside a mapping in a block. -/
def isBare : List Token → Bool
  | .key :: _ | .value :: _ | .blockEnd :: _ => true
  | _ => false

/-- Whether no value starts in front of these tokens, inside brackets. -/
def isFlowBare : List Token → Bool
  | .value :: _ | .separator :: _ | .closeSequence :: _ | .closeMapping :: _ => true
  | _ => false

/-- Goes to the next item inside brackets: the first is not preceded by a comma. -/
def afterSeparator (first : Bool) (ts : List Token) : Option (List Token) :=
  if first then some ts
  else
    match ts with
    | .separator :: r => some r
    | _ => none

mutual

/-- One value.  In a block it may be one, and with `hanging` items without a block of their own. -/
def node (inBlock hanging : Bool) : Nat → List Token → Option (Yaml × List Token)
  | 0, _ => none
  | fuel + 1, ts =>
    match ts with
    | .scalar t plain :: r => some (scalar t plain, r)
    | .openSequence :: r => (flowItems true fuel r).map fun (xs, r) => (sequence xs, r)
    | .openMapping :: r => (flowEntries true fuel r).map fun (es, r) => (mapping es, r)
    | .item :: r =>
      if hanging then (hangingItems fuel (.item :: r)).map fun (xs, r) => (sequence xs, r) else none
    | .sequenceBlock :: r =>
      if inBlock then (items fuel r).map fun (xs, r) => (sequence xs, r) else none
    | .mappingBlock :: r =>
      if inBlock then (entries fuel r).map fun (es, r) => (mapping es, r) else none
    | _ => none

/-- The items of a sequence up to the end of its block. -/
def items : Nat → List Token → Option (List Yaml × List Token)
  | 0, _ => none
  | fuel + 1, ts =>
    match ts with
    | .blockEnd :: r => some ([], r)
    | .item :: r => do
      let (v, r) ← match r with
        | .item :: _ | .blockEnd :: _ => some (nothing, r)
        | _ => node true false fuel r
      let (vs, r) ← items fuel r
      some (v :: vs, r)
    | _ => none

/-- The items of a sequence in the column of its key. -/
def hangingItems : Nat → List Token → Option (List Yaml × List Token)
  | 0, _ => none
  | fuel + 1, ts =>
    match ts with
    | .item :: r => do
      let (v, r) ← if isBare r || r.head? == some .item then some (nothing, r)
        else node true false fuel r
      let (vs, r) ← hangingItems fuel r
      some (v :: vs, r)
    | _ => some ([], ts)

/-- The entries of a mapping up to the end of its block. -/
def entries : Nat → List Token → Option (List (Yaml × Yaml) × List Token)
  | 0, _ => none
  | fuel + 1, ts =>
    match ts with
    | .blockEnd :: r => some ([], r)
    | .key :: r => do
      let (k, r) ← if isBare r then some (nothing, r) else node true true fuel r
      let (v, r) ← match r with
        | .value :: r => if isBare r then some (nothing, r) else node true true fuel r
        | _ => some (nothing, r)
      let (es, r) ← entries fuel r
      some ((k, v) :: es, r)
    | _ => none

/-- The items of a sequence up to its closing bracket. -/
def flowItems (first : Bool) : Nat → List Token → Option (List Yaml × List Token)
  | 0, _ => none
  | fuel + 1, ts =>
    match ts with
    | .closeSequence :: r => some ([], r)
    | _ => do
      let ts ← afterSeparator first ts
      match ts with
      | .closeSequence :: r => some ([], r)
      | .key :: r =>
        let (k, r) ← node false false fuel r
        let (v, r) ← flowValue fuel r
        let (vs, r) ← flowItems false fuel r
        some (mapping [(k, v)] :: vs, r)
      | _ =>
        let (v, r) ← node false false fuel ts
        let (vs, r) ← flowItems false fuel r
        some (v :: vs, r)

/-- The entries of a mapping up to its closing brace. -/
def flowEntries (first : Bool) : Nat → List Token → Option (List (Yaml × Yaml) × List Token)
  | 0, _ => none
  | fuel + 1, ts =>
    match ts with
    | .closeMapping :: r => some ([], r)
    | _ => do
      let ts ← afterSeparator first ts
      match ts with
      | .closeMapping :: r => some ([], r)
      | .key :: r =>
        let (k, r) ← if isFlowBare r then some (nothing, r) else node false false fuel r
        let (v, r) ← flowValue fuel r
        let (es, r) ← flowEntries false fuel r
        some ((k, v) :: es, r)
      | _ =>
        let (k, r) ← node false false fuel ts
        let (es, r) ← flowEntries false fuel r
        some ((k, nothing) :: es, r)

/-- The value behind a key inside brackets. -/
def flowValue : Nat → List Token → Option (Yaml × List Token)
  | 0, _ => none
  | fuel + 1, ts =>
    match ts with
    | .value :: r => if isFlowBare r then some (nothing, r) else node false false fuel r
    | _ => some (nothing, ts)

end

/-- The value at the start of a document, which may be empty behind its mark. -/
def documentNode (ts : List Token) : Option (Yaml × List Token) :=
  let value (ts : List Token) := node true false (3 * ts.length + 3) ts
  match ts with
  | [] => some (nothing, [])
  | .documentStart :: r =>
    match r with
    | [] | .documentStart :: _ | .documentEnd :: _ => some (nothing, r)
    | _ => value r
  | _ => value ts

/-- The characters that a document may hold. -/
def isAllowed (c : Char) : Bool :=
  let n := c.toNat
  n == 0x09 || n == 0x0A || n == 0x0D || (0x20 ≤ n && n ≤ 0x7E) || n == 0x85 ||
    (0xA0 ≤ n && n ≤ 0xFFFD) || 0x10000 ≤ n

/-- The value that a whole document spells. -/
def parse? (s : Text) : Option Yaml :=
  if s.all isAllowed then
    match (tokens? (unifyBreaks s)).bind documentNode with
    | some (v, left) => if left.all (· == .documentEnd) then some v else none
    | none => none
  else none

end Yaml

end Tagtext
