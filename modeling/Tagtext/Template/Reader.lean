import Tagtext.Template.Expression
import Tagtext.Template.Piece

/-!
# Reading templates

`Template.read?` reads the pieces of a template as nested parts: text, values to
put out, choices (`if`, `elif`, `else`, `endif`) and loops (`for`, `else`,
`endfor`).  Every function reads from the front of a list of tokens or pieces
and returns what is left; `fuel` bounds the number of nested calls.

Expressions, their operands and statements may stand inside each other 150 deep;
`depth` is how many more levels there may be.  What stands in a statement, or behind
the name of an argument, is on the level of the statement or the call.
-/

namespace Tagtext

namespace Template

/-- What a loop gives to its items: a name, or several to their parts. -/
inductive Target where
  | name (n : Text)
  | several (targets : List Target)
  deriving Repr, Inhabited

/-- A part of a template. -/
inductive Part where
  | text (t : Text)
  | output (e : Expr)
  /-- The first part list whose condition holds, else the last one. -/
  | choice (condition : Expr) (body : List Part) (otherwise : List Part)
  /-- The body once for every item; without any item, the other part list. -/
  | loop (item : Target) (e : Expr) (body : List Part) (otherwise : List Part)
  deriving Inhabited

/-! ## Expressions -/

/-- The tokens behind a mark. -/
def skipMark (symbol : String) : List Token → Option (List Token)
  | .mark m :: r => if m = symbol.toList then some r else none
  | _ => none

/-- The tokens behind a word. -/
def skipWord (word : String) : List Token → Option (List Token)
  | .word w :: r => if w = word.toList then some r else none
  | _ => none

/-- The constant that a word stands for. -/
def constant? (w : Text) : Option Value :=
  match String.ofList w with
  | "true" | "True" => some (.bool true)
  | "false" | "False" => some (.bool false)
  | "none" | "None" => some .null
  | _ => none

/-- The comparison that a list of tokens starts with. -/
def comparison? (ts : List Token) : Option (Comparison × List Token) :=
  match skipMark "==" ts, skipMark "!=" ts with
  | some r, _ => some (.equal, r)
  | none, some r => some (.unequal, r)
  | none, none => none

/-- Whether an argument without brackets may start here. -/
def startsArgument : List Token → Bool
  | .word w :: _ => ["and", "or", "else", "is"].all (·.toList != w)
  | .string _ :: _ | .whole _ :: _ | .float _ :: _ => true
  | .mark m :: _ => ["-", "+", "(", "[", "\x7b"].any (·.toList == m)
  | [] => false

/-- The strings at the start of a list of tokens, as one. -/
def spanStrings : List Token → Text × List Token
  | .string s :: r =>
    let (t, rest) := spanStrings r
    (s ++ t, rest)
  | ts => ([], ts)

/-- The words behind a name, each behind a point, as part of the name. -/
def spanDotted (name : Text) : List Token → Text × List Token
  | .mark ['.'] :: .word w :: r => spanDotted (name ++ '.' :: w) r
  | ts => (name, ts)

mutual

/-- An expression: operands joined by `or`. -/
def readExpr : Nat → Nat → List Token → Option (Expr × List Token)
  | fuel + 1, depth + 1, ts => readChoices fuel depth ts
  | _, _, _ => none

/-- Operands joined by `or`. -/
def readChoices : Nat → Nat → List Token → Option (Expr × List Token)
  | 0, _, _ => none
  | fuel + 1, depth, ts => do
    let (a, r) ← readAnd fuel depth ts
    readOrs fuel depth a r

/-- More operands joined by `or`. -/
def readOrs : Nat → Nat → Expr → List Token → Option (Expr × List Token)
  | 0, _, _, _ => none
  | fuel + 1, depth, a, ts =>
    match skipWord "or" ts with
    | some r => do
      let (b, r) ← readAnd fuel depth r
      readOrs fuel depth (.operation .or a b) r
    | none => some (a, ts)

/-- Operands joined by `and`. -/
def readAnd : Nat → Nat → List Token → Option (Expr × List Token)
  | 0, _, _ => none
  | fuel + 1, depth, ts => do
    let (a, r) ← readNot fuel depth ts
    readAnds fuel depth a r

/-- More operands joined by `and`. -/
def readAnds : Nat → Nat → Expr → List Token → Option (Expr × List Token)
  | 0, _, _, _ => none
  | fuel + 1, depth, a, ts =>
    match skipWord "and" ts with
    | some r => do
      let (b, r) ← readNot fuel depth r
      readAnds fuel depth (.operation .and a b) r
    | none => some (a, ts)

/-- An operand, perhaps behind `not`. -/
def readNot : Nat → Nat → List Token → Option (Expr × List Token)
  | 0, _, _ => none
  | fuel + 1, depth, ts =>
    match skipWord "not" ts with
    | some r => (readNot fuel depth r).map fun (e, r) => (e.negation, r)
    | none => do
      let (a, r) ← readSum fuel depth ts
      match ← readComparisons fuel depth r with
      | ([], r) => some (a, r)
      | (rest, r) => some (.comparison a rest, r)

/-- The comparisons behind an operand. -/
def readComparisons : Nat → Nat → List Token → Option (List (Comparison × Expr) × List Token)
  | 0, _, _ => none
  | fuel + 1, depth, ts =>
    match comparison? ts with
    | some (c, r) => do
      let (b, r) ← readSum fuel depth r
      let (rest, r) ← readComparisons fuel depth r
      some ((c, b) :: rest, r)
    | none => some ([], ts)

/-- Operands joined by `+`. -/
def readSum : Nat → Nat → List Token → Option (Expr × List Token)
  | 0, _, _ => none
  | fuel + 1, depth, ts => do
    let (a, r) ← readJoin fuel depth ts
    readSums fuel depth a r

/-- More operands joined by `+`. -/
def readSums : Nat → Nat → Expr → List Token → Option (Expr × List Token)
  | 0, _, _, _ => none
  | fuel + 1, depth, a, ts =>
    match skipMark "+" ts with
    | some r => do
      let (b, r) ← readJoin fuel depth r
      readSums fuel depth (.operation .plus a b) r
    | none => some (a, ts)

/-- Operands joined by `~`. -/
def readJoin : Nat → Nat → List Token → Option (Expr × List Token)
  | 0, _, _ => none
  | fuel + 1, depth, ts => do
    let (a, r) ← readOperand fuel depth ts
    readJoins fuel depth a r

/-- More operands joined by `~`. -/
def readJoins : Nat → Nat → Expr → List Token → Option (Expr × List Token)
  | 0, _, _, _ => none
  | fuel + 1, depth, a, ts =>
    match skipMark "~" ts with
    | some r => do
      let (b, r) ← readOperand fuel depth r
      readJoins fuel depth (.operation .join a b) r
    | none => some (a, ts)

/-- An operand with what is attached to it. -/
def readOperand : Nat → Nat → List Token → Option (Expr × List Token)
  | 0, _, _ => none
  | fuel + 1, depth, ts => do
    let (e, r) ← readSigned fuel depth ts
    let (e, r) ← readAttached fuel depth e r
    readFilters fuel depth e r

/-- A value, perhaps behind a minus sign. -/
def readSigned : Nat → Nat → List Token → Option (Expr × List Token)
  | 0, _, _ => none
  | fuel + 1, depth, ts =>
    match skipMark "-" ts with
    | some r => (readSigned fuel depth r).map fun (e, r) => (e.opposite, r)
    | none => readPrimary fuel depth ts

/-- A name, a constant, an expression in brackets, or a list. -/
def readPrimary : Nat → Nat → List Token → Option (Expr × List Token)
  | fuel + 1, depth + 1, ts =>
    match ts with
    | .word w :: r =>
      match constant? w with
      | some v => some (.constant v, r)
      | none => some (.name w, r)
    | .string s :: r =>
      let (t, r) := spanStrings r
      some (.constant (.text (s ++ t)), r)
    | .whole n :: r => some (.constant (.nat n), r)
    | .float x :: r => some (.constant (.float x), r)
    | .mark m :: r =>
      if m = ['['] then
        (readItems fuel depth "]" r).map fun (es, _, r) => (.listing es, r)
      else if m = ['('] then
        (readItems fuel depth ")" r).map fun
          | ([e], false, r) => (e, r)
          | (es, _, r) => (.listing es, r)
      else none
    | [] => none
  | _, _, _ => none

/-- Expressions up to a closing bracket, and whether a comma is among them. -/
def readItems : Nat → Nat → String → List Token → Option (List Expr × Bool × List Token)
  | 0, _, _, _ => none
  | fuel + 1, depth, close, ts =>
    match skipMark close ts with
    | some r => some ([], false, r)
    | none => do
      let (e, r) ← readExpr fuel depth ts
      match skipMark "," r with
      | some r =>
        let (es, _, r) ← readItems fuel depth close r
        some (e :: es, true, r)
      | none =>
        let r ← skipMark close r
        some ([e], false, r)

/-- Members, items and calls behind a value. -/
def readAttached : Nat → Nat → Expr → List Token → Option (Expr × List Token)
  | 0, _, _, _ => none
  | fuel + 1, depth, e, ts =>
    match ts with
    | .mark m :: r =>
      if m = ['.'] then
        match r with
        | .word w :: r => readAttached fuel depth (.member e w) r
        | .whole n :: r => readAttached fuel depth (.item e (.constant (.nat n))) r
        | _ => none
      else if m = ['['] then do
        let (key, r) ← readExpr fuel depth r
        let r ← skipMark "]" r
        readAttached fuel depth (.item e key) r
      else if m = ['('] then do
        let (args, named, r) ← readArguments fuel depth r
        readAttached fuel depth (.call e args named) r
      else some (e, ts)
    | _ => some (e, ts)

/-- Arguments up to a closing bracket, the opening one read: those in order, then those with a
name. -/
def readArguments : Nat → Nat → List Token → Option (List Expr × List (Text × Expr) × List Token)
  | 0, _, _ => none
  | fuel + 1, depth, ts =>
    match skipMark ")" ts with
    | some r => some ([], [], r)
    | none => do
      let (e, r) ← readExpr fuel depth ts
      let (argument, r) ← match e, skipMark "=" r with
        | .name n, some r => (readChoices fuel depth r).map fun (e, r) => ((some n, e), r)
        | _, _ => some ((none, e), r)
      let (args, named, r) ← match skipMark "," r with
        | some r => readArguments fuel depth r
        | none => (skipMark ")" r).map fun r => ([], [], r)
      match argument with
      | (none, e) => some (e :: args, named, r)
      | (some n, e) => if args.isEmpty then some ([], (n, e) :: named, r) else none

/-- The arguments of a filter or a test, in brackets or none. -/
def readBracketed : Nat → Nat → List Token → Option (List Expr × List (Text × Expr) × List Token)
  | 0, _, _ => none
  | fuel + 1, depth, ts =>
    match skipMark "(" ts with
    | some r => readArguments fuel depth r
    | none => some ([], [], ts)

/-- Filters and tests behind an operand. -/
def readFilters : Nat → Nat → Expr → List Token → Option (Expr × List Token)
  | 0, _, _, _ => none
  | fuel + 1, depth, e, ts =>
    match skipMark "|" ts with
    | some (.word w :: r) => do
      let (name, r) := spanDotted w r
      let (args, named, r) ← readBracketed fuel depth r
      readFilters fuel depth (.filter e name args named) r
    | some _ => none
    | none =>
      match skipWord "is" ts with
      | none => some (e, ts)
      | some r =>
        let (negated, r) := match skipWord "not" r with
          | some r => (true, r)
          | none => (false, r)
        match r with
        | .word w :: r => do
          let (name, r) := spanDotted w r
          let (args, named, r) ←
            if startsArgument r && (skipMark "(" r).isNone then do
              let (a, r) ← readSigned fuel depth r
              let (a, r) ← readAttached fuel depth a r
              some ([a], [], r)
            else readBracketed fuel depth r
          let e := .test e name args named
          readFilters fuel depth (if negated then e.negation else e) r
        | _ => none

end

/-- How many expressions, operands and statements may stand inside each other. -/
def depthLimit : Nat := 150

/-- Fuel enough for some tokens. -/
def fuelFor (ts : List Token) : Nat := 16 * ts.length + 16

/-- What is read from a whole list of tokens. -/
def whole? (read : Nat → Nat → List Token → Option (Expr × List Token)) (depth : Nat)
    (ts : List Token) : Option Expr :=
  match read (fuelFor ts) depth ts with
  | some (e, []) => some e
  | _ => none

/-! ## Loops -/

/-- The names that no loop may give to its items. -/
def isReserved (w : Text) : Bool := (constant? w).isSome || ["loop", "self"].any (·.toList == w)

/-- Whether no more targets may stand here. -/
def endsTargets : List Token → Bool
  | [] => true
  | t :: _ => t == .word "in".toList || t == .mark [')']

mutual

/-- A target: one name, or several parts with commas between them. -/
def readTarget : Nat → List Token → Option (Target × List Token)
  | 0, _ => none
  | fuel + 1, ts => do
    match ← readTargets fuel ts with
    | ([t], false, r) => some (t, r)
    | (targets, _, r) => some (.several targets, r)

/-- The parts of a target, and whether a comma is among them. -/
def readTargets : Nat → List Token → Option (List Target × Bool × List Token)
  | 0, _ => none
  | fuel + 1, ts =>
    if endsTargets ts then some ([], false, ts)
    else do
      let (t, r) ← match ts with
        | .word w :: r => if isReserved w then none else some (Target.name w, r)
        | .mark ['('] :: r => do
          let (t, r) ← readTarget fuel r
          some (t, ← skipMark ")" r)
        | _ => none
      match skipMark "," r with
      | some r =>
        let (more, _, r) ← readTargets fuel r
        some (t :: more, true, r)
      | none => some ([t], false, r)

end

/-- The target and the items of a loop. -/
def loopHead? (depth : Nat) (ts : List Token) : Option (Target × Expr) := do
  let (target, r) ← readTarget (fuelFor ts) ts
  let r ← skipWord "in" r
  let e ← whole? readChoices depth r
  some (target, e)

/-! ## Parts -/

mutual

/-- Parts up to a statement that none of them starts with: that statement's first word, its other
tokens, and the pieces behind it; or up to the end. -/
def readParts : Nat → Nat → List Piece →
    Option (List Part × Option (Text × List Token) × List Piece)
  | 0, _, _ => none
  | fuel + 1, depth, ps =>
    match ps with
    | [] => some ([], none, [])
    | .text t :: r => do
      let (parts, stop, r) ← readParts fuel depth r
      some (.text t :: parts, stop, r)
    | .output ts :: r => do
      let e ← whole? readExpr depth ts
      let (parts, stop, r) ← readParts fuel depth r
      some (.output e :: parts, stop, r)
    | .statement (.word w :: ts) :: r =>
      if w = "if".toList then do
        let (part, r) ← readChoice fuel depth ts r
        let (parts, stop, r) ← readParts fuel depth r
        some (part :: parts, stop, r)
      else if w = "for".toList then do
        let (part, r) ← readLoop fuel depth ts r
        let (parts, stop, r) ← readParts fuel depth r
        some (part :: parts, stop, r)
      else some ([], some (w, ts), r)
    | .statement _ :: _ => none

/-- A choice whose condition these tokens spell, up to its end.  An `elif` goes no level deeper. -/
def readChoice : Nat → Nat → List Token → List Piece → Option (Part × List Piece)
  | fuel + 1, depth + 1, ts, ps => do
    let condition ← whole? readChoices depth ts
    let (body, stop, r) ← readParts fuel depth ps
    match stop with
    | some (w, ts) =>
      if w = "elif".toList then do
        let (part, r) ← readChoice fuel (depth + 1) ts r
        some (.choice condition body [part], r)
      else if w = "else".toList ∧ ts = [] then do
        let (otherwise, stop, r) ← readParts fuel depth r
        if stop != some ("endif".toList, []) then none
        some (.choice condition body otherwise, r)
      else if w = "endif".toList ∧ ts = [] then some (.choice condition body [], r)
      else none
    | none => none
  | _, _, _, _ => none

/-- A loop whose target and items these tokens spell, up to its end. -/
def readLoop : Nat → Nat → List Token → List Piece → Option (Part × List Piece)
  | fuel + 1, depth + 1, ts, ps => do
    let (target, e) ← loopHead? depth ts
    let (body, stop, r) ← readParts fuel depth ps
    let (otherwise, stop, r) ← match stop with
      | some (w, []) => if w = "else".toList then readParts fuel depth r else some ([], stop, r)
      | _ => none
    if stop != some ("endfor".toList, []) then none
    some (.loop target e body otherwise, r)
  | _, _, _, _ => none

end

/-- The parts of a whole template. -/
def read? (s : Text) : Option (List Part) :=
  match (cut s).bind fun ps => readParts (2 * ps.length + 2) depthLimit ps with
  | some (parts, none, _) => some parts
  | _ => none

end Template

end Tagtext
