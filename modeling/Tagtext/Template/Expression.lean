import Tagtext.Template.Filter

/-!
# Expressions in templates

An expression is evaluated in a scope of named values.  A name, member or item
that is not there is undefined: it is put out as nothing, is false, and has no
items, but asking it for a member is a failure.

From weakest to strongest: `or`, `and`, `not`, comparisons, `+`, `~`, a minus
sign; filters and tests bind to the operand they follow.  In a chain of
comparisons each compares its neighbours, and the chain holds if all of them do.

An operation on constants is worked out as soon as it is read, unless it fails.
This shows in one place only: `and` between constants is false if one of them
is, whereas elsewhere it is the operand that decides.
-/

namespace Tagtext

namespace Template

/-- The operators between two operands. -/
inductive Operator where
  | or
  | and
  | plus
  | join
  deriving DecidableEq, Repr

/-- The comparisons. -/
inductive Comparison where
  | equal
  | unequal
  deriving DecidableEq, Repr

/-- An expression. -/
inductive Expr where
  | constant (v : Value)
  | name (n : Text)
  | member (e : Expr) (name : Text)
  | item (e key : Expr)
  | list (items : List Expr)
  | not (e : Expr)
  | negative (e : Expr)
  | binary (op : Operator) (a b : Expr)
  | chain (first : Expr) (rest : List (Comparison × Expr))
  | filter (e : Expr) (name : Text) (args : List Expr) (named : List (Text × Expr))
  | test (e : Expr) (name : Text) (args : List Expr) (named : List (Text × Expr))
  | call (f : Expr) (args : List Expr) (named : List (Text × Expr))
  deriving Repr, Inhabited

/-- The values in reach, the innermost first. -/
abbrev Scope := List (Text × Value)

/-- The value of a name. -/
def Scope.get? (s : Scope) (name : Text) : Option Value := (s.find? (·.1 == name)).map (·.2)

/-- Whether a comparison holds. -/
def Comparison.holds (c : Comparison) (a b : Value) : Bool :=
  match c with
  | equal => a.equal b
  | unequal => !a.equal b

/-- What an operator that looks at both operands makes of them. -/
def Operator.apply (op : Operator) (a b : Value) : Except TemplateError Value :=
  match op with
  | or => .ok (if a.truth then a else b)
  | and => .ok (if a.truth then b else a)
  | join => .ok (.text (a.display ++ b.display))
  | plus =>
    match a.sum? b with
    | some v => .ok v
    | none => .error .failed

/-! ## Evaluation -/

/-- The item of a value under a key, undefined if there is none; what is undefined has no items. -/
def itemOf (v key : Value) : Except TemplateError Value :=
  match v with
  | .undefined => .error .failed
  | _ => .ok ((v.item? key).getD .undefined)

/-- What the function of a name returns.  The name `super` is kept for blocks, and there are none. -/
def Scope.call (s : Scope) (name : Text) (g : Given) : Except TemplateError Value :=
  if name = "super".toList then .error .failed
  else
    match s.get? name with
    | some v => v.call g
    | none => .error .malformed

/-- Whether an expression is the name of the template itself, whose members are blocks. -/
def Expr.isSelf : Expr → Bool
  | name n => n == "self".toList
  | _ => false

mutual

/-- The value of an expression. -/
def Expr.eval (s : Scope) : Expr → Except TemplateError Value
  | .constant v => .ok v
  | .name n => .ok ((s.get? n).getD .undefined)
  | .member e name => do itemOf (← e.eval s) (.text name)
  | .item e key => do
    let v ← e.eval s
    itemOf v (← key.eval s)
  | .list items => do .ok (.list (← evalAll s items))
  | .not e => do .ok (.bool (!(← e.eval s).truth))
  | .negative e => do
    match (← e.eval s).negative? with
    | some v => .ok v
    | none => .error .failed
  | .binary op a b => do
    let v ← a.eval s
    if op = .or ∧ v.truth = true then .ok v
    else if op = .and ∧ v.truth = false then .ok v
    else op.apply v (← b.eval s)
  | .chain first rest => do evalChain s (← first.eval s) rest
  | .filter e name args named => do
    let v ← e.eval s
    let vs ← evalAll s args
    applyFilter name v ⟨vs, ← evalNamed s named⟩
  | .test e name args named => do
    let v ← e.eval s
    let vs ← evalAll s args
    applyTest name v ⟨vs, ← evalNamed s named⟩
  | .call (.name n) args named => do
    let vs ← evalAll s args
    s.call n ⟨vs, ← evalNamed s named⟩
  | .call (.member e name) args named => do
    if e.isSelf then .error .failed
    else
      let v ← e.eval s
      let vs ← evalAll s args
      let g : Given := ⟨vs, ← evalNamed s named⟩
      match v.item? (.text name) with
      | some f => f.call g
      | none => .error .failed
  | .call f args named => do
    let v ← f.eval s
    let vs ← evalAll s args
    v.call ⟨vs, ← evalNamed s named⟩

/-- The values of expressions, in order. -/
def evalAll (s : Scope) : List Expr → Except TemplateError (List Value)
  | [] => .ok []
  | e :: rest => do
    let v ← e.eval s
    let vs ← evalAll s rest
    .ok (v :: vs)

/-- The values of named expressions, in order. -/
def evalNamed (s : Scope) : List (Text × Expr) → Except TemplateError (List (Text × Value))
  | [] => .ok []
  | (name, e) :: rest => do
    let v ← e.eval s
    let vs ← evalNamed s rest
    .ok ((name, v) :: vs)

/-- Whether all comparisons of a chain hold whose first operand has a value; what follows one that
does not is not looked at. -/
def evalChain (s : Scope) (v : Value) : List (Comparison × Expr) → Except TemplateError Value
  | [] => .ok (.bool true)
  | (c, e) :: rest => do
    let w ← e.eval s
    if c.holds v w then evalChain s w rest else .ok (.bool false)

end

/-! ## Constants -/

/-- The value of a constant. -/
def Expr.constant? : Expr → Option Value
  | constant v => some v
  | _ => none

/-- What an operator makes of two constants. -/
def Operator.fold? (op : Operator) (a b : Value) : Option Value :=
  match op with
  | and => some (if a.truth && b.truth then b else .bool false)
  | _ => (op.apply a b).toOption

/-- Whether all comparisons of a chain of constants hold. -/
def foldChain (v : Value) : List (Comparison × Value) → Bool
  | [] => true
  | (c, w) :: rest => c.holds v w && foldChain w rest

namespace Expr

/-- The constant of a value, or else an expression. -/
def orConstant (e : Expr) : Option Value → Expr
  | some v => constant v
  | none => e

/-- The negation of an expression. -/
def negation (e : Expr) : Expr := (not e).orConstant (e.constant?.map fun v => .bool !v.truth)

/-- An expression with the other sign. -/
def opposite (e : Expr) : Expr := (negative e).orConstant (e.constant?.bind Value.negative?)

/-- An operator between two expressions. -/
def operation (op : Operator) (a b : Expr) : Expr :=
  (binary op a b).orConstant do op.fold? (← a.constant?) (← b.constant?)

/-- A chain of comparisons. -/
def comparison (first : Expr) (rest : List (Comparison × Expr)) : Expr :=
  (chain first rest).orConstant do
    let v ← first.constant?
    let vs ← rest.mapM fun (c, e) => e.constant?.map (c, ·)
    some (.bool (foldChain v vs))

/-- A list of expressions. -/
def listing (items : List Expr) : Expr :=
  (list items).orConstant ((items.mapM constant?).map .list)

end Expr

end Template

end Tagtext
