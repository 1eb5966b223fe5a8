import Formula.Declaration
import Formula.Number
import Formula.Proofs.Lookup

/-!
# The meaning of declarations

A declaration has a meaning of its own, given directly on its tree: names are looked up where they
stand and nothing is resolved beforehand.

## Main definitions

* `Expr.value` — the value of an expression.
* `Clause.holds` — whether a clause holds.
* `Declaration.value` — the value of a declaration at a list of arguments.
-/

namespace Formula

/-- Why there is no value. -/
inductive Undefined where
  /-- A name, a number or an operator stands for nothing. -/
  | meaning
  /-- A library function asked for an argument that was not supplied. -/
  | argument (missing : MissingArgument)
deriving DecidableEq, Repr

variable {T : Type}

def LibraryFunction.value (f : LibraryFunction T) (args : List T) : Except Undefined T :=
  (f.apply args).mapError .argument

namespace Library

/-- The function that a word means in a call, with a subscript or without one. -/
def called? (l : Library T) (word : String) (subscripted : Bool) : Option (LibraryFunction T) :=
  (if subscripted then FunctionName.subscriptedNames word
    else FunctionName.plainNames word).findSome? l.function?

theorem map_function_callee? (l : Library T) (word : String) (subscripted : Bool) :
    (l.callee? word subscripted).map FunctionEntry.function = l.called? word subscripted := by
  rw [callee?, List.map_findSome?]
  simp only [Function.comp_def, entry?, Option.map_map]
  simp [called?]

/-- The function that may stand in for an operation on one operand. -/
def operandFunction? (l : Library T) (word : String) : Option (LibraryFunction T) :=
  (l.called? word false).filter fun f => f.arity == 0 || f.arity == 1

variable [Number T]

/-- The value of an operation on one operand: as the library replaces it, else by a function of the
same name, else native. Negation has no such function and the factorial no native meaning. -/
def operation (l : Library T) (op : UnaryOperation) (x : T) : Except Undefined T :=
  match l.unary op, op with
  | some apply, _ => .ok (apply x)
  | none, .neg => .ok (-x)
  | none, .abs =>
    match l.operandFunction? "abs" with
    | some f => f.value [x]
    | none => .ok (Number.abs x)
  | none, .fac =>
    match l.operandFunction? "fac" with
    | some f => f.value [x]
    | none => .error .meaning

/-- The value of an operator: as the library replaces it, else native, the left operand first. -/
def operator (l : Library T) (op : BinaryOp) (x y : T) : T :=
  match l.binary op, op with
  | some apply, _ => apply x y
  | none, .add => x + y
  | none, .sub => x - y
  | none, .mul => x * y
  | none, .div => x / y
  | none, .pow => Number.pow x y
  | none, .mod => x % y

theorem operator_of_some {l : Library T} {op : BinaryOp} {apply : T → T → T}
    (h : l.binary op = some apply) : l.operator op = apply := by
  funext x y
  unfold operator
  rw [h]

theorem operator_of_none {l : Library T} {op : BinaryOp} (h : l.binary op = none) :
    l.operator op = op.native := by
  funext x y
  unfold operator
  rw [h]
  cases op <;> rfl

end Library

variable [Number T]

/-- The value of a parameter, a constant or a number. The environment pairs parameters with
arguments, and the first of equal names counts. -/
def Token.value? (l : Library T) (env : List (String × T)) (t : Token) : Option T :=
  match t.kind with
  | .identifier => env.lookup t.lexeme
  | .constant => l.constant? t.lexeme
  | .number => Number.ofLiteral? t.lexeme
  | _ => none

def UnaryOp.operation : UnaryOp → UnaryOperation
  | negate => .neg
  | factorial => .fac

mutual

/-- The value of an expression. A subscript is the last argument of its call. -/
def Expr.value (l : Library T) (env : List (String × T)) : Expr → Except Undefined T
  | .literal t => ((t.value? l env).map .ok).getD (.error .meaning)
  | .group e => e.value l env
  | .abs e => do
    let x ← e.value l env
    l.operation .abs x
  | .call name subscript args => do
    let xs ← Expr.values l env args
    let ys ← Expr.subscriptValue l env subscript
    match l.called? name.lexeme subscript.isSome with
    | some f => f.value (xs ++ ys)
    | none => .error .meaning
  | .unary op e => do
    let x ← e.value l env
    l.operation op.operation x
  | .binary op left right => do
    let x ← left.value l env
    let y ← right.value l env
    return l.operator op x y

def Expr.subscriptValue (l : Library T) (env : List (String × T)) :
    Option Expr → Except Undefined (List T)
  | none => return []
  | some e => do
    let x ← e.value l env
    return [x]

def Expr.values (l : Library T) (env : List (String × T)) : List Expr → Except Undefined (List T)
  | [] => return []
  | e :: es => do
    let x ← e.value l env
    let xs ← Expr.values l env es
    return x :: xs

end

/-- The consecutive operands of a chain, with the comparison between them. -/
def Clause.pairs (c : Clause) : List (Expr × Comparison × Expr) :=
  c.operands.zip (c.comparisons.zip c.operands.tail)

/-- Whether two operands of a clause compare as they should. -/
def Comparison.holdsBetween (l : Library T) (env : List (String × T)) :
    Expr × Comparison × Expr → Except Undefined Bool
  | (left, op, right) => do
    let x ← left.value l env
    let y ← right.value l env
    match op with
    | .greater => return Number.lt y x
    | .greaterEqual => return Number.le y x
    | .less => return Number.lt x y
    | .lessEqual => return Number.le x y
    | .equal => return Number.beq x y

theorem Comparison.holdsBetween_eq (l : Library T) (env : List (String × T)) (left right : Expr)
    (op : Comparison) : holdsBetween l env (left, op, right) = left.value l env >>= fun x =>
      right.value l env >>= fun y => .ok (op.holds x y) := by
  cases op <;> rfl

/-- Whether all consecutive operands of a clause compare as they should. -/
def Clause.holds (l : Library T) (env : List (String × T)) (c : Clause) : Except Undefined Bool :=
  c.pairs.allM (Comparison.holdsBetween l env)

/-- The value of a declaration at a list of arguments, or nothing where a clause fails. -/
def Declaration.value (l : Library T) (args : List T) (d : Declaration) :
    Except Undefined (Option T) := do
  let env := d.paramNames.zip args
  if ← d.clauses.allM (Clause.holds l env) then
    let x ← d.body.value l env
    return some x
  else return none

end Formula
