import Formula.Compiled

/-!
# Resolution

Resolving an expression looks up every name in it and chooses the meaning of every operator. It
fails at the first name, in the order described at `Scope.resolve`, that has no meaning.
-/

namespace Formula

variable {T : Type}

namespace Scope

/-- The absolute value of an operand: as the library replaces it, else by a function named `abs`,
else native. -/
def resolveAbs (s : Scope T) (operand : Node T) : Node T :=
  match s.library.unary .abs with
  | some apply => .unary .abs apply operand
  | none =>
    match s.unaryFunction? "abs" with
    | some entry => .call entry [operand]
    | none => .abs operand

def resolveNegate (s : Scope T) (operand : Node T) : Node T :=
  match s.library.unary .neg with
  | some apply => .unary .neg apply operand
  | none => .negate operand

/-- The factorial of an operand: as the library gives it, else by a function named `fac`. There is
no native one. -/
def resolveFactorial (s : Scope T) (operand : Node T) : Except CompileError (Node T) :=
  match s.library.unary .fac with
  | some apply => .ok (.unary .fac apply operand)
  | none =>
    match s.unaryFunction? "fac" with
    | some entry => .ok (.call entry [operand])
    | none => .error (.undefinedOperator "factorial")

def resolveUnary (s : Scope T) (op : UnaryOp) (operand : Node T) : Except CompileError (Node T) :=
  match op with
  | .negate => .ok (s.resolveNegate operand)
  | .factorial => s.resolveFactorial operand

def resolveBinary (s : Scope T) (op : BinaryOp) (left right : Node T) : Node T :=
  match s.library.binary op with
  | some apply => .binary op apply left right
  | none => .native op left right

variable [Number T]

def resolveLiteral (s : Scope T) (token : Token) : Except CompileError (Node T) :=
  match token.kind with
  | .identifier => (s.parameter token.lexeme).map (.parameter token.lexeme)
  | .constant => (s.constant token.lexeme).map (.constant token.lexeme)
  | .number =>
    match Number.ofLiteral? token.lexeme with
    | some value => .ok (.number token.lexeme value)
    | none => .error (.invalidLiteral token.lexeme)
  | _ => .error (.invalidLiteral token.lexeme)

mutual

/-- The node of an expression. A call is looked up before its arguments are, and its subscript is
resolved after them; all else goes from left to right and from the inside out. -/
def resolve (s : Scope T) : Expr → Except CompileError (Node T)
  | .literal token => s.resolveLiteral token
  | .group inner => do
    let node ← s.resolve inner
    return .group node
  | .abs inner => do
    let node ← s.resolve inner
    return s.resolveAbs node
  | .call name variant args => do
    let entry ← s.function name.lexeme variant.isSome args.length
    let nodes ← s.resolveAll args
    let subscript ← s.resolveOption variant
    return .call entry (nodes ++ subscript)
  | .unary op operand => do
    let node ← s.resolve operand
    s.resolveUnary op node
  | .binary op left right => do
    let a ← s.resolve left
    let b ← s.resolve right
    return s.resolveBinary op a b

def resolveOption (s : Scope T) : Option Expr → Except CompileError (List (Node T))
  | none => return []
  | some expr => do
    let node ← s.resolve expr
    return [node]

def resolveAll (s : Scope T) : List Expr → Except CompileError (List (Node T))
  | [] => return []
  | expr :: exprs => do
    let node ← s.resolve expr
    let nodes ← s.resolveAll exprs
    return node :: nodes

end

/-- The condition of a clause, its operands resolved from left to right. -/
def resolveClause (s : Scope T) : Clause → Except CompileError (Condition T)
  | .compare left op right => do
    let first ← s.resolve left
    let node ← s.resolve right
    return { first, links := [(op, node)] }
  | .chain previous op right => do
    let condition ← s.resolveClause previous
    let node ← s.resolve right
    return { condition with links := condition.links ++ [(op, node)] }

def resolveClauses (s : Scope T) : List Clause → Except CompileError (List (Condition T))
  | [] => return []
  | clause :: clauses => do
    let condition ← s.resolveClause clause
    let conditions ← s.resolveClauses clauses
    return condition :: conditions

end Scope

end Formula
