import Formula.Token

/-!
# Operators

The operators of expressions and guard clauses, and the unary operations whose meaning a library
may replace. Binary operators serve both purposes.
-/

namespace Formula

inductive BinaryOp where
  | add
  | sub
  | mul
  | div
  | pow
  | mod
deriving DecidableEq, Repr

inductive UnaryOp where
  | negate
  | factorial
deriving DecidableEq, Repr

/-- The unary operations a library may replace: absolute value, negation and factorial. -/
inductive UnaryOperation where
  | abs
  | neg
  | fac
deriving DecidableEq, Repr

inductive Comparison where
  | greater
  | greaterEqual
  | less
  | lessEqual
  | equal
deriving DecidableEq, Repr

namespace BinaryOp

def ofKind? : TokenKind → Option BinaryOp
  | .plus => some add
  | .minus => some sub
  | .star => some mul
  | .slash => some div
  | .caret => some pow
  | .percent => some mod
  | _ => none

def isAdditive : BinaryOp → Bool
  | add | sub => true
  | _ => false

def isMultiplicative : BinaryOp → Bool
  | mul | div | mod => true
  | _ => false

/-- The operators of a sum. -/
def ofAdditive? (kind : TokenKind) : Option BinaryOp :=
  (ofKind? kind).filter isAdditive

/-- The operators written between the operands of a product. -/
def ofMultiplicative? (kind : TokenKind) : Option BinaryOp :=
  (ofKind? kind).filter isMultiplicative

def symbol : BinaryOp → String
  | add => "+"
  | sub => "-"
  | mul => "*"
  | div => "/"
  | pow => "^"
  | mod => "%"

/-- The name under which a library replaces the operator. -/
def name : BinaryOp → String
  | add => "add"
  | sub => "sub"
  | mul => "mul"
  | div => "div"
  | pow => "pow"
  | mod => "mod"

/-- All operators, in the order in which a library lists them. -/
def all : List BinaryOp :=
  [add, sub, mul, div, pow, mod]

theorem mem_all (op : BinaryOp) : op ∈ all := by
  cases op <;> decide

end BinaryOp

namespace UnaryOp

def symbol : UnaryOp → String
  | negate => "-"
  | factorial => "!"

end UnaryOp

namespace UnaryOperation

/-- The name under which a library replaces the operation. -/
def name : UnaryOperation → String
  | abs => "abs"
  | neg => "neg"
  | fac => "fac"

/-- All operations, in the order in which a library lists them. -/
def all : List UnaryOperation :=
  [abs, neg, fac]

theorem mem_all (op : UnaryOperation) : op ∈ all := by
  cases op <;> decide

end UnaryOperation

namespace Comparison

def ofKind? : TokenKind → Option Comparison
  | .greater => some greater
  | .greaterEqual => some greaterEqual
  | .less => some less
  | .lessEqual => some lessEqual
  | .equal => some equal
  | _ => none

def symbol : Comparison → String
  | greater => ">"
  | greaterEqual => ">="
  | less => "<"
  | lessEqual => "<="
  | equal => "=="

theorem isSome_ofKind? (k : TokenKind) : (ofKind? k).isSome = k.isComparison := by
  cases k <;> rfl

end Comparison

end Formula
