import Formula.Library.Registry
import Formula.Operator
import Formula.Token.Scan

/-!
# Libraries

A library gives meaning to the functions and constants of a source and may replace the meaning of
operators. It is built from the empty library by registrations, of which the last for a name or an
operator counts.

A registered name that ends in an underscore declares a function that takes a subscript: `log_` is
called as `log_2(x)`. The canonical name, without that mark, is the word a source uses. The name
that is nothing but an underscore declares no subscript, though its canonical name is empty.
-/

namespace Formula

namespace FunctionName

/-- The mark at the end of a name that declares a subscript. -/
def variantMark : Char := '_'

/-- The word a source uses for a registered name. -/
def canonical (name : String) : String :=
  if name.toList.getLast? = some variantMark then String.ofList name.toList.dropLast else name

/-- Whether a registered name declares a subscript. -/
def acceptsVariant (name : String) : Bool :=
  1 < name.toList.length && name.toList.getLast? == some variantMark

end FunctionName

/-- A function asked for an argument that was not supplied. -/
structure MissingArgument where
  index : Nat
  supplied : Nat
deriving DecidableEq, Repr

/-- A library function. An arity of zero admits any number of arguments. The arity leaves out the
subscript, which is applied as one more argument, the last. -/
structure LibraryFunction (T : Type) where
  arity : Nat
  apply : List T → Except MissingArgument T

structure Library (T : Type) where
  functions : Registry (LibraryFunction T)
  constants : Registry T
  /-- The replaced meanings of operators. -/
  binary : BinaryOp → Option (T → T → T)
  unary : UnaryOperation → Option (T → T)

namespace Library

variable {T : Type}

def empty : Library T :=
  { functions := .empty
    constants := .empty
    binary := fun _ => none
    unary := fun _ => none }

def addFunction (l : Library T) (name : String) (arity : Nat)
    (apply : List T → Except MissingArgument T) : Library T :=
  { l with functions := l.functions.insert name { arity, apply } }

def addConstant (l : Library T) (name : String) (value : T) : Library T :=
  { l with constants := l.constants.insert name value }

def setBinary (l : Library T) (op : BinaryOp) (apply : T → T → T) : Library T :=
  { l with binary := fun other => if other = op then some apply else l.binary other }

def setUnary (l : Library T) (op : UnaryOperation) (apply : T → T) : Library T :=
  { l with unary := fun other => if other = op then some apply else l.unary other }

def function? (l : Library T) (name : String) : Option (LibraryFunction T) :=
  l.functions.get? name

def constant? (l : Library T) (name : String) : Option T :=
  l.constants.get? name

def functionNames (l : Library T) : List String :=
  l.functions.names

def constantNames (l : Library T) : List String :=
  l.constants.names

/-- Whether a source may use the word for a function. -/
def isFunctionName (l : Library T) (word : String) : Bool :=
  l.functionNames.any fun name => FunctionName.canonical name == word

def isConstantName (l : Library T) (word : String) : Bool :=
  l.constants.contains word

/-- The operators whose meaning the library replaces. -/
def binaryOverrides (l : Library T) : List BinaryOp :=
  BinaryOp.all.filter fun op => (l.binary op).isSome

def unaryOverrides (l : Library T) : List UnaryOperation :=
  UnaryOperation.all.filter fun op => (l.unary op).isSome

/-- The words a source may use under the library. -/
def vocabulary (l : Library T) : Vocabulary :=
  { isFunction := l.isFunctionName, isConstant := l.isConstantName }

end Library

end Formula
