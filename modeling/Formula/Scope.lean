import Formula.Library

/-!
# Scopes

The names a declaration can refer to: its parameters, by position, and the entries of a library.
A word may stand for two functions of a library, a plain one and one that takes a subscript; the
call decides which is meant.
-/

namespace Formula

/-- A library function under its registered name. -/
structure FunctionEntry (T : Type) where
  name : String
  function : LibraryFunction T

/-- Whether the function takes a subscript. -/
def FunctionEntry.variant {T : Type} (e : FunctionEntry T) : Bool :=
  FunctionName.acceptsVariant e.name

structure Scope (T : Type) where
  params : List String
  library : Library T

namespace Scope

variable {T : Type}

/-- The position of a parameter, the first of equal names. -/
def parameter (s : Scope T) (name : String) : Except CompileError Nat :=
  match s.params.findIdx? (· == name) with
  | some index => .ok index
  | none => .error (.undefinedIdentifier name)

def constant (s : Scope T) (name : String) : Except CompileError T :=
  match s.library.constant? name with
  | some value => .ok value
  | none => .error (.undefinedConstant name)

/-- The functions a word stands for, in the order of their registered names. -/
def overloads (s : Scope T) (word : String) : List (FunctionEntry T) :=
  (s.library.functions.entries.map fun e => { name := e.1, function := e.2 }).filter
    fun e => FunctionName.canonical e.name == word

/-- The function a word stands for without a subscript. -/
def plainFunction? (s : Scope T) (word : String) : Option (FunctionEntry T) :=
  ((s.overloads word).filter fun e => !e.variant).getLast?

/-- The function a word stands for with a subscript. -/
def variantFunction? (s : Scope T) (word : String) : Option (FunctionEntry T) :=
  ((s.overloads word).filter fun e => e.variant).getLast?

/-- The function that a call means, which must agree with the call on whether there is a subscript
and on the number of arguments. -/
def function (s : Scope T) (word : String) (withVariant : Bool) (count : Nat) :
    Except CompileError (FunctionEntry T) :=
  let plain := s.plainFunction? word
  let variant := s.variantFunction? word
  match if withVariant then variant.or plain else plain.or variant with
  | none => .error (.undefinedFunction word)
  | some entry =>
    if withVariant && !entry.variant then .error (.unexpectedVariant word)
    else if !withVariant && entry.variant then .error (.missingVariant word)
    else if entry.function.arity ≠ 0 ∧ entry.function.arity ≠ count then
      .error (.argumentCountMismatch word entry.function.arity count)
    else .ok entry

/-- The function that takes the place of an operation: plain, and fit for one argument. -/
def unaryFunction? (s : Scope T) (word : String) : Option (FunctionEntry T) :=
  (s.plainFunction? word).filter fun e => e.function.arity == 0 || e.function.arity == 1

end Scope

end Formula
