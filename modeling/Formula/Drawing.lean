import Formula.Compiled
import Formula.Library.Standard

/-!
# Drawing numbers

The function `random` of the standard library draws a number at every invocation. A call takes these
numbers from a supply, one after another, and is otherwise like one that draws nothing.

## Main definitions

* `Draws` — a supply of numbers.
* `Drawing` — evaluations that draw.
* `CompiledFunction.callDrawing` — the call of a function of the standard library.
-/

namespace Formula

/-- An endless supply of numbers. -/
structure Draws where
  nth : Nat → Float

namespace Draws

def first (draws : Draws) : Float :=
  draws.nth 0

/-- What is left after the first number has been drawn. -/
def rest (draws : Draws) : Draws :=
  { nth := fun n => draws.nth (n + 1) }

/-- The supply of one number, again and again. -/
def constant (x : Float) : Draws :=
  { nth := fun _ => x }

instance : Coe Float Draws :=
  ⟨constant⟩

end Draws

/-- Whether an invocation draws its result. -/
def Invocation.draws : Invocation Float → Bool
  | function name _ => name == Standard.drawing
  | unary _ _ => false
  | binary _ _ _ => false

/-- Evaluations that take what they draw from a supply. -/
abbrev Drawing : Type → Type :=
  StateT Draws (Run Float)

/-- Records an invocation and takes its result, or the next number of the supply if it draws. -/
def Drawing.invoke (invocation : Invocation Float) (result : Except MissingArgument Float) :
    Drawing Float := fun draws =>
  if invocation.draws then do
    let value ← Run.invoke invocation (.ok draws.first)
    return (value, draws.rest)
  else do
    let value ← Run.invoke invocation result
    return (value, draws)

instance : Invokes Float Drawing where
  fail error := fun _ => .fail error
  invoke := Drawing.invoke

/-- The value at a list of arguments of a function that was compiled with the standard library. Each
invocation of `random` draws a number of its own. -/
def CompiledFunction.callDrawing (f : CompiledFunction Float) (draws : Draws) (args : List Float) :
    Run Float (Option Float) :=
  StateT.run' (f.callIn args) draws

end Formula
