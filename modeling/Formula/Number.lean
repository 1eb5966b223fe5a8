import Formula.Operator

/-!
# Numbers

What a numeric type needs so that formulas can be evaluated over it. Nothing is assumed about the
operations; in particular comparisons may all fail, as they do for a value that is not a number.
-/

namespace Formula

class Number (T : Type) extends Add T, Sub T, Mul T, Div T, Mod T, Neg T where
  pow : T → T → T
  abs : T → T
  lt : T → T → Bool
  le : T → T → Bool
  beq : T → T → Bool
  /-- The value of a number literal, if the text is one. -/
  ofLiteral? : String → Option T

/-- The meaning of an operator that no library replaces. -/
def BinaryOp.native {T : Type} [Number T] : BinaryOp → T → T → T
  | add, a, b => a + b
  | sub, a, b => a - b
  | mul, a, b => a * b
  | div, a, b => a / b
  | pow, a, b => Number.pow a b
  | mod, a, b => a % b

def Comparison.holds {T : Type} [Number T] : Comparison → T → T → Bool
  | greater, a, b => Number.lt b a
  | greaterEqual, a, b => Number.le b a
  | less, a, b => Number.lt a b
  | lessEqual, a, b => Number.le a b
  | equal, a, b => Number.beq a b

end Formula
