import Formula.Library
import Formula.Library.Factorial

/-!
# The standard library

The elementary functions over floating-point numbers, the constants `pi` and `e`, and the
factorial. `hypot`, `max`, `min` and `random` take any number of arguments. `random` draws a number
at every invocation; the library is given as an invocation finds it that draws a certain one.
-/

namespace Formula

namespace Standard

/-- A function of its first argument. -/
def unary (f : Float → Float) : List Float → Except MissingArgument Float
  | [] => .error { index := 0, supplied := 0 }
  | x :: _ => .ok (f x)

/-- A function of its first two arguments. -/
def binary (f : Float → Float → Float) : List Float → Except MissingArgument Float
  | [] => .error { index := 0, supplied := 0 }
  | [_] => .error { index := 1, supplied := 1 }
  | x :: y :: _ => .ok (f x y)

/-- A function of all arguments. -/
def variadic (f : List Float → Float) (args : List Float) : Except MissingArgument Float :=
  .ok (f args)

def infinity : Float := 1 / 0

def notANumber : Float := 0 / 0

/-- The logarithm of `1 + x`, also where `x` is too small to change one. -/
def logOnePlus (x : Float) : Float :=
  let u := 1 + x
  if u == 1 then x
  else if u == 0 || u == infinity then u.log
  else u.log + (x - (u - 1)) / u

def hypot (x y : Float) : Float :=
  BinaryFloat.pack (BinaryFloat.hypotenuse .binary64 (BinaryFloat.unpack x) (BinaryFloat.unpack y))

def atanh (x : Float) : Float :=
  0.5 * logOnePlus (2 * x / (1 - x))

/-- The logarithm of the first argument to the base given by the second. -/
def log (x base : Float) : Float :=
  x.log / base.log

/-- The nearest integer, a tie going up. -/
def round (x : Float) : Float :=
  (x + 0.5).floor

/-- One with the sign of a number that has one, and otherwise the number itself. -/
def sign (x : Float) : Float :=
  if 0 < x then 1 else if x < 0 then -1 else x

/-- Folds a choice between two numbers; once one is not a number, so is the result. -/
def select (pick : Float → Float → Float) (start : Float) (args : List Float) : Float :=
  args.foldl (fun acc x => if acc.isNaN || x.isNaN then notANumber else pick acc x) start

/-- The largest argument, the last of those that are equal. -/
def max (args : List Float) : Float :=
  select (fun a b => if b < a then a else b) (-infinity) args

/-- The smallest argument, the last of those that are equal. -/
def min (args : List Float) : Float :=
  select (fun a b => if a < b then a else b) infinity args

/-- The function that draws a number at every invocation. -/
def drawing : String := "random"

/-- The functions of the library with their arities, for an invocation that draws `draw`. -/
def functions (draw : Float) :
    List (String × Nat × (List Float → Except MissingArgument Float)) :=
  [("abs", 1, unary Float.abs),
    ("acos", 1, unary Float.acos),
    ("acosh", 1, unary Float.acosh),
    ("asin", 1, unary Float.asin),
    ("asinh", 1, unary Float.asinh),
    ("atan", 1, unary Float.atan),
    ("atanh", 1, unary atanh),
    ("cbrt", 1, unary Float.cbrt),
    ("ceil", 1, unary Float.ceil),
    ("cos", 1, unary Float.cos),
    ("cosh", 1, unary Float.cosh),
    ("exp", 1, unary Float.exp),
    ("floor", 1, unary Float.floor),
    ("hypot", 0, variadic fun args => args.foldl hypot 0),
    ("log_", 1, binary log),
    ("ln", 1, unary Float.log),
    ("max", 0, variadic max),
    ("min", 0, variadic min),
    ("pow", 2, binary Float.pow),
    (drawing, 0, variadic fun _ => draw),
    ("round", 1, unary round),
    ("sign", 1, unary sign),
    ("sin", 1, unary Float.sin),
    ("sinh", 1, unary Float.sinh),
    ("sqrt", 1, unary Float.sqrt),
    ("tan", 1, unary Float.tan),
    ("tanh", 1, unary Float.tanh)]

/-- The names of the functions, in the order in which they are registered. -/
def functionNames : List String :=
  (functions 0).map Prod.fst

end Standard

/-- The standard library as an invocation finds it that draws `draw`. -/
def Library.standard (draw : Float) : Library Float :=
  let functions := (Standard.functions draw).foldl
    (fun l (name, arity, apply) => l.addFunction name arity apply) Library.empty
  ((functions.addConstant "pi" Factorial.pi).addConstant "e"
    2.71828182845904523536028747135266250).setUnary .fac Factorial.factorial

end Formula
