import Formula.Number.Float

/-!
# Factorials

The factorial of a floating-point number: the exact product where it is a small integer, and
otherwise the gamma function by the Lanczos approximation.

## Main definitions

* `Factorial.ofWord?` — the product in 64 bits, or nothing if it does not fit.
* `Factorial.exactFloat?` — the exact factorial of a number, where it is used.
* `Factorial.factorial` — the factorial of any number.
-/

namespace Formula.Factorial

/-- The integers up to this one have a floating-point value of their own, as do their
neighbours. -/
def maxSafe : UInt64 := 9007199254740991

/-- The integer a number stands for, if it is one, not negative and at most `maxSafe`. -/
def toInteger? (x : Float) : Option UInt64 :=
  match BinaryFloat.natural? (BinaryFloat.unpack x) with
  | some n => if n ≤ maxSafe.toNat then some n.toUInt64 else none
  | none => none

/-- The number of an integer, if that is at most `maxSafe`. -/
def ofInteger? (k : UInt64) : Option Float :=
  if k ≤ maxSafe then some k.toFloat else none

def checkedMul (a b : UInt64) : Option UInt64 :=
  if a.toNat * b.toNat < UInt64.size then some (a * b) else none

/-- The product of `acc` and the integers from `next` to `last`. -/
def product (acc : UInt64) (next last : Nat) : Option UInt64 :=
  if next ≤ last then
    match checkedMul acc next.toUInt64 with
    | some acc => product acc (next + 1) last
    | none => none
  else some acc
termination_by last + 1 - next

/-- The factorial of `k` if it fits into 64 bits. -/
def ofWord? (k : UInt64) : Option UInt64 :=
  product 1 2 k.toNat

/-- The integers up to this one have a factorial of 64 bits. -/
def maxExact : UInt64 := 20

/-- The exact factorial of a number, where one is used: of an integer up to `maxExact` whose
factorial is at most `maxSafe`. -/
def exactFloat? (x : Float) : Option Float := do
  let k ← toInteger? x
  if k ≤ maxExact then ofInteger? (← ofWord? k) else none

def pi : Float := 3.14159265358979323846264338327950288

def tau : Float := 6.28318530717958647692528676655900577

/-- The coefficients of the approximation after the first. -/
def coefficients : List Float :=
  [676.5203681218851, -1259.1392167224028, 771.3234287776531, -176.6150291621406,
    12.507343278686905, -0.13857109526572012, 9.984369578019572e-6, 1.5056327351493116e-7]

/-- The sum of the coefficients over consecutive numbers from `z + offset` on. -/
def series (z : Float) : Float → Float → List Float → Float
  | sum, _, [] => sum
  | sum, offset, c :: cs => series z (sum + c / (z + offset)) (offset + 1) cs

/-- The gamma function of a number from a half on. -/
def lanczos (z : Float) : Float :=
  let w := z - 1
  let t := w + 7 + 0.5
  tau.sqrt * t.pow (w + 0.5) * (-t).exp * series w 0.9999999999998099 1 coefficients

/-- The gamma function; below a half by reflection. -/
def gamma (z : Float) : Float :=
  if z < 0.5 then pi / ((pi * z).sin * lanczos (1 - z)) else lanczos z

/-- Whether a number is a negative integer. -/
def isNegativeInteger (x : Float) : Bool :=
  x < 0 && (BinaryFloat.natural? (BinaryFloat.unpack (-x))).isSome

def factorial (x : Float) : Float :=
  if isNegativeInteger x then 0 / 0
  else
    match exactFloat? x with
    | some value => value
    | none => gamma (x + 1)

end Formula.Factorial
