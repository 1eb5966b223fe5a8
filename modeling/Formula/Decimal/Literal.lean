/-!
# Number literals

The text of a number: an optional sign, then `inf`, `infinity` or `nan` in any case, or digits with
at most one point among them and at least one digit, then optionally a power of ten. Nothing else
may stand in the text, blanks included.
-/

namespace Formula

inductive Literal where
  | notANumber
  | infinite (negative : Bool)
  /-- The number `coefficient · 10 ^ exponent` with a sign. -/
  | finite (negative : Bool) (coefficient : Nat) (exponent : Int)
deriving DecidableEq, Repr

namespace Literal

/-- The value of a run of digits. -/
def valueOf (digits : List Char) : Nat :=
  digits.foldl (fun value c => 10 * value + (c.toNat - '0'.toNat)) 0

/-- Splits off a sign; without one the text is not negative. -/
def takeSign : List Char → Bool × List Char
  | '-' :: rest => (true, rest)
  | '+' :: rest => (false, rest)
  | text => (false, text)

/-- The exponent written after `e`: a sign and at least one digit. -/
def exponent? (text : List Char) : Option Int :=
  let (negative, digits) := takeSign text
  if digits.isEmpty || !digits.all Char.isDigit then none
  else if negative then some (-(valueOf digits : Int))
  else some (valueOf digits)

/-- The power of ten at the end of a number, none at all counting as the exponent zero. -/
def power? : List Char → Option Int
  | [] => some 0
  | c :: rest => if c == 'e' || c == 'E' then exponent? rest else none

/-- The digits after the point, and the text after them. -/
def takeFraction : List Char → List Char × List Char
  | '.' :: rest => (rest.takeWhile Char.isDigit, rest.dropWhile Char.isDigit)
  | rest => ([], rest)

/-- Digits with a point and a power of ten. -/
def finite? (negative : Bool) (text : List Char) : Option Literal :=
  let whole := text.takeWhile Char.isDigit
  let (fraction, rest) := takeFraction (text.dropWhile Char.isDigit)
  if whole.isEmpty && fraction.isEmpty then none
  else
    (power? rest).map fun power =>
      finite negative (valueOf (whole ++ fraction)) (power - fraction.length)

/-- Reads a literal. -/
def parse? (text : String) : Option Literal :=
  let (negative, rest) := takeSign text.toList
  let word := String.ofList (rest.map Char.toLower)
  if word = "inf" ∨ word = "infinity" then some (infinite negative)
  else if word = "nan" then some notANumber
  else finite? negative rest

end Literal

end Formula
