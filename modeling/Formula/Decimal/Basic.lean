/-!
# Decimals

A decimal is `coefficient · 10 ^ exponent`. Every binary fraction `m · 2 ^ e` is one exactly, since
a division by two is a multiplication by five and a shift of the decimal point; so texts of binary
numbers are found by counting and dropping digits of one natural number.
-/

namespace Formula

structure Decimal where
  coefficient : Nat
  exponent : Int
deriving DecidableEq, Repr

namespace Decimal

/-- The decimal digits of a natural number. -/
def digitsOf (n : Nat) : List Char :=
  Nat.toDigits 10 n

/-- The factor that makes `m · 2 ^ e` an integer over a power of ten. -/
def scaling (e : Int) : Nat :=
  if 0 ≤ e then 1 <<< e.toNat else Nat.pow 5 (-e).toNat

/-- The binary fraction `m · 2 ^ e` as a decimal. -/
def ofBinary (m : Nat) (e : Int) : Decimal :=
  { coefficient := m * scaling e, exponent := min e 0 }

/-- The digits of the coefficient. -/
def digits (d : Decimal) : List Char :=
  digitsOf d.coefficient

/-- The exponent of the first digit. -/
def leadingExponent (d : Decimal) : Int :=
  d.exponent + d.digits.length - 1

/-- The decimal without the zeros at the end of its coefficient. -/
def trim (d : Decimal) : Decimal :=
  let zeros := (d.digits.reverse.takeWhile (· == '0')).length
  if d.coefficient = 0 then d
  else { coefficient := d.coefficient / Nat.pow 10 zeros, exponent := d.exponent + zeros }

/-- The quotient by `unit`, to the nearest integer, a tie going to the even one. -/
def roundDiv (n unit : Nat) : Nat :=
  let q := n / unit
  let r := n % unit
  if unit < 2 * r ∨ unit = 2 * r ∧ q % 2 = 1 then q + 1 else q

/-- The decimal with exactly `count` digits, a tie going to the even coefficient. -/
def round (d : Decimal) (count : Nat) : Decimal :=
  let length := d.digits.length
  if length ≤ count then
    { coefficient := d.coefficient * Nat.pow 10 (count - length)
      exponent := d.exponent - (count - length : Nat) }
  else
    let dropped := length - count
    let coefficient := roundDiv d.coefficient (Nat.pow 10 dropped)
    -- Rounding up may have carried into one digit more.
    if coefficient = Nat.pow 10 count then
      { coefficient := Nat.pow 10 (count - 1), exponent := d.exponent + dropped + 1 }
    else { coefficient, exponent := d.exponent + dropped }

end Decimal

end Formula
