import Formula.Decimal.Literal
import Formula.Decimal.Shortest

/-!
# Binary numbers and their texts

What the two floating-point types have in common: values of the form `± m · 2 ^ e` with a bounded
mantissa, besides infinities and the value that is not a number. From that follow their texts, with
the shortest digits or with a chosen number of them, and the operations that are exact.
-/

namespace Formula

open Float.Model

class BinaryFloat (T : Type) where
  format : Format
  unpack : T → UnpackedFloat
  /-- The nearest value of the type. -/
  pack : UnpackedFloat → T
  /-- The value nearest to `coefficient · 10 ^ exponent`. -/
  ofDecimal : Decimal → T

namespace BinaryFloat

variable {T : Type} [BinaryFloat T]

def signText : UnpackedFloat.Sign → String
  | .positive => ""
  | .negative => "-"

/-- The text of a value, given how zero and the decimals of finite values are written. -/
def render (zero : String) (finite : Nat → Int → String) (x : T) : String :=
  match unpack x with
  | .notANumber => "NaN"
  | .infinity sign => signText sign ++ "inf"
  | .zero sign => signText sign ++ zero
  | .finite sign m e _ => signText sign ++ finite m e

/-- The decimal with the fewest digits that reads back as `m · 2 ^ e` of the format. The gap below
a power of two is half as wide, but for the smallest exponent. -/
def shortestDecimal (format : Format) (m : Nat) (e : Int) : Decimal :=
  Decimal.shortest m e (m == 1 <<< format.mantissaBitsWithoutImplicit && format.minExponent < e)

/-- One digit, a point and the other digits if there are any, and a power of ten. -/
def scientificText (d : Decimal) : String :=
  let power := "e" ++ toString d.leadingExponent
  match d.digits with
  | [] => power
  | [first] => String.ofList [first] ++ power
  | first :: rest => String.ofList (first :: '.' :: rest) ++ power

/-- The digits around the decimal point, padded with zeros up to it, without a power of ten. -/
def positionalText (d : Decimal) : String :=
  let digits := d.digits
  let whole : Int := digits.length + d.exponent
  if 0 ≤ d.exponent then String.ofList (digits ++ List.replicate d.exponent.toNat '0')
  else if 0 < whole then
    String.ofList (digits.take whole.toNat ++ '.' :: digits.drop whole.toNat)
  else String.ofList ('0' :: '.' :: List.replicate (-whole).toNat '0' ++ digits)

/-- The shortest digits that read back as the value, with a power of ten. -/
def scientific (x : T) : String :=
  render "0e0" (fun m e => scientificText (shortestDecimal (format T) m e)) x

/-- Zero with `count` digits. -/
def zeroText (count : Nat) : String :=
  if count ≤ 1 then "0e0"
  else String.ofList ('0' :: '.' :: List.replicate (count - 1) '0') ++ "e0"

/-- The value rounded to `count` significant digits, with a power of ten. -/
def significant (count : Nat) (x : T) : String :=
  render (zeroText count) (fun m e => scientificText ((Decimal.ofBinary m e).round count)) x

/-- The shortest digits that read back as the value, without a power of ten. -/
def positional (x : T) : String :=
  render "0" (fun m e => positionalText (shortestDecimal (format T) m e)) x

/-- The value of a literal. -/
def ofLiteral (l : Literal) : T :=
  match l with
  | .notANumber => pack .notANumber
  | .infinite negative => pack (.infinity (if negative then .negative else .positive))
  | .finite negative coefficient exponent =>
    let magnitude : T := ofDecimal { coefficient, exponent }
    if negative then pack (unpack magnitude).neg else magnitude

/-- The remainder of a division that rounds toward zero; it has the sign of the dividend. -/
def remainder (format : Format) : UnpackedFloat → UnpackedFloat → UnpackedFloat
  | .notANumber, _ | _, .notANumber | .infinity _, _ | _, .zero _ => .notANumber
  | x, .infinity _ => x
  | .zero sign, _ => .zero sign
  | .finite sign m e _, .finite _ n f _ =>
    let scale := min e f
    let r := (m <<< (e - scale).toNat) % (n <<< (f - scale).toNat)
    if r = 0 then .zero sign else .round format sign r scale

/-- The square root of the sum of two squares, rounded once. -/
def hypotenuse (format : Format) : UnpackedFloat → UnpackedFloat → UnpackedFloat
  | .infinity _, _ | _, .infinity _ => .infinity .positive
  | .notANumber, _ | _, .notANumber => .notANumber
  | .zero _, y => y.abs
  | x, .zero _ => x.abs
  | .finite _ m e hm, .finite _ n f _ =>
    let scale := min e f
    let a := m <<< (e - scale).toNat
    let b := n <<< (f - scale).toNat
    .sqrt format (.finite .positive (a * a + b * b) (2 * scale) (by
      have ha : 0 < a := by
        simpa only [a, Nat.shiftLeft_eq] using Nat.mul_pos hm (Nat.pow_pos (by decide))
      have : 0 < a * a := Nat.mul_pos ha ha
      omega))

/-- The integer a value stands for, if it is not negative and has no fraction. -/
def natural? (x : UnpackedFloat) : Option Nat :=
  match x with
  | .zero _ => some 0
  | .finite .positive m e _ =>
    if 0 ≤ e then some (m <<< e.toNat)
    else if m % (1 <<< (-e).toNat) = 0 then some (m >>> (-e).toNat)
    else none
  | _ => none

end BinaryFloat

end Formula
