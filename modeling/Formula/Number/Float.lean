import Formula.Number
import Formula.Number.Binary

/-!
# Floating-point numbers

Formulas over the two floating-point types. Arithmetic and comparisons are those of the types;
remainders are exact, and literals are read to the nearest value.
-/

namespace Formula

open Float.Model

instance : BinaryFloat Float where
  format := .binary64
  unpack x := x.toModel.unpack
  pack x := .ofModel (.pack x)
  ofDecimal d := .ofScientific d.coefficient (decide (d.exponent < 0)) d.exponent.natAbs

instance : BinaryFloat Float32 where
  format := .binary32
  unpack x := x.toModel.unpack
  pack x := .ofModel (.pack x)
  ofDecimal d := .ofScientific d.coefficient (decide (d.exponent < 0)) d.exponent.natAbs

/-- The value of a text that is a number literal. -/
def BinaryFloat.ofText? {T : Type} [BinaryFloat T] (text : String) : Option T :=
  (Literal.parse? text).map ofLiteral

def BinaryFloat.mod {T : Type} [BinaryFloat T] (x y : T) : T :=
  pack (remainder (format T) (unpack x) (unpack y))

instance instModFloat : Mod Float := ⟨BinaryFloat.mod⟩

instance instModFloat32 : Mod Float32 := ⟨BinaryFloat.mod⟩

instance : Number Float where
  pow := Float.pow
  abs := Float.abs
  lt := Float.lt
  le := Float.le
  beq := Float.beq
  ofLiteral? := BinaryFloat.ofText?

instance : Number Float32 where
  pow := Float32.pow
  abs := Float32.abs
  lt := Float32.lt
  le := Float32.le
  beq := Float32.beq
  ofLiteral? := BinaryFloat.ofText?

end Formula
