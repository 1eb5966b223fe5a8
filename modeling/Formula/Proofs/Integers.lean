import Mathlib
import Formula.Library.Factorial

/-!
# Integers as floating-point numbers

An integer of at most 53 bits is a floating-point number: nothing is rounded when it is converted,
and the number that results stands for that integer again.

## Main statements

* `BinaryFloat.unpack_toFloat` — the mantissa and the exponent of such an integer.
* `BinaryFloat.natural?_unpack_toFloat` — the integer that it stands for.
-/

namespace Formula.BinaryFloat

open Float.Model Float.Model.UnpackedFloat

/-! ## Rounding -/

/-- A mantissa of full width stays as it is. -/
theorem shiftToTargetExponent_of_log2 {m : Nat} {e : Int} (hm : m.log2 = 52) (he : -1074 ≤ e) :
    shiftToTargetExponent .binary64 m e .exact = (⟨m, false, false⟩, e) := by
  have htarget : Format.binary64.targetExponent (totalExponent m e) = e := by
    simp only [Format.targetExponent, totalExponent, Format.mantissaBits, Format.minExponent, hm]
    omega
  rw [shiftToTargetExponent, htarget, shiftToExponent, Int.sub_self]
  show ((⟨m, false, false⟩ : ExtendedMantissa), e + 0) = _
  rw [Int.add_zero]

theorem roundWithAccuracy_of_log2 {m : Nat} {e : Int} (hm : m.log2 = 52) (he : -1074 ≤ e)
    (hpos : 0 < m) (s : Sign) : roundWithAccuracy .binary64 s m e .exact = .finite s m e hpos := by
  have hrounded : ExtendedMantissa.roundedMantissa ⟨m, false, false⟩ = m := rfl
  unfold roundWithAccuracy
  simp only [shiftToTargetExponent_of_log2 hm he, hrounded]
  exact dif_neg (Nat.pos_iff_ne_zero.1 hpos)

/-- The mantissa of an integer: the integer with zeros after it, up to the full width. -/
def integerMantissa (n : Nat) : Nat :=
  n <<< (52 - n.log2)

section Width

variable {n : Nat} (hpos : 0 < n) (hlt : n < 2 ^ 53)

include hpos

theorem integerMantissa_pos : 0 < integerMantissa n := by
  rw [integerMantissa, Nat.shiftLeft_eq]
  exact Nat.mul_pos hpos (Nat.pow_pos (by decide))

include hlt

theorem log2_le_of_lt : n.log2 ≤ 52 :=
  Nat.le_of_lt_succ ((Nat.log2_lt (Nat.pos_iff_ne_zero.1 hpos)).2 hlt)

theorem log2_integerMantissa : (integerMantissa n).log2 = 52 := by
  have hlog := log2_le_of_lt hpos hlt
  have hlow := Nat.log2_self_le (Nat.pos_iff_ne_zero.1 hpos)
  rw [Nat.log2_eq_iff (Nat.pos_iff_ne_zero.1 (integerMantissa_pos hpos)), integerMantissa,
    Nat.shiftLeft_eq]
  constructor
  · calc 2 ^ 52
      _ = 2 ^ n.log2 * 2 ^ (52 - n.log2) := by rw [← Nat.pow_add, Nat.add_sub_cancel' hlog]
      _ ≤ n * 2 ^ (52 - n.log2) := Nat.mul_le_mul_right _ hlow
  · calc n * 2 ^ (52 - n.log2)
      _ < 2 ^ (n.log2 + 1) * 2 ^ (52 - n.log2) :=
        Nat.mul_lt_mul_of_pos_right Nat.lt_log2_self (Nat.pow_pos (by decide))
      _ = 2 ^ (52 + 1) := by rw [← Nat.pow_add, Nat.add_right_comm, Nat.add_sub_cancel' hlog]

theorem round_integer (s : Sign) :
    UnpackedFloat.round .binary64 s n 0 =
      .finite s (integerMantissa n) (n.log2 - 52) (integerMantissa_pos hpos) := by
  have hlog := log2_le_of_lt hpos hlt
  have htarget : Format.binary64.targetExponent (totalExponent n 0) = n.log2 - 52 := by
    simp only [Format.targetExponent, totalExponent, Format.mantissaBits, Format.minExponent]
    omega
  have hshift : (0 - (n.log2 - 52 : Int)).toNat = 52 - n.log2 := by omega
  have hexponent : (0 : Int) - (52 - n.log2 : Nat) = n.log2 - 52 := by omega
  unfold UnpackedFloat.round
  simp only [htarget, decreaseExponent, hshift, hexponent]
  exact roundWithAccuracy_of_log2 (log2_integerMantissa hpos hlt) (by omega)
    (integerMantissa_pos hpos) s

end Width

/-! ## Packing -/

theorem unpackSign_packComponents {spec : Format} (s : Sign) (exponent : BitVec spec.exponentBits)
    (mantissa : BitVec spec.mantissaBitsWithoutImplicit) :
    unpackSign (packComponents spec s exponent mantissa) = s.toBitVec := by
  refine BitVec.eq_of_getLsbD_eq fun i hi => ?_
  obtain rfl : i = 0 := by omega
  simp [unpackSign, packComponents, BitVec.getLsbD_append, BitVec.getElem_append]

theorem ofBitVec_toBitVec (s : Sign) : Sign.ofBitVec s.toBitVec = s := by
  cases s <;> rfl

/-- The bit that is not stored is the first of a mantissa of full width. -/
theorem toNat_append_ofNat {m : Nat} (hm : m.log2 = 52) (hpos : 0 < m) :
    (1#1 ++ BitVec.ofNat 52 m).toNat = m := by
  obtain ⟨hlow, hhigh⟩ := (Nat.log2_eq_iff (Nat.pos_iff_ne_zero.1 hpos)).1 hm
  rw [BitVec.toNat_append, ← Nat.shiftLeft_add_eq_or_of_lt (BitVec.isLt _), Nat.shiftLeft_eq,
    BitVec.toNat_ofNat, BitVec.toNat_ofNat]
  omega

/-- A number with a mantissa of full width is kept by packing. -/
theorem unpack_pack_of_log2 {m : Nat} {e : Int} (hm : m.log2 = 52) (he : -1074 ≤ e)
    (he' : e ≤ 971) (hpos : 0 < m) (s : Sign) :
    (Float.Model.pack (.finite s m e hpos)).unpack = .finite s m e hpos := by
  obtain ⟨biased, hbiased⟩ : ∃ biased : Nat, e = biased - 1075 := ⟨(e + 1075).toNat, by omega⟩
  have hpack : UnpackedFloat.pack .binary64 (.finite s m e hpos) =
      packComponents .binary64 s (BitVec.ofNat 11 biased) (BitVec.ofNat 52 m) := by
    have hsum : (e + Format.binary64.exponentBias +
        Format.binary64.mantissaBitsWithoutImplicit).toNat = biased := by
      show (e + 1023 + 52).toNat = biased
      omega
    unfold UnpackedFloat.pack
    simp only [hsum, hm]
    rw [if_neg (by omega), if_pos (show 52 + 1 = Format.binary64.mantissaBits from rfl)]
  have hexponent : (BitVec.ofNat 11 biased).toNat = biased := by
    rw [BitVec.toNat_ofNat, Nat.mod_eq_of_lt (by omega)]
  -- the two exponents with a meaning of their own
  have hlast : BitVec.ofNat 11 biased ≠ -1#11 := fun h => by
    have : biased = 2047 := hexponent.symm.trans (congrArg BitVec.toNat h)
    omega
  have hzero : BitVec.ofNat 11 biased ≠ 0#11 := fun h => by
    have : biased = 0 := hexponent.symm.trans (congrArg BitVec.toNat h)
    omega
  show UnpackedFloat.unpack .binary64 (UnpackedFloat.pack .binary64 (.finite s m e hpos)) = _
  rw [hpack]
  unfold UnpackedFloat.unpack
  simp only [unpackMantissa_packComponents, unpackExponent_packComponents,
    unpackSign_packComponents, ofBitVec_toBitVec]
  rw [if_neg hlast, if_neg hzero]
  simp only [hexponent, toNat_append_ofNat hm hpos]
  congr 1
  show (biased : Int) - (1023 + 52) = e
  omega

/-! ## Integers -/

theorem natural?_integer {n : Nat} (hpos : 0 < n) (hlt : n < 2 ^ 53) :
    natural? (.finite .positive (integerMantissa n) (n.log2 - 52) (integerMantissa_pos hpos)) =
      some n := by
  have hlog := log2_le_of_lt hpos hlt
  have hshift : (-(n.log2 - 52 : Int)).toNat = 52 - n.log2 := by omega
  unfold natural? integerMantissa
  dsimp only
  split
  · next hexponent =>
    have hwidth : n.log2 = 52 := by omega
    simp [hwidth]
  · rw [hshift, Nat.shiftLeft_eq, Nat.shiftLeft_eq, Nat.one_mul, if_pos (Nat.mul_mod_left n _),
      Nat.shiftRight_eq_div_pow, Nat.mul_div_cancel n (Nat.pow_pos (by decide))]

theorem unpack_toFloat {k : UInt64} (hpos : 0 < k.toNat) (hlt : k.toNat < 2 ^ 53) :
    unpack k.toFloat = .finite .positive (integerMantissa k.toNat) (k.toNat.log2 - 52)
      (integerMantissa_pos hpos) := by
  have hlog := log2_le_of_lt hpos hlt
  have hrounded : UnpackedFloat.ofUInt64 .binary64 k = .finite .positive (integerMantissa k.toNat)
      (k.toNat.log2 - 52) (integerMantissa_pos hpos) := by
    have hcompare : compare (k.toNat : Int) 0 = .gt := by
      rw [Int.compare_eq_gt]
      omega
    unfold UnpackedFloat.ofUInt64 UnpackedFloat.ofNat UnpackedFloat.ofInt UnpackedFloat.normalize
    rw [hcompare]
    exact round_integer hpos hlt .positive
  show (Float.Model.pack (UnpackedFloat.ofUInt64 .binary64 k)).unpack = _
  rw [hrounded]
  exact unpack_pack_of_log2 (log2_integerMantissa hpos hlt) (by omega) (by omega)
    (integerMantissa_pos hpos) .positive

theorem unpack_toFloat_zero : unpack (0 : UInt64).toFloat = .zero .positive := rfl

/-- An integer of at most 53 bits is what its conversion stands for. -/
theorem natural?_unpack_toFloat {k : UInt64} (hlt : k.toNat < 2 ^ 53) :
    natural? (unpack k.toFloat) = some k.toNat := by
  rcases Nat.eq_zero_or_pos k.toNat with hzero | hpos
  · obtain rfl : k = 0 := UInt64.toNat_inj.1 hzero
    rw [unpack_toFloat_zero]
    rfl
  · rw [unpack_toFloat hpos hlt]
    exact natural?_integer hpos hlt

theorem lt_iff_unpack (x y : Float) : x < y ↔ (unpack x).lt (unpack y) = true :=
  decide_eq_true_iff

theorem not_toFloat_lt_zero {k : UInt64} (hlt : k.toNat < 2 ^ 53) : ¬ k.toFloat < 0 := by
  have hunpack : unpack (0 : Float) = .zero .positive := rfl
  rw [lt_iff_unpack, hunpack]
  rcases Nat.eq_zero_or_pos k.toNat with hzero | hpos
  · obtain rfl : k = 0 := UInt64.toNat_inj.1 hzero
    rw [unpack_toFloat_zero]
    exact Bool.false_ne_true
  · rw [unpack_toFloat hpos hlt]
    exact Bool.false_ne_true

end Formula.BinaryFloat
