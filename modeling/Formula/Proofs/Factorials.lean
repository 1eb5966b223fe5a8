import Formula.Proofs.Integers

/-!
# Exact factorials

The product of the integers up to `k`, taken in 64 bits, is the factorial of `k` whenever there is
a product at all, and there is one whenever the factorial has at most 64 bits. The factorial of a
floating-point integer is that product only while it is small enough to be converted back: the
factorials of 19 and 20 have at most 64 bits, but they are approximated by the gamma function.

## Main statements

* `Factorial.ofWord?_eq_some_iff` — a product is the factorial.
* `Factorial.checked_product_is_factorial` — there is one just as long as the factorial fits.
* `Factorial.exact_factorial_of_integer` — where the exact factorial is used, and what it stands
  for.
* `Factorial.product_of_nineteen_unused` — a product that fits and is not used.
-/

namespace Formula

open BinaryFloat
open scoped Nat

namespace Factorial

/-! ## Products in 64 bits -/

theorem some_eq_some_iff_toNat {a b : UInt64} : some a = some b ↔ b.toNat = a.toNat := by
  rw [Option.some_inj, eq_comm, ← UInt64.toNat_inj]

theorem checkedMul_eq_some_iff {a b c : UInt64} :
    checkedMul a b = some c ↔ c.toNat = a.toNat * b.toNat := by
  have hc := c.toNat_lt_size
  unfold checkedMul
  split
  · next hlt =>
    rw [some_eq_some_iff_toNat, UInt64.toNat_mul, Nat.mod_eq_of_lt hlt]
  · next hge =>
    constructor
    · intro h
      cases h
    · intro h
      omega

theorem size_le_of_checkedMul_eq_none {a b : UInt64} (h : checkedMul a b = none) :
    UInt64.size ≤ a.toNat * b.toNat := by
  unfold checkedMul at h
  split at h
  · cases h
  · omega

/-- One step of the product takes a factorial to the next one. -/
theorem factorial_mul_toUInt64 {acc : UInt64} {m : Nat} (hacc : acc.toNat = m !)
    (hm : m + 1 < UInt64.size) : acc.toNat * (m + 1).toUInt64.toNat = (m + 1)! := by
  rw [hacc, Nat.toUInt64, UInt64.toNat_ofNat_of_lt' hm, Nat.factorial_succ, Nat.mul_comm]

/-- From the factorial of `m` on, the product up to `last` is the factorial of `last` if that fits
into 64 bits. -/
theorem product_eq_some_iff {acc w : UInt64} {next last m : Nat} (hnext : next = m + 1)
    (hm : m ≤ last) (hlast : last < UInt64.size) (hacc : acc.toNat = m !) :
    product acc next last = some w ↔ w.toNat = last ! := by
  fun_induction product acc next last generalizing m with
  | case1 acc next hle acc' hmul ih =>
    subst hnext
    have hacc' : acc'.toNat = (m + 1)! :=
      (checkedMul_eq_some_iff.1 hmul).trans (factorial_mul_toUInt64 hacc (by omega))
    exact ih rfl hle hacc'
  | case2 acc next hle hmul =>
    -- once the product overflows, no later factorial is smaller
    subst hnext
    have hover : UInt64.size ≤ (m + 1)! :=
      factorial_mul_toUInt64 hacc (by omega) ▸ size_le_of_checkedMul_eq_none hmul
    have hmono : (m + 1)! ≤ last ! := Nat.factorial_le hle
    have hw := w.toNat_lt_size
    constructor
    · intro h
      cases h
    · intro h
      omega
  | case3 acc next hgt =>
    obtain rfl : m = last := by omega
    rw [some_eq_some_iff_toNat, hacc]

theorem ofWord?_eq_some_iff {k w : UInt64} : ofWord? k = some w ↔ w.toNat = k.toNat ! := by
  have hk := k.toNat_lt_size
  unfold ofWord?
  rcases Nat.eq_zero_or_pos k.toNat with hzero | hpos
  · have hempty : product 1 2 0 = some 1 := by
      rw [product, if_neg (by decide)]
    rw [hzero, hempty, some_eq_some_iff_toNat]
    rfl
  · exact product_eq_some_iff (m := 1) rfl hpos hk rfl

/-! ## Bounds -/

theorem factorial_lt_iff {n b k : Nat} (hlt : n ! < b) (hle : b ≤ (n + 1)!) : k ! < b ↔ k ≤ n := by
  constructor
  · intro h
    by_contra hk
    have hmono : (n + 1)! ≤ k ! := Nat.factorial_le (by omega)
    omega
  · intro hk
    exact Nat.lt_of_le_of_lt (Nat.factorial_le hk) hlt

theorem factorial_lt_two_pow_53_iff {k : Nat} : k ! < 2 ^ 53 ↔ k ≤ 18 :=
  factorial_lt_iff (by decide) (by decide)

theorem factorial_lt_two_pow_64_iff {k : Nat} : k ! < 2 ^ 64 ↔ k ≤ 20 :=
  factorial_lt_iff (by decide) (by decide)

/-! ## Overflow -/

section Word

variable {k : UInt64}

theorem ofWord?_of_lt (hlt : k.toNat ! < 2 ^ 64) :
    ofWord? k = some (UInt64.ofNatLT (k.toNat !) hlt) :=
  ofWord?_eq_some_iff.2 UInt64.toNat_ofNatLT

/-- The product overflows just if the factorial does not fit: a partial product that is too large is
never followed by one that is not. -/
theorem ofWord?_eq_none_iff : ofWord? k = none ↔ 2 ^ 64 ≤ k.toNat ! := by
  constructor
  · intro hnone
    by_contra hlt
    rw [ofWord?_of_lt (Nat.lt_of_not_le hlt)] at hnone
    cases hnone
  · intro hle
    rw [Option.eq_none_iff_forall_ne_some]
    intro w hw
    have hfits : w.toNat < 2 ^ 64 := w.toNat_lt
    rw [ofWord?_eq_some_iff.1 hw] at hfits
    exact Nat.not_lt_of_le hle hfits

/-- The products overflow from the first integer after `maxExact` on. -/
theorem maxExact_lt_iff : maxExact < k ↔ 2 ^ 64 ≤ k.toNat ! := by
  have hbound : maxExact.toNat = 20 := rfl
  rw [UInt64.lt_iff_toNat_lt, hbound, ← Nat.not_lt, factorial_lt_two_pow_64_iff, Nat.not_le]

end Word

/-- The product up to any integer of 64 bits is its factorial where that is less than `2 ^ 64`, and
nothing otherwise, which is beyond `maxExact`. What it gives is never a product that has wrapped
around. -/
theorem checked_product_is_factorial (k : UInt64) :
    (ofWord? k =
      if hlt : k.toNat ! < 2 ^ 64 then some (UInt64.ofNatLT (k.toNat !) hlt) else none) ∧
    (∀ w, ofWord? k = some w → w.toNat = k.toNat !) ∧
    (ofWord? k = none ↔ maxExact < k) := by
  refine ⟨?_, ?_, ?_⟩
  · split
    · next hlt => exact ofWord?_of_lt hlt
    · next hge => exact ofWord?_eq_none_iff.2 (Nat.le_of_not_lt hge)
  · intro w hw
    exact ofWord?_eq_some_iff.1 hw
  · rw [ofWord?_eq_none_iff, maxExact_lt_iff]

/-- The last factorial that fits, and the last integer of all. -/
theorem checked_product_of_extremes :
    ofWord? 20 = some 2432902008176640000 ∧ (2432902008176640000 : UInt64).toNat = 20 ! ∧
      ofWord? 18446744073709551615 = none := by
  obtain ⟨hproduct, hexact, -⟩ := checked_product_is_factorial 20
  have hlast : ofWord? 20 = some 2432902008176640000 := by
    rw [hproduct, dif_pos (by decide)]
    decide
  obtain ⟨-, -, hoverflow⟩ := checked_product_is_factorial 18446744073709551615
  exact ⟨hlast, hexact _ hlast, hoverflow.2 (by decide)⟩

/-! ## Conversions -/

theorem ofInteger?_eq_some_iff {k : UInt64} {value : Float} :
    ofInteger? k = some value ↔ k ≤ maxSafe ∧ k.toFloat = value := by
  unfold ofInteger?
  split <;> simp [*]

theorem toNat_lt_of_le_maxSafe {k : UInt64} (hk : k ≤ maxSafe) : k.toNat < 2 ^ 53 :=
  Nat.lt_of_le_of_lt (UInt64.le_iff_toNat_le.1 hk) (by decide)

theorem factorial_lt_of_ofWord? {k w : UInt64} (hw : ofWord? k = some w) (hsafe : w ≤ maxSafe) :
    k.toNat ! < 2 ^ 53 := by
  rw [← ofWord?_eq_some_iff.1 hw]
  exact toNat_lt_of_le_maxSafe hsafe

section Integer

variable {k : UInt64} (hk : k ≤ maxSafe)

include hk

theorem toInteger?_toFloat : toInteger? k.toFloat = some k := by
  have hnatural := natural?_unpack_toFloat (toNat_lt_of_le_maxSafe hk)
  simp only [toInteger?, hnatural, if_pos (UInt64.le_iff_toNat_le.1 hk), Nat.toUInt64,
    UInt64.ofNat_toNat]

theorem isNegativeInteger_toFloat : isNegativeInteger k.toFloat = false := by
  have hlt := not_toFloat_lt_zero (toNat_lt_of_le_maxSafe hk)
  simp only [isNegativeInteger, decide_eq_false hlt, Bool.false_and]

theorem exactFloat?_toFloat :
    exactFloat? k.toFloat = if k ≤ maxExact then (ofWord? k).bind ofInteger? else none := by
  simp only [exactFloat?, toInteger?_toFloat hk, Option.bind_eq_bind, Option.bind_some]

theorem factorial_toFloat :
    factorial k.toFloat = (exactFloat? k.toFloat).getD (gamma (k.toFloat + 1)) := by
  rw [factorial, isNegativeInteger_toFloat hk, if_neg Bool.false_ne_true]
  cases exactFloat? k.toFloat <;> rfl

/-- The bound on `k` is never what decides: beyond it there is no product to convert. -/
theorem exactFloat?_toFloat_eq_some_iff {value : Float} :
    exactFloat? k.toFloat = some value ↔
      ∃ w : UInt64, ofWord? k = some w ∧ w ≤ maxSafe ∧ w.toFloat = value := by
  have hproduct : (ofWord? k).bind ofInteger? = some value ↔
      ∃ w : UInt64, ofWord? k = some w ∧ w ≤ maxSafe ∧ w.toFloat = value := by
    simp only [Option.bind_eq_some_iff, ofInteger?_eq_some_iff]
  rw [exactFloat?_toFloat hk]
  split
  · exact hproduct
  · next hbound =>
    constructor
    · intro h
      cases h
    · rintro ⟨w, hw, -, -⟩
      have hnone : ofWord? k = none :=
        ofWord?_eq_none_iff.2 (maxExact_lt_iff.1 (UInt64.not_le.1 hbound))
      rw [hw] at hnone
      cases hnone

theorem isSome_exactFloat?_toFloat_iff : (exactFloat? k.toFloat).isSome ↔ k.toNat ! < 2 ^ 53 := by
  simp only [Option.isSome_iff_exists, exactFloat?_toFloat_eq_some_iff hk]
  constructor
  · rintro ⟨_, w, hw, hsafe, -⟩
    exact factorial_lt_of_ofWord? hw hsafe
  · intro hlt
    have hfits : k.toNat ! < 2 ^ 64 := Nat.lt_trans hlt (by decide)
    have hsafe : UInt64.ofNatLT (k.toNat !) hfits ≤ maxSafe := by
      rw [UInt64.le_iff_toNat_le, UInt64.toNat_ofNatLT]
      exact Nat.le_pred_of_lt hlt
    exact ⟨_, _, ofWord?_of_lt hfits, hsafe, rfl⟩

end Integer

/-- The exact factorial of an integer is used just if it is less than `2 ^ 53`, and the number given
stands for it; the gamma function is used otherwise. To say that it is used just if it fits into 64
bits is right but for 19 and 20. -/
theorem exact_factorial_of_integer (k : UInt64) (hk : k ≤ maxSafe) :
    ((exactFloat? k.toFloat).isSome ↔ k.toNat ! < 2 ^ 53) ∧
    (∀ value, exactFloat? k.toFloat = some value →
      (ofWord? k).bind ofInteger? = some value ∧ natural? (unpack value) = some (k.toNat !) ∧
        factorial k.toFloat = value) ∧
    (exactFloat? k.toFloat = none → factorial k.toFloat = gamma (k.toFloat + 1)) ∧
    (((exactFloat? k.toFloat).isSome ↔ k.toNat ! < 2 ^ 64) ↔ k ≠ 19 ∧ k ≠ 20) := by
  refine ⟨isSome_exactFloat?_toFloat_iff hk, ?_, ?_, ?_⟩
  · intro value hvalue
    obtain ⟨w, hw, hsafe, rfl⟩ := (exactFloat?_toFloat_eq_some_iff hk).1 hvalue
    refine ⟨?_, ?_, ?_⟩
    · rw [hw, Option.bind_some, ofInteger?_eq_some_iff]
      exact ⟨hsafe, rfl⟩
    · rw [natural?_unpack_toFloat (toNat_lt_of_le_maxSafe hsafe), ofWord?_eq_some_iff.1 hw]
    · rw [factorial_toFloat hk, hvalue, Option.getD_some]
  · intro hnone
    rw [factorial_toFloat hk, hnone, Option.getD_none]
  · have h19 : k = 19 ↔ k.toNat = 19 := UInt64.toNat_inj.symm
    have h20 : k = 20 ↔ k.toNat = 20 := UInt64.toNat_inj.symm
    rw [isSome_exactFloat?_toFloat_iff hk, factorial_lt_two_pow_53_iff, factorial_lt_two_pow_64_iff,
      Ne, Ne, h19, h20]
    omega

theorem exact_factorial_of_eighteen :
    (18 : UInt64) ≤ maxSafe ∧
      natural? (unpack (factorial (18 : UInt64).toFloat)) = some (18 !) := by
  have hsafe : (18 : UInt64) ≤ maxSafe := by decide
  obtain ⟨hused, hvalue, -, -⟩ := exact_factorial_of_integer 18 hsafe
  obtain ⟨value, hexact⟩ := Option.isSome_iff_exists.1 (hused.2 (by decide))
  obtain ⟨-, hstands, hfactorial⟩ := hvalue value hexact
  exact ⟨hsafe, hfactorial ▸ hstands⟩

/-- The factorial of 19 fits into 64 bits and is the product; the number is not taken from it. -/
theorem product_of_nineteen_unused :
    (19 : UInt64) ≤ maxSafe ∧ 19 ! < 2 ^ 64 ∧ ofWord? 19 = some 121645100408832000 ∧
      exactFloat? (19 : UInt64).toFloat = none ∧
      factorial (19 : UInt64).toFloat = gamma ((19 : UInt64).toFloat + 1) := by
  have hsafe : (19 : UInt64) ≤ maxSafe := by decide
  have hnone : exactFloat? (19 : UInt64).toFloat = none :=
    Option.not_isSome_iff_eq_none.1 (mt (isSome_exactFloat?_toFloat_iff hsafe).1 (by decide))
  refine ⟨hsafe, by decide, ofWord?_eq_some_iff.2 (by decide), hnone, ?_⟩
  rw [factorial_toFloat hsafe, hnone, Option.getD_none]

end Factorial

end Formula
