import Mathlib.Data.Rat.Floor
import TableScript.Decimal.Notation
import TableScript.Decimal.Reading

/-!
# Truncated numbers

The integer part of a finite floating-point number is the floor of its magnitude, with its sign. The
integer part of no such number is too long to be written.
-/

namespace TableScript.Decimal

/-- The rational number that a significand and an exponent make. -/
def Binary.value (b : Binary) : ℚ := b.significand * 2 ^ b.exponent

theorem Binary.ratio_zero (b : Binary) :
    b.ratio 0 = (b.significand * twoTo b.exponent, twoTo (-b.exponent)) := by
  simp [ratio, tenTo]

theorem Binary.value_eq_ratio (b : Binary) :
    b.value = ((b.ratio 0).1 : ℚ) / ((b.ratio 0).2 : ℚ) := by
  rw [ratio_zero, value, twoTo, twoTo]
  rcases le_total 0 b.exponent with h | h
  · obtain ⟨k, hk⟩ := Int.eq_ofNat_of_zero_le h
    simp [hk]
  · obtain ⟨k, hk⟩ := Int.eq_ofNat_of_zero_le (Int.neg_nonneg_of_nonpos h)
    have hexponent : b.exponent = -(k : ℤ) := by omega
    simp [hexponent, div_eq_mul_inv]

theorem Binary.floor_value (b : Binary) : ⌊b.value⌋ = ((b.ratio 0).1 / (b.ratio 0).2 : ℕ) := by
  rw [value_eq_ratio]
  have h := Rat.floor_intCast_div_natCast ((b.ratio 0).1 : ℤ) (b.ratio 0).2
  simpa using h

theorem FloatValue.truncate?_finite (negative : Bool) (b : Binary) :
    (FloatValue.finite negative b).truncate? =
      some (if negative then -⌊b.value⌋ else ⌊b.value⌋) := by
  rw [Binary.floor_value]
  rfl

/-- The parts of a number of double precision are bounded. -/
theorem FloatValue.bounds_of_ofBits {bits : Nat} {negative : Bool} {b : Binary}
    (h : FloatValue.ofBits bits = .finite negative b) :
    b.significand < 2 ^ 53 ∧ b.exponent ≤ 972 := by
  have hfraction : bits % Nat.pow 2 52 < 2 ^ 52 := Nat.mod_lt _ (by decide)
  have hexponent : bits / Nat.pow 2 52 % 2048 < 2048 := Nat.mod_lt _ (by decide)
  unfold ofBits at h
  simp only at h
  generalize bits % Nat.pow 2 52 = fraction at h hfraction
  generalize bits / Nat.pow 2 52 % 2048 = exponent at h hexponent
  split at h
  · split at h <;> cases h
  · split at h
    · split at h
      · cases h
      · cases h
        change fraction < 2 ^ 53 ∧ (-1074 : Int) ≤ 972
        omega
    · cases h
      change fraction + 2 ^ 52 < 2 ^ 53 ∧ (exponent : Int) - 1075 ≤ 972
      omega

/-- The integer part of a finite number of double precision is not too long to be written. -/
theorem FloatValue.length_truncate {x : Float} {n : Int} (h : (ofFloat x).truncate? = some n) :
    (Nat.toDigits 10 n.natAbs).length ≤ digitLimit := by
  rw [Nat.length_toDigits_le_iff (by decide) (by decide)]
  cases hx : ofFloat x with
  | undefined => rw [hx] at h; cases h
  | infinite negative => rw [hx] at h; cases h
  | zero negative =>
      rw [hx] at h
      cases h
      positivity
  | finite negative b =>
      rw [hx] at h
      obtain ⟨hsignificand, hexponent⟩ := bounds_of_ofBits hx
      have hn : n.natAbs = (b.ratio 0).1 / (b.ratio 0).2 := by
        simp only [truncate?, Option.some.injEq] at h
        rw [← h]
        split
        · rw [Int.natAbs_neg, Int.natAbs_natCast]
        · rw [Int.natAbs_natCast]
      have hlimit : 53 + b.exponent.toNat ≤ digitLimit := by
        unfold digitLimit
        omega
      calc n.natAbs ≤ (b.ratio 0).1 := hn ▸ Nat.div_le_self _ _
        _ = b.significand * 2 ^ b.exponent.toNat := by rw [Binary.ratio_zero]; rfl
        _ < 2 ^ 53 * 2 ^ b.exponent.toNat :=
            Nat.mul_lt_mul_of_pos_right hsignificand (Nat.pow_pos (by decide))
        _ = 2 ^ (53 + b.exponent.toNat) := (pow_add 2 53 _).symm
        _ ≤ 10 ^ (53 + b.exponent.toNat) := Nat.pow_le_pow_left (by decide) _
        _ ≤ 10 ^ digitLimit := Nat.pow_le_pow_right (by decide) hlimit

end TableScript.Decimal
