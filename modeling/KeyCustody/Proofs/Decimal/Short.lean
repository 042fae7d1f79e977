import KeyCustody.Proofs.Decimal.Rounding

/-!
# Short decimals

A decimal of at most fifteen digits and with a small power of ten is read as the
nearest floating-point number: its digits and the power are floating-point
numbers themselves, and nothing is rounded before the product or the quotient.
-/

namespace KeyCustody

namespace Binary64

/-- At most fifteen digits, with the point at most 22 places off. -/
structure Decimal.Short (decimal : Decimal) : Prop where
  few : decimal.digits < 10 ^ 15
  least : -22 ≤ decimal.exponent
  most : decimal.exponent ≤ 22

theorem significand_pos {magnitude : Nat} (positive : 0 < valueOf magnitude) :
    0 < (scaled magnitude).significand := by
  rw [valueOf, Scaled.value] at positive
  exact_mod_cast pos_of_mul_pos_left positive (by positivity)

section Scaling

variable (left right : Nat)

theorem mulMagnitude_eq :
    mulMagnitude left right = nearest (valueOf left * valueOf right) := by
  rw [mulMagnitude, magnitudeOfRatio_eq (shiftLeft_pos Nat.one_pos),
    shifted_mul, zpow_add₀ two_ne_zero, valueOf, valueOf, Scaled.value,
    Scaled.value]
  push_cast
  ring_nf

theorem divMagnitude_eq (positive : 0 < (scaled right).significand) :
    divMagnitude left right = nearest (valueOf left / valueOf right) := by
  rw [divMagnitude, ratioOf, magnitudeOfRatio_eq (shiftLeft_pos positive),
    shifted_mul, zpow_sub₀ two_ne_zero, valueOf, valueOf, Scaled.value,
    Scaled.value, div_mul_div_comm]

end Scaling

theorem magnitudeOfNat_eq (n : Nat) : magnitudeOfNat n = nearest n := by
  rw [magnitudeOfNat, magnitudeOfRatio_eq Nat.one_pos, Nat.cast_one, div_one]

theorem nearest_lt_of_small {q : ℚ} (some : 0 ≤ q) (small : q < 10 ^ 40) :
    nearest q < infinityBits := by
  apply nearest_lt some
  calc q
    _ < 2 ^ (133 : ℤ) := small.trans (by norm_num)
    _ ≤ 2 ^ (1023 : ℤ) := zpow_le_zpow_right₀ one_le_two (by norm_num)

theorem valueOf_magnitudeOfNat {n significand power : Nat}
    (written : n = significand * 2 ^ power) (top : significand < 2 * hiddenBit)
    (small : n < 10 ^ 40) : valueOf (magnitudeOfNat n) = n := by
  have finite : nearest n < infinityBits := by
    apply nearest_lt_of_small n.cast_nonneg
    exact_mod_cast small
  rw [magnitudeOfNat_eq]
  rcases n.eq_zero_or_pos with rfl | some
  · rw [Nat.cast_zero, nearest_zero, valueOf_zero]
  · apply valueOf_nearest_eq (by exact_mod_cast some) _ top _ finite
    · exact (power : ℤ)
    · rw [written]
      push_cast
      rfl
    · omega

theorem valueOf_tenPower {power : Nat} (small : power ≤ 22) :
    valueOf (magnitudeOfNat (tenPower power)) = 10 ^ power := by
  have written : tenPower power = 5 ^ power * 2 ^ power := by
    rw [tenPower, ← Nat.mul_pow]
    rfl
  have top : 5 ^ power < 2 * hiddenBit := by
    calc 5 ^ power
      _ ≤ 5 ^ 22 := Nat.pow_le_pow_right (by decide) small
      _ < 2 * hiddenBit := by decide
  have finite : tenPower power < 10 ^ 40 :=
    Nat.pow_lt_pow_right (by decide) (by omega)
  rw [valueOf_magnitudeOfNat written top finite, tenPower]
  norm_num

namespace Decimal.Short

variable {decimal : Decimal} (short : decimal.Short)
include short

theorem valueOf_digits : valueOf (magnitudeOfNat decimal.digits) =
    decimal.digits := by
  have few := short.few
  have top : decimal.digits < 2 * hiddenBit := few.trans (by decide)
  have small : decimal.digits < 10 ^ 40 := few.trans (by norm_num)
  have written : decimal.digits = decimal.digits * 2 ^ 0 := by simp
  exact valueOf_magnitudeOfNat written top small

theorem nearest_value_lt : nearest decimal.value < infinityBits := by
  have few : (decimal.digits : ℚ) ≤ 10 ^ (15 : ℤ) := by
    exact_mod_cast short.few.le
  have most := short.most
  apply nearest_lt_of_small (by rw [value]; positivity)
  calc decimal.value
    _ ≤ 10 ^ (15 : ℤ) * 10 ^ (22 : ℤ) := by
      rw [value]
      gcongr
      norm_num
    _ < 10 ^ 40 := by norm_num

theorem ofDecimal?_eq (negative : Bool) :
    ofDecimal? negative decimal.digits decimal.exponent =
      some (ofMagnitude negative (nearest decimal.value)) := by
  have digits := short.valueOf_digits
  have least := short.least
  have most := short.most
  have finite := short.nearest_value_lt
  unfold ofDecimal?
  dsimp only
  split
  next negative =>
    obtain ⟨power, exponent⟩ := Int.exists_eq_neg_ofNat negative.le
    have small : power ≤ 22 := by omega
    have tens := valueOf_tenPower small
    have divisor : 0 < (scaled (magnitudeOfNat (tenPower power))).significand := by
      apply significand_pos
      rw [tens]
      positivity
    rw [exponent, neg_neg, Int.toNat_natCast, divTenPower,
      if_pos (small.trans (by decide)), divMagnitude_eq _ _ divisor, digits,
      tens, value, exponent, zpow_neg, zpow_natCast, div_eq_mul_inv]
  next positive =>
    obtain ⟨power, exponent⟩ := Int.eq_ofNat_of_zero_le (not_lt.1 positive)
    have small : power ≤ 22 := by omega
    have tens := valueOf_tenPower small
    rw [exponent, Int.toNat_natCast]
    split
    next none =>
      have zero : decimal.value = 0 := by
        rw [none, valueOf_zero] at digits
        rw [value, ← digits, zero_mul]
      rw [zero, nearest_zero]
    next some =>
      have product : mulMagnitude (magnitudeOfNat decimal.digits)
          (magnitudeOfNat (tenPower power)) = nearest decimal.value := by
        rw [mulMagnitude_eq, digits, tens, value, exponent, zpow_natCast]
      rw [if_pos (small.trans (by decide)), product, if_pos finite]

end Decimal.Short

end Binary64

end KeyCustody
