import KeyCustody.Decimal.Binary64
import Mathlib

/-!
# Rounding to floating-point numbers

The magnitude of a quotient depends on the rational number alone: it is the
nearest one on a grid of multiples of a power of two, of which 53 bits are kept
or as many as the least exponent leaves.  So it is off by half a step of the
grid at most, and by nothing if the number is on the grid.
-/

namespace KeyCustody

namespace Binary64

theorem cast_hiddenBit : (hiddenBit : ℚ) = 2 ^ (52 : ℤ) := by
  have same : hiddenBit = 2 ^ 52 := by decide
  rw [same]
  norm_num

/-- The rational number that is scaled. -/
def Scaled.value (scaled : Scaled) : ℚ :=
  scaled.significand * 2 ^ scaled.exponent

/-- The rational number of a finite magnitude. -/
def valueOf (magnitude : Nat) : ℚ := (scaled magnitude).value

def Decimal.value (decimal : Decimal) : ℚ :=
  decimal.digits * 10 ^ decimal.exponent

/-- The nearest natural number, and the even one of two that are as near. -/
def roundHalfEven (q : ℚ) : Nat :=
  let below := ⌊q⌋₊
  if q - below < 1 / 2 then below
  else if 1 / 2 < q - below then below + 1
  else if below % 2 = 0 then below
  else below + 1

/-- The exponent of the grid on which a number is rounded. -/
def gridExponent (q : ℚ) : ℤ := max (Int.log 2 q - 52) (-1074)

/-- The magnitude nearest to a rational number. -/
def nearest (q : ℚ) : Nat :=
  if q = 0 then 0
  else
    let exponent := gridExponent q
    min ((exponent + 1074).toNat * hiddenBit +
      roundHalfEven (q / 2 ^ exponent)) infinityBits

section Logarithms

variable {q : ℚ} {exponent : ℤ} (positive : 0 < q)
include positive

theorem two_zpow_le_iff : 2 ^ exponent ≤ q ↔ exponent ≤ Int.log 2 q := by
  exact_mod_cast Int.zpow_le_iff_le_log one_lt_two positive

theorem lt_two_zpow_iff : q < 2 ^ exponent ↔ Int.log 2 q < exponent := by
  exact_mod_cast Int.lt_zpow_iff_log_lt one_lt_two positive

end Logarithms

section Quotients

variable {numerator denominator : Nat}

theorem roundDiv_eq (positive : 0 < denominator) :
    roundDiv numerator denominator =
      roundHalfEven (numerator / denominator) := by
  have floor : ⌊(numerator / denominator : ℚ)⌋₊ = numerator / denominator :=
    Nat.floor_div_eq_div numerator denominator
  have some : (0 : ℚ) < denominator := by exact_mod_cast positive
  have cut : (numerator : ℚ) = denominator * (numerator / denominator : ℕ) +
      (numerator % denominator : ℕ) := by
    exact_mod_cast (Nat.div_add_mod numerator denominator).symm
  have rest : (numerator / denominator : ℚ) - (numerator / denominator : ℕ) =
      (numerator % denominator : ℕ) / denominator := by
    rw [eq_div_iff some.ne', sub_mul, div_mul_cancel₀ _ some.ne']
    linarith
  have below : (numerator / denominator : ℚ) - (numerator / denominator : ℕ) <
      1 / 2 ↔ 2 * (numerator % denominator) < denominator := by
    rw [rest, div_lt_div_iff₀ some two_pos]
    norm_cast
    omega
  have above : 1 / 2 < (numerator / denominator : ℚ) -
      (numerator / denominator : ℕ) ↔
        denominator < 2 * (numerator % denominator) := by
    rw [rest, div_lt_div_iff₀ two_pos some]
    norm_cast
    omega
  simp only [roundDiv, roundHalfEven, floor, below, above]

theorem shiftLeft_pos (positive : 0 < denominator) {size : Nat} :
    0 < denominator <<< size := by
  rw [Nat.shiftLeft_eq]
  positivity

theorem shifted_div (exponent : ℤ) :
    ((numerator <<< (-exponent).toNat : ℕ) : ℚ) /
        (denominator <<< exponent.toNat : ℕ) =
      numerator / denominator / 2 ^ exponent := by
  rw [Nat.shiftLeft_eq, Nat.shiftLeft_eq]
  push_cast
  rcases le_total 0 exponent with positive | negative
  · obtain ⟨size, rfl⟩ := Int.eq_ofNat_of_zero_le positive
    simp [div_div]
  · obtain ⟨size, rfl⟩ := Int.exists_eq_neg_ofNat negative
    simp [div_eq_mul_inv]
    ring

theorem shifted_mul (exponent : ℤ) :
    ((numerator <<< exponent.toNat : ℕ) : ℚ) /
        (denominator <<< (-exponent).toNat : ℕ) =
      numerator / denominator * 2 ^ exponent := by
  have shifted := @shifted_div numerator denominator (-exponent)
  rwa [neg_neg, zpow_neg, div_inv_eq_mul] at shifted

theorem log2_within {n : ℕ} (some : n ≠ 0) :
    (2 : ℚ) ^ (Nat.log2 n : ℤ) ≤ n ∧ (n : ℚ) < 2 ^ ((Nat.log2 n : ℤ) + 1) := by
  constructor
  · exact_mod_cast Nat.log2_self_le some
  · exact_mod_cast Nat.lt_log2_self

theorem ratio_within {top bottom : ℤ} {p q : ℚ} (divisor : 0 < q)
    (upper : (2 : ℚ) ^ top ≤ p ∧ p < 2 ^ (top + 1))
    (lower : (2 : ℚ) ^ bottom ≤ q ∧ q < 2 ^ (bottom + 1)) :
    (2 : ℚ) ^ (top - bottom - 1) ≤ p / q ∧
      p / q < 2 ^ (top - bottom + 1) := by
  constructor
  · rw [le_div_iff₀ divisor]
    calc (2 : ℚ) ^ (top - bottom - 1) * q
      _ ≤ 2 ^ (top - bottom - 1) * 2 ^ (bottom + 1) := by
        gcongr
        exact lower.2.le
      _ = 2 ^ top := by
        rw [← zpow_add₀ two_ne_zero]
        congr 1
        ring
      _ ≤ p := upper.1
  · rw [div_lt_iff₀ divisor]
    calc p
      _ < 2 ^ (top + 1) := upper.2
      _ = 2 ^ (top - bottom + 1) * 2 ^ bottom := by
        rw [← zpow_add₀ two_ne_zero]
        congr 1
        ring
      _ ≤ 2 ^ (top - bottom + 1) * q := by
        gcongr
        exact lower.1

/-- The binary logarithm of a quotient from those of its terms. -/
theorem log_ratio (some : 0 < numerator) (positive : 0 < denominator) :
    Int.log 2 (numerator / denominator : ℚ) =
      if (2 : ℚ) ^ ((Nat.log2 numerator : ℤ) - Nat.log2 denominator) ≤
          numerator / denominator then
        (Nat.log2 numerator : ℤ) - Nat.log2 denominator
      else (Nat.log2 numerator : ℤ) - Nat.log2 denominator - 1 := by
  have divisor : (0 : ℚ) < denominator := by exact_mod_cast positive
  have whole : (0 : ℚ) < numerator := by exact_mod_cast some
  have quotient : (0 : ℚ) < numerator / denominator := div_pos whole divisor
  obtain ⟨below, above⟩ := ratio_within divisor (log2_within some.ne')
    (log2_within positive.ne')
  split
  next reaches =>
    exact le_antisymm
      (Int.le_of_lt_add_one ((lt_two_zpow_iff quotient).1 above))
      ((two_zpow_le_iff quotient).1 reaches)
  next misses =>
    have less := (lt_two_zpow_iff quotient).1 (not_le.1 misses)
    have least := (two_zpow_le_iff quotient).1 below
    omega

/-- Rounding a quotient of two numbers depends on the quotient alone. -/
theorem magnitudeOfRatio_eq (positive : 0 < denominator) :
    magnitudeOfRatio numerator denominator =
      nearest (numerator / denominator) := by
  unfold magnitudeOfRatio nearest
  split
  next none => simp [none]
  next some =>
    have whole : 0 < numerator := Nat.pos_of_ne_zero some
    have divisor : (0 : ℚ) < denominator := by exact_mod_cast positive
    have quotient : (numerator / denominator : ℚ) ≠ 0 :=
      div_ne_zero (by exact_mod_cast some) divisor.ne'
    have reaches (exponent : ℤ) :
        ((hiddenBit * denominator) <<< exponent.toNat ≤
          numerator <<< (-exponent).toNat) ↔
        (2 : ℚ) ^ (exponent + 52) ≤ numerator / denominator := by
      have below : 0 < (hiddenBit * denominator) <<< exponent.toNat :=
        shiftLeft_pos (Nat.mul_pos (by decide) positive)
      rw [← Nat.cast_le (α := ℚ), ← one_le_div (by exact_mod_cast below),
        shifted_div, Nat.cast_mul, cast_hiddenBit, one_le_div (by positivity),
        zpow_add₀ two_ne_zero, le_div_iff₀ (by positivity),
        le_div_iff₀ divisor]
      ring_nf
    have exponent : max (if (2 : ℚ) ^
        ((Nat.log2 numerator : ℤ) - Nat.log2 denominator - 52 + 52) ≤
          numerator / denominator then
        (Nat.log2 numerator : ℤ) - Nat.log2 denominator - 52
      else (Nat.log2 numerator : ℤ) - Nat.log2 denominator - 52 - 1) (-1074) =
        gridExponent (numerator / denominator) := by
      rw [gridExponent, log_ratio whole positive, sub_add_cancel]
      split <;> congr 1; omega
    simp only [if_neg quotient, reaches, decide_eq_true_eq, exponent]
    rw [roundDiv_eq (shiftLeft_pos positive), shifted_div]

end Quotients

theorem valueOf_subnormal {fraction : Nat} (small : fraction < hiddenBit) :
    valueOf fraction = fraction * 2 ^ (-1074 : ℤ) := by
  rw [valueOf, scaled, Nat.div_eq_of_lt small, Nat.mod_eq_of_lt small]
  rfl

theorem valueOf_zero : valueOf 0 = 0 := by
  rw [@valueOf_subnormal 0 (by decide), Nat.cast_zero, zero_mul]

theorem valueOf_normal {steps fraction : Nat} (small : fraction < hiddenBit) :
    valueOf ((steps + 1) * hiddenBit + fraction) =
      (hiddenBit + fraction) * 2 ^ ((steps : ℤ) - 1074) := by
  have positive : 0 < hiddenBit := by decide
  have quotient : ((steps + 1) * hiddenBit + fraction) / hiddenBit =
      steps + 1 := by
    rw [Nat.mul_comm, Nat.mul_add_div positive, Nat.div_eq_of_lt small,
      Nat.add_zero]
  have remainder : ((steps + 1) * hiddenBit + fraction) % hiddenBit =
      fraction := by
    rw [Nat.mul_comm, Nat.mul_add_mod, Nat.mod_eq_of_lt small]
  have exponent : ((steps + 1 : ℕ) : ℤ) - 1075 = steps - 1074 := by omega
  rw [valueOf, scaled, quotient, remainder]
  rw [if_neg (Nat.succ_ne_zero steps), Scaled.value, exponent, Nat.cast_add]

/-- A pattern with a significand of up to 54 bits added to the steps of its
exponent: the highest bit carries into the exponent. -/
theorem valueOf_pattern {steps significand : Nat}
    (full : steps = 0 ∨ hiddenBit ≤ significand)
    (top : significand ≤ 2 * hiddenBit) :
    valueOf (steps * hiddenBit + significand) =
      significand * 2 ^ ((steps : ℤ) - 1074) := by
  rcases Nat.lt_or_ge significand hiddenBit with low | high
  · obtain rfl : steps = 0 := by omega
    rw [Nat.zero_mul, Nat.zero_add, valueOf_subnormal low]
    rfl
  · obtain ⟨fraction, rfl⟩ := Nat.exists_eq_add_of_le high
    rw [← Nat.add_assoc, ← Nat.succ_mul]
    rcases Nat.lt_or_ge fraction hiddenBit with below | above
    · rw [valueOf_normal below, Nat.cast_add]
    · obtain rfl : fraction = hiddenBit := by omega
      have carried := @valueOf_normal (steps + 1) 0 (by decide)
      rw [Nat.add_zero, Nat.succ_mul, Nat.cast_zero, add_zero] at carried
      rw [carried, Nat.cast_succ, Nat.cast_add, add_sub_right_comm,
        zpow_add_one₀ two_ne_zero]
      ring

section Nearest

variable {q : ℚ} (positive : 0 < q)

theorem abs_roundHalfEven_sub_le (some : 0 ≤ q) :
    |(roundHalfEven q : ℚ) - q| ≤ 1 / 2 := by
  have below : (⌊q⌋₊ : ℚ) ≤ q := Nat.floor_le some
  have above : q < ⌊q⌋₊ + 1 := Nat.lt_floor_add_one q
  rw [abs_le, roundHalfEven]
  split
  next near => constructor <;> linarith
  next far =>
    split
    next => push_cast; constructor <;> linarith
    next =>
      split
      · constructor <;> linarith
      · push_cast; constructor <;> linarith

theorem roundHalfEven_natCast (n : ℕ) : roundHalfEven n = n := by
  simp [roundHalfEven]

theorem le_roundHalfEven {n : ℕ} (least : (n : ℚ) ≤ q) :
    n ≤ roundHalfEven q := by
  have near := abs_le.1 (abs_roundHalfEven_sub_le (n.cast_nonneg.trans least))
  by_contra less
  have below : (roundHalfEven q : ℚ) + 1 ≤ n := by
    exact_mod_cast Nat.not_le.1 less
  linarith

theorem roundHalfEven_le {n : ℕ} (some : 0 ≤ q) (most : q ≤ n) :
    roundHalfEven q ≤ n := by
  have near := abs_le.1 (abs_roundHalfEven_sub_le some)
  by_contra more
  have above : (n : ℚ) + 1 ≤ roundHalfEven q := by
    exact_mod_cast Nat.not_le.1 more
  linarith

include positive

theorem div_grid_lt : q / 2 ^ gridExponent q < 2 * hiddenBit := by
  have steps : Int.log 2 q < gridExponent q + 53 := by
    rw [gridExponent]
    omega
  rw [div_lt_iff₀ (by positivity), cast_hiddenBit]
  calc q
    _ < 2 ^ (gridExponent q + 53) := (lt_two_zpow_iff positive).2 steps
    _ = 2 * 2 ^ (52 : ℤ) * 2 ^ gridExponent q := by
      rw [zpow_add₀ two_ne_zero]
      ring

theorem le_div_grid (normal : gridExponent q ≠ -1074) :
    hiddenBit ≤ q / 2 ^ gridExponent q := by
  have steps : gridExponent q + 52 ≤ Int.log 2 q := by
    rw [gridExponent] at normal ⊢
    omega
  rw [le_div_iff₀ (by positivity), cast_hiddenBit, ← zpow_add₀ two_ne_zero,
    add_comm]
  exact (two_zpow_le_iff positive).2 steps

theorem valueOf_nearest (finite : nearest q < infinityBits) :
    valueOf (nearest q) =
      roundHalfEven (q / 2 ^ gridExponent q) * 2 ^ gridExponent q := by
  have least : -1074 ≤ gridExponent q := le_max_right _ _
  have some : 0 ≤ q / 2 ^ gridExponent q := by positivity
  have pattern : nearest q = (gridExponent q + 1074).toNat * hiddenBit +
      roundHalfEven (q / 2 ^ gridExponent q) := by
    rw [nearest, if_neg positive.ne'] at finite ⊢
    exact min_eq_left ((min_lt_iff.1 finite).resolve_right (lt_irrefl _)).le
  rw [pattern, valueOf_pattern]
  · rw [Int.toNat_of_nonneg (by omega), add_sub_cancel_right]
  · by_cases normal : gridExponent q = -1074
    · exact Or.inl (by simp [normal])
    · exact Or.inr (le_roundHalfEven (le_div_grid positive normal))
  · apply roundHalfEven_le some
    exact_mod_cast (div_grid_lt positive).le

/-- Rounding is off by half a step at most. -/
theorem abs_valueOf_nearest_sub_le (finite : nearest q < infinityBits) :
    |valueOf (nearest q) - q| ≤ 2 ^ gridExponent q / 2 := by
  have step : (0 : ℚ) < 2 ^ gridExponent q := by positivity
  have near := abs_roundHalfEven_sub_le
    (show 0 ≤ q / 2 ^ gridExponent q by positivity)
  rw [valueOf_nearest positive finite]
  calc |roundHalfEven (q / 2 ^ gridExponent q) * 2 ^ gridExponent q - q|
    _ = |roundHalfEven (q / 2 ^ gridExponent q) - q / 2 ^ gridExponent q| *
        2 ^ gridExponent q := by
      rw [← abs_of_pos step, ← abs_mul, sub_mul, abs_of_pos step,
        div_mul_cancel₀ _ step.ne']
    _ ≤ 1 / 2 * 2 ^ gridExponent q := by gcongr
    _ = 2 ^ gridExponent q / 2 := by ring

/-- Every finite number that is on the grid is met. -/
theorem valueOf_nearest_eq {significand : Nat} {exponent : ℤ}
    (written : q = significand * 2 ^ exponent)
    (top : significand < 2 * hiddenBit) (least : -1074 ≤ exponent)
    (finite : nearest q < infinityBits) : valueOf (nearest q) = q := by
  have coarse : gridExponent q ≤ exponent := by
    have below : q < 2 ^ (exponent + 53) := by
      calc q
        _ = significand * 2 ^ exponent := written
        _ < (2 * hiddenBit : ℕ) * 2 ^ exponent := by gcongr
        _ = 2 ^ (exponent + 53) := by
          rw [Nat.cast_mul, cast_hiddenBit, zpow_add₀ two_ne_zero]
          norm_num
          ring
    have steps := (lt_two_zpow_iff positive).1 below
    rw [gridExponent]
    omega
  obtain ⟨shift, rest⟩ := Int.le.dest coarse
  have whole : q / 2 ^ gridExponent q = (significand * 2 ^ shift : ℕ) := by
    rw [div_eq_iff (by positivity)]
    calc q
      _ = significand * 2 ^ exponent := written
      _ = (significand * 2 ^ shift : ℕ) * 2 ^ gridExponent q := by
        rw [← rest, zpow_add₀ two_ne_zero, zpow_natCast]
        push_cast
        ring
  rw [valueOf_nearest positive finite, whole, roundHalfEven_natCast, ← whole,
    div_mul_cancel₀ _ (by positivity)]

end Nearest

theorem nearest_zero : nearest 0 = 0 := if_pos rfl

/-- Rounding is off by a small part of the number, or of the least one. -/
theorem abs_valueOf_sub_le {q : ℚ} (some : 0 ≤ q)
    (finite : nearest q < infinityBits) :
    |valueOf (nearest q) - q| ≤ q / 2 ^ 53 + 2 ^ (-1075 : ℤ) := by
  have tiny : (0 : ℚ) < 2 ^ (-1075 : ℤ) := by positivity
  rcases some.eq_or_lt with rfl | positive
  · rw [nearest_zero, valueOf_zero]
    simp
  · have half : (2 : ℚ) ^ gridExponent q / 2 ≤ q / 2 ^ 53 + 2 ^ (-1075 : ℤ) := by
      rcases max_cases (Int.log 2 q - 52) (-1074) with ⟨grid, _⟩ | ⟨grid, _⟩
      · have below : (2 : ℚ) ^ Int.log 2 q ≤ q :=
          (two_zpow_le_iff positive).2 le_rfl
        rw [gridExponent, grid, zpow_sub₀ two_ne_zero, div_div]
        calc (2 : ℚ) ^ Int.log 2 q / (2 ^ (52 : ℤ) * 2)
          _ ≤ q / (2 ^ (52 : ℤ) * 2) := by gcongr
          _ = q / 2 ^ 53 := by norm_num
          _ ≤ q / 2 ^ 53 + 2 ^ (-1075 : ℤ) := le_add_of_nonneg_right tiny.le
      · have least : (2 : ℚ) ^ (-1074 : ℤ) / 2 = 2 ^ (-1075 : ℤ) := by
          rw [div_eq_mul_inv, ← zpow_neg_one, ← zpow_add₀ two_ne_zero]
          rfl
        rw [gridExponent, grid, least]
        exact le_add_of_nonneg_left (by positivity)
    exact (abs_valueOf_nearest_sub_le positive finite).trans half

theorem nearest_lt {q : ℚ} (some : 0 ≤ q) (small : q < 2 ^ (1023 : ℤ)) :
    nearest q < infinityBits := by
  rcases some.eq_or_lt with rfl | positive
  · rw [nearest_zero]
    decide
  · have logarithm := (lt_two_zpow_iff positive).1 small
    have steps : (gridExponent q + 1074).toNat ≤ 2044 := by
      rw [gridExponent]
      omega
    have significand : roundHalfEven (q / 2 ^ gridExponent q) ≤ 2 * hiddenBit := by
      apply roundHalfEven_le (by positivity)
      exact_mod_cast (div_grid_lt positive).le
    have bit : 0 < hiddenBit := by decide
    rw [nearest, if_neg positive.ne']
    refine (min_le_left _ _).trans_lt ?_
    calc (gridExponent q + 1074).toNat * hiddenBit +
        roundHalfEven (q / 2 ^ gridExponent q)
      _ ≤ 2044 * hiddenBit + 2 * hiddenBit := by gcongr
      _ < infinityBits := by decide

theorem Decimal.value_eq (decimal : Decimal) :
    decimal.value = decimal.ratio.1 / decimal.ratio.2 := by
  rw [value, ratio]
  rcases le_total 0 decimal.exponent with positive | negative
  · obtain ⟨size, exponent⟩ := Int.eq_ofNat_of_zero_le positive
    simp [exponent, tenPower]
  · obtain ⟨size, exponent⟩ := Int.exists_eq_neg_ofNat negative
    simp [exponent, tenPower, div_eq_mul_inv]

theorem tenPower_pos (power : Nat) : 0 < tenPower power :=
  Nat.pow_pos (by decide)

theorem Decimal.readsAs_iff {decimal : Decimal} {magnitude : Nat} :
    decimal.readsAs magnitude = true ↔ nearest decimal.value = magnitude := by
  have positive : 0 < decimal.ratio.2 := tenPower_pos _
  rw [readsAs, beq_iff_eq, magnitudeOfRatio_eq positive, value_eq]

end Binary64

end KeyCustody
