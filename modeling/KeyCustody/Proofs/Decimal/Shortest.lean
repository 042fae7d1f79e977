import KeyCustody.Proofs.Decimal.Short

/-!
# The fewest digits

The number that a short decimal is read as is written with the digits of that
decimal.  The search goes from coarse to fine, and on the grid of the decimal
at the latest it finds one that reads back.  Whatever it finds lies on that
grid, and is too near to be another one.
-/

namespace KeyCustody

namespace Binary64

variable {magnitude : Nat} {decimal found : Decimal}

/-- The neighbours of a number are the multiples of a power of ten right below
it and right above. -/
theorem mem_neighbours_iff {value : Scaled} {exponent : ℤ} :
    found ∈ neighbours value exponent ↔ found.exponent = exponent ∧
      (found.digits = ⌊value.value / 10 ^ exponent⌋₊ ∨
        found.digits = ⌊value.value / 10 ^ exponent⌋₊ + 1) := by
  have tens : (value.significand * tenPower (-exponent).toNat : ℕ) /
      (tenPower exponent.toNat : ℚ) = value.significand / 10 ^ exponent := by
    have ratio := (⟨value.significand, -exponent⟩ : Decimal).value_eq
    rw [Decimal.value, Decimal.ratio, neg_neg, zpow_neg, ← div_eq_mul_inv]
      at ratio
    exact ratio.symm
  have below : (value.significand * tenPower (-exponent).toNat) <<<
        value.exponent.toNat /
      tenPower exponent.toNat <<< (-value.exponent).toNat =
        ⌊value.value / 10 ^ exponent⌋₊ := by
    rw [← Nat.floor_div_eq_div (K := ℚ), shifted_mul, tens, Scaled.value,
      div_mul_eq_mul_div]
  obtain ⟨digits, place⟩ := found
  unfold neighbours
  dsimp only
  rw [below]
  split <;> simp [and_comm, or_comm] <;> tauto

theorem exists_searchDecimal {grid exponent : ℤ} {steps : Nat}
    (above : grid ≤ exponent) (near : exponent < grid + steps)
    (there : ∃ decimal ∈ neighbours (scaled magnitude) grid,
      decimal.readsAs magnitude = true) :
    ∃ decimal, searchDecimal magnitude exponent steps = some decimal ∧
      grid ≤ decimal.exponent ∧ decimal.readsAs magnitude = true := by
  induction steps generalizing exponent with
  | zero => omega
  | succ steps ih =>
      rw [searchDecimal]
      split
      next decimal first =>
        have place := (mem_neighbours_iff.1 (List.mem_of_find?_eq_some first)).1
        have reads := List.find?_some first
        exact ⟨decimal, rfl, by omega, reads⟩
      next none =>
        have finer : exponent ≠ grid := by
          rintro rfl
          obtain ⟨decimal, among, reads⟩ := there
          exact List.find?_eq_none.1 none decimal among reads
        exact ih (by omega) (by omega)

theorem Decimal.value_stripped (decimal : Decimal) (steps : Nat) :
    (decimal.stripped steps).value = decimal.value := by
  induction steps generalizing decimal with
  | zero => rfl
  | succ steps ih =>
      rw [stripped]
      split
      next divides =>
        have remainder : decimal.digits % 10 = 0 := by simp_all
        have whole : (decimal.digits : ℚ) = (decimal.digits / 10 : ℕ) * 10 := by
          exact_mod_cast (Nat.div_mul_cancel
            (Nat.dvd_of_mod_eq_zero remainder)).symm
        rw [ih, value, value, zpow_add_one₀ (by norm_num), whole]
        ring
      next => rfl

theorem decimalCeiling_eq (positive : 0 < valueOf magnitude) :
    decimalCeiling (scaled magnitude) =
      (Int.log 2 (valueOf magnitude) + 1) * 30103 / 100000 + 1 := by
  have significand := (significand_pos positive).ne'
  have logarithm : Int.log 2 (valueOf magnitude) =
      Nat.log2 (scaled magnitude).significand + (scaled magnitude).exponent := by
    apply le_antisymm
    · refine Int.le_of_lt_add_one ((lt_two_zpow_iff positive).1 ?_)
      rw [add_right_comm, zpow_add₀ two_ne_zero, valueOf, Scaled.value]
      gcongr
      exact_mod_cast Nat.lt_log2_self
    · refine (two_zpow_le_iff positive).1 ?_
      rw [zpow_add₀ two_ne_zero, valueOf, Scaled.value]
      gcongr
      exact_mod_cast Nat.log2_self_le significand
  rw [decimalCeiling, logarithm, add_right_comm]

/-- The powers of two next to those of ten, with 30103 tens of a tenth for
each hundred thousand twos. -/
theorem tens_between {grid : ℤ} (least : -22 ≤ grid) (most : grid ≤ 22) :
    (2 : ℚ) ^ (((grid - 1) * 100000 - 1) / 30103 + 1) ≤ 10 ^ grid ∧
      (10 : ℚ) ^ (grid + 15) ≤
        2 ^ ((grid + 19) * 100000 / 30103 - 1) := by
  interval_cases grid <;> norm_num

theorem valueOf_nonneg (magnitude : Nat) : 0 ≤ valueOf magnitude := by
  rw [valueOf, Scaled.value]
  positivity

theorem Decimal.value_nonneg (decimal : Decimal) : 0 ≤ decimal.value := by
  rw [value]
  positivity

namespace Decimal.Short

variable (short : decimal.Short)
include short

theorem tiny_lt : (2 : ℚ) ^ (-1075 : ℤ) < 10 ^ decimal.exponent / 1000 := by
  have least := short.least
  calc (2 : ℚ) ^ (-1075 : ℤ)
    _ ≤ 2 ^ (-100 : ℤ) := zpow_le_zpow_right₀ one_le_two (by norm_num)
    _ < 10 ^ (-22 : ℤ) / 1000 := by norm_num
    _ ≤ 10 ^ decimal.exponent / 1000 := by
      gcongr
      norm_num

theorem value_lt : decimal.value < 10 ^ 15 * 10 ^ decimal.exponent := by
  have few : (decimal.digits : ℚ) < 10 ^ 15 := by exact_mod_cast short.few
  rw [value]
  gcongr

/-- Reading a short decimal is off by an eighth of its last place at most. -/
theorem abs_valueOf_sub_lt :
    |valueOf (nearest decimal.value) - decimal.value| <
      10 ^ decimal.exponent / 8 := by
  have tiny := short.tiny_lt
  have below := short.value_lt
  have near := abs_valueOf_sub_le decimal.value_nonneg short.nearest_value_lt
  have unit : (0 : ℚ) < 10 ^ decimal.exponent := by positivity
  exact near.trans_lt (by linarith)

/-- No other decimal with the same places is read as the same number. -/
theorem value_unique (finer : decimal.exponent ≤ found.exponent)
    (reads : nearest found.value = nearest decimal.value) :
    found.value = decimal.value := by
  have tiny := short.tiny_lt
  have below := short.value_lt
  have finite : nearest found.value < infinityBits :=
    reads ▸ short.nearest_value_lt
  have near := abs_lt.1 short.abs_valueOf_sub_lt
  have close := abs_le.1 (abs_valueOf_sub_le found.value_nonneg finite)
  rw [reads] at close
  have unit : (0 : ℚ) < 10 ^ decimal.exponent := by positivity
  obtain ⟨shift, place⟩ := Int.le.dest finer
  have multiple : found.value =
      (found.digits * 10 ^ shift : ℕ) * 10 ^ decimal.exponent := by
    rw [value, ← place, zpow_add₀ (by norm_num), zpow_natCast]
    push_cast
    ring
  have apart : |found.value - decimal.value| < 10 ^ decimal.exponent := by
    rw [abs_lt]
    constructor <;> linarith
  rw [multiple, value, ← sub_mul, abs_mul, abs_of_pos unit] at apart
  have one : |((found.digits * 10 ^ shift : ℕ) : ℤ) - decimal.digits| < 1 := by
    exact_mod_cast (mul_lt_iff_lt_one_left unit).1 apart
  have same : found.digits * 10 ^ shift = decimal.digits := by
    rw [Int.abs_lt_one_iff] at one
    omega
  rw [multiple, same, value]

theorem exists_neighbour :
    ∃ found ∈ neighbours (scaled (nearest decimal.value)) decimal.exponent,
      found.readsAs (nearest decimal.value) = true := by
  have unit : (0 : ℚ) < 10 ^ decimal.exponent := by positivity
  have near := abs_lt.1 short.abs_valueOf_sub_lt
  refine ⟨decimal, mem_neighbours_iff.2 ⟨rfl, ?_⟩, readsAs_iff.2 rfl⟩
  have low := Nat.floor_le (div_nonneg
    (valueOf_nonneg (nearest decimal.value)) unit.le)
  have high := Nat.lt_floor_add_one
    (valueOf (nearest decimal.value) / 10 ^ decimal.exponent)
  rw [le_div_iff₀ unit] at low
  rw [div_lt_iff₀ unit] at high
  change decimal.digits = ⌊valueOf _ / _⌋₊ ∨ decimal.digits = ⌊valueOf _ / _⌋₊ + 1
  generalize ⌊valueOf (nearest decimal.value) / 10 ^ decimal.exponent⌋₊ = below
    at low high ⊢
  have whole : decimal.value = decimal.digits * 10 ^ decimal.exponent := rfl
  have atMost : (below : ℚ) < decimal.digits + 1 := by
    refine lt_of_mul_lt_mul_right ?_ unit.le
    linarith
  have atLeast : (decimal.digits : ℚ) < below + 2 := by
    refine lt_of_mul_lt_mul_right ?_ unit.le
    linarith
  norm_cast at atMost atLeast
  omega

variable (some : 0 < decimal.digits)
include some

theorem valueOf_range :
    10 ^ decimal.exponent / 2 < valueOf (nearest decimal.value) ∧
      valueOf (nearest decimal.value) < 10 ^ (decimal.exponent + 15) := by
  have near := abs_lt.1 short.abs_valueOf_sub_lt
  have unit : (0 : ℚ) < 10 ^ decimal.exponent := by positivity
  have digits : 1 ≤ decimal.digits ∧ decimal.digits + 1 ≤ 10 ^ 15 :=
    ⟨some, short.few⟩
  have least : (1 : ℚ) * 10 ^ decimal.exponent ≤ decimal.value := by
    rw [value]
    gcongr
    exact_mod_cast digits.1
  have most : decimal.value + 10 ^ decimal.exponent ≤
      10 ^ (decimal.exponent + 15) := by
    rw [value, ← add_one_mul, zpow_add₀ (by norm_num), mul_comm]
    gcongr
    exact_mod_cast digits.2
  constructor <;> linarith

/-- The search starts above the grid of the decimal, and not far above it. -/
theorem decimalCeiling_range :
    decimal.exponent ≤ decimalCeiling (scaled (nearest decimal.value)) ∧
      decimalCeiling (scaled (nearest decimal.value)) <
        decimal.exponent + 20 := by
  obtain ⟨low, high⟩ := short.valueOf_range some
  have positive : 0 < valueOf (nearest decimal.value) :=
    low.trans' (by positivity)
  obtain ⟨below, above⟩ := tens_between short.least short.most
  rw [decimalCeiling_eq positive]
  constructor
  · by_contra less
    have small : Int.log 2 (valueOf (nearest decimal.value)) <
        ((decimal.exponent - 1) * 100000 - 1) / 30103 := by
      omega
    have under := (lt_two_zpow_iff positive).2 small
    rw [zpow_add_one₀ two_ne_zero] at below
    linarith
  · by_contra more
    have large : (decimal.exponent + 19) * 100000 / 30103 - 1 ≤
        Int.log 2 (valueOf (nearest decimal.value)) := by
      omega
    have beyond := (two_zpow_le_iff positive).2 large
    linarith

theorem value_shortest :
    (shortest (nearest decimal.value)).value = decimal.value := by
  have positive : nearest decimal.value ≠ 0 := by
    intro none
    have range := short.valueOf_range some
    rw [none, valueOf_zero] at range
    have unit : (0 : ℚ) < 10 ^ decimal.exponent := by positivity
    linarith
  obtain ⟨above, near⟩ := short.decimalCeiling_range some
  obtain ⟨found, first, finer, reads⟩ :=
    exists_searchDecimal above near short.exists_neighbour
  rw [shortest, if_neg positive]
  simp only [first]
  rw [value_stripped]
  exact short.value_unique finer (readsAs_iff.1 reads)

end Decimal.Short

end Binary64

end KeyCustody
