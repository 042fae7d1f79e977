import KeyCustody.Proofs.Decimal.Shortest
import KeyCustody.Proofs.Json.Writing

/-!
# Numerals that are sent again

Data that are read and written anew keep everything but their numerals.  A
numeral becomes that of the number it is read as.  It keeps its value if it is a
whole number that fits into a word, or if it has at most fifteen digits and a
small power of ten.
-/

namespace KeyCustody

namespace Binary64

section Signs

variable (negative : Bool) {magnitude : Nat}
variable (finite : magnitude < infinityBits)
include finite

theorem toNat_ofMagnitude : (ofMagnitude negative magnitude).bits.toNat =
    if negative then signBit + magnitude else magnitude := by
  have small : magnitude < signBit := finite.trans (by decide)
  have top : signBit + signBit = UInt64.size := by decide
  rw [ofMagnitude, UInt64.toNat_ofNat_of_lt']
  split <;> omega

theorem magnitude_ofMagnitude :
    (ofMagnitude negative magnitude).magnitude = magnitude := by
  have small : magnitude < signBit := finite.trans (by decide)
  rw [Binary64.magnitude, toNat_ofMagnitude negative finite]
  cases negative with
  | true => rw [if_pos rfl, Nat.add_mod_left, Nat.mod_eq_of_lt small]
  | false => rw [if_neg Bool.false_ne_true, Nat.mod_eq_of_lt small]

theorem isNegative_ofMagnitude :
    (ofMagnitude negative magnitude).isNegative = negative := by
  have small : magnitude < signBit := finite.trans (by decide)
  rw [Binary64.isNegative, toNat_ofMagnitude negative finite]
  cases negative with
  | true => simp
  | false => simp [small]

end Signs

end Binary64

namespace Json

open Text

/-- The numeral that is written for what a numeral is read as. -/
def Numeral.resent (numeral : Numeral) : Numeral :=
  match numeral.toJson with
  | .int n => .ofInt n
  | .float x => .ofFloat x
  | _ => numeral

theorem Numeral.resent_of_int {numeral : Numeral} {n : ℤ}
    (reads : numeral.toJson = .int n) : numeral.resent = .ofInt n := by
  rw [resent, reads]

theorem Numeral.resent_of_float {numeral : Numeral} {x : Binary64}
    (reads : numeral.toJson = .float x) : numeral.resent = .ofFloat x := by
  rw [resent, reads]

theorem data_toJson (data : Data Numeral) :
    data.toJson.data = data.map Numeral.resent := by
  induction data using Data.toJson.induct with
  | case1 => rw [Data.toJson, Data.map, Json.data]
  | case2 truth => rw [Data.toJson, Data.map, Json.data]
  | case3 numeral =>
      rw [Data.toJson, Data.map]
      rcases numeral.toJson_cases with ⟨n, reads⟩ | ⟨x, reads⟩
      · rw [numeral.resent_of_int reads, reads, Json.data]
      · rw [numeral.resent_of_float reads, reads, Json.data]
  | case4 text => rw [Data.toJson, Data.map, Json.data]
  | case5 items ih =>
      rw [Data.toJson, Data.map, Json.data, List.map_map]
      exact congrArg Data.array (List.map_congr_left ih)
  | case6 members ih =>
      rw [Data.toJson, Data.map, Json.data, List.map_map]
      exact congrArg Data.object (List.map_congr_left fun member listed =>
        congrArg (Prod.mk member.1) (ih member listed))

namespace Numeral

variable (numeral : Numeral)

/-- All digits as one number, with the power of ten with which they count. -/
def decimal : Binary64.Decimal where
  digits := decimalValue (numeral.whole.text ++
    numeral.fraction.elim [] Digits.text)
  exponent := numeral.exponent.elim 0 Exponent.value -
    (numeral.fraction.elim [] Digits.text).length

theorem value_eq : numeral.value =
    (if numeral.negative then -1 else 1) * numeral.decimal.value := by
  rw [value, mul_assoc, Binary64.Decimal.value, decimal, decimalValue_append,
    zpow_sub₀ (by norm_num), zpow_natCast]
  congr 1
  cases numeral.fraction with
  | none => simp [Digits.value, decimalValue]
  | some digits =>
      simp only [Digits.value, Option.elim_some]
      push_cast
      field_simp

/-- A whole number that fits into a word, or few digits with a small power of
ten. -/
def Short : Prop :=
  numeral.tail = [] ∧ -2 ^ 63 ≤ numeral.value ∧ numeral.value < 2 ^ 64 ∨
    numeral.decimal.Short

variable {numeral}

theorem decimal_of_tail (none : numeral.tail = []) :
    numeral.decimal.digits = numeral.whole.value ∧
      numeral.decimal.exponent = 0 := by
  obtain ⟨noFraction, noExponent⟩ := parts_of_tail none
  simp [decimal, noFraction, noExponent, Digits.value]

theorem parts_eq (fits : numeral.decimal.digits < wordSize) :
    numeral.parts = ⟨numeral.negative, numeral.decimal.digits,
      numeral.decimal.exponent⟩ := by
  have all : (numeral.fraction.elim [] Digits.text).foldl
      (fun value c => value * 10 + digitValue c) numeral.whole.value =
        numeral.decimal.digits :=
    List.foldl_append.symm
  have few : numeral.whole.value < wordSize :=
    (le_foldl_digitValue _ _).trans_lt (all.trans_lt fits)
  have whole : takeDigits 0 numeral.whole.text =
      (numeral.whole.value, numeral.whole.text.length) :=
    takeDigits_of_lt few
  have rest : takeDigits numeral.whole.value
      (numeral.fraction.elim [] Digits.text) = (numeral.decimal.digits,
        (numeral.fraction.elim [] Digits.text).length) := by
    rw [takeDigits_of_lt (all.trans_lt fits), all]
  rw [parts, whole, rest]
  simp [decimal]
  ring

theorem value_ofFloat {decimal : Binary64.Decimal} (short : decimal.Short)
    (negative : Bool) :
    (ofFloat (.ofMagnitude negative (Binary64.nearest decimal.value))).value =
      (if negative then -1 else 1) * decimal.value := by
  have finite := short.nearest_value_lt
  rw [ofFloat, value_ofDecimal, Binary64.isNegative_ofMagnitude _ finite,
    Binary64.magnitude_ofMagnitude _ finite]
  congr 1
  rcases decimal.digits.eq_zero_or_pos with none | some
  · have zero : decimal.value = 0 := by
      rw [Binary64.Decimal.value, none, Nat.cast_zero, zero_mul]
    have fewest : Binary64.shortest 0 = ⟨0, 0⟩ := rfl
    rw [zero, Binary64.nearest_zero, fewest]
    simp [Binary64.Decimal.value]
  · exact short.value_shortest some

/-- Few digits are read as a whole number, or as the floating-point number
nearest to their value. -/
theorem reading_of_decimal (short : numeral.decimal.Short) :
    (∃ n, numeral.reading = .ok (.int n)) ∨
      numeral.reading = .ok (.float (.ofMagnitude numeral.negative
        (Binary64.nearest numeral.decimal.value))) := by
  have parts := parts_eq (short.few.trans (by decide))
  have float : numeral.parts.toJson = .ok (.float (.ofMagnitude
      numeral.negative (Binary64.nearest numeral.decimal.value))) := by
    rw [parts, DecimalParts.toJson, short.ofDecimal?_eq]
  rw [reading]
  split
  next whole =>
    unfold wholeNumber
    split
    next negative =>
      split
      next => exact Or.inl ⟨_, rfl⟩
      next =>
        have same : numeral.parts = ⟨true, numeral.parts.significand, 0⟩ := by
          rw [parts, negative, (decimal_of_tail whole.1).2]
        exact Or.inr (same ▸ float)
    next => exact Or.inl ⟨_, rfl⟩
  next => exact Or.inr float

/-- A whole number that fits into a word is read as such, but for zero with a
sign. -/
theorem reading_of_tail (none : numeral.tail = [])
    (low : -2 ^ 63 ≤ numeral.value) (high : numeral.value < 2 ^ 64) :
    (∃ n, numeral.reading = .ok (.int n)) ∨ numeral.decimal.Short := by
  rw [value_of_tail none] at low high
  have reads (fits : numeral.whole.value < wordSize) :
      numeral.reading = wholeNumber numeral.negative numeral.whole.value := by
    have whole := isWhole_of_tail none fits
    rw [reading, if_pos whole, whole.significand_eq]
  cases negative : numeral.negative with
  | true =>
      rw [negative, if_pos rfl] at low
      have half : numeral.whole.value ≤ wordSize / 2 := by
        have least : (numeral.whole.value : ℚ) ≤ (2 ^ 63 : ℕ) := by
          push_cast
          linarith
        exact_mod_cast least
      rw [reads (half.trans_lt (by decide)), negative, wholeNumber, if_pos rfl]
      rcases numeral.whole.value.eq_zero_or_pos with zero | some
      · obtain ⟨digits, exponent⟩ := decimal_of_tail none
        right
        constructor <;> simp [digits, exponent, zero]
      · exact Or.inl ⟨_, if_pos ⟨some, half⟩⟩
  | false =>
      rw [negative, if_neg Bool.false_ne_true, one_mul] at high
      rw [reads (by exact_mod_cast high), negative]
      exact Or.inl ⟨_, rfl⟩

theorem Short.reading_cases (short : numeral.Short) :
    (∃ n, numeral.reading = .ok (.int n)) ∨ numeral.decimal.Short ∧
      numeral.reading = .ok (.float (.ofMagnitude numeral.negative
        (Binary64.nearest numeral.decimal.value))) := by
  have few : (∃ n, numeral.reading = .ok (.int n)) ∨ numeral.decimal.Short := by
    rcases short with ⟨none, low, high⟩ | short
    · exact reading_of_tail none low high
    · exact Or.inr short
  rcases few with whole | few
  · exact Or.inl whole
  · exact (reading_of_decimal few).imp_right fun reads => ⟨few, reads⟩

theorem Short.readable (short : numeral.Short) : numeral.Readable := by
  rcases short.reading_cases with ⟨n, reads⟩ | ⟨_, reads⟩
  · exact ⟨_, reads⟩
  · exact ⟨_, reads⟩

/-- Short numerals keep their values when they are sent again. -/
theorem Short.value_resent (short : numeral.Short) :
    numeral.resent.value = numeral.value := by
  have same := short.readable.reading_eq
  rcases short.reading_cases with ⟨n, reads⟩ | ⟨few, reads⟩
  · have int : numeral.toJson = .int n := Except.ok.inj (same.symm.trans reads)
    rw [resent_of_int int, value_ofInt, value_of_reading reads]
  · have float := Except.ok.inj (same.symm.trans reads)
    rw [resent_of_float float, value_ofFloat few, value_eq]

end Numeral

end Json

end KeyCustody
