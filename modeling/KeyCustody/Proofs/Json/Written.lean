import KeyCustody.Json.Printer
import KeyCustody.Proofs.Decimal.Rounding
import KeyCustody.Proofs.Json.Numeral
import KeyCustody.Proofs.Text.Digits

/-!
# Numerals that are written

Whole numbers are written with their digits, floating-point numbers with those
of a decimal: with a point among the digits, or behind zeros, or before the
second digit and with an exponent.  Each way it is a numeral of the decimal.
-/

namespace KeyCustody

namespace Json

open Text

namespace Digits

def ofNat (n : Nat) : Digits where
  text := decimalDigits n
  some := decimalDigits_ne_nil n
  all := fun _ => isDigit_of_mem_decimalDigits

@[simp]
theorem text_ofNat (n : Nat) : (ofNat n).text = decimalDigits n := rfl

@[simp]
theorem value_ofNat (n : Nat) : (ofNat n).value = n :=
  decimalValue_decimalDigits n

/-- Digits with zeros before them. -/
def behindZeros (count : Nat) (digits : Digits) : Digits where
  text := List.replicate count '0' ++ digits.text
  some := by simp [digits.some]
  all := by
    intro c member
    rcases List.mem_append.1 member with zero | digit
    · exact isDigit_of_mem_zeros zero
    · exact digits.all c digit

@[simp]
theorem value_behindZeros (count : Nat) (digits : Digits) :
    (behindZeros count digits).value = digits.value := by
  rw [value, behindZeros, decimalValue_append, decimalValue_zeros, Nat.zero_mul,
    Nat.zero_add]
  rfl

/-- Digits with zeros behind them. -/
def beforeZeros (digits : Digits) (count : Nat) : Digits where
  text := digits.text ++ List.replicate count '0'
  some := by simp [digits.some]
  all := by
    intro c member
    rcases List.mem_append.1 member with digit | zero
    · exact digits.all c digit
    · exact isDigit_of_mem_zeros zero

@[simp]
theorem value_beforeZeros (digits : Digits) (count : Nat) :
    (beforeZeros digits count).value = digits.value * 10 ^ count := by
  rw [value, beforeZeros, decimalValue_append, decimalValue_zeros,
    List.length_replicate, Nat.add_zero]
  rfl

/-- The first digits, if there are any. -/
def take (digits : Digits) (count : Nat) (some : count ≠ 0) : Digits where
  text := digits.text.take count
  some := by simp [digits.some, some]
  all := fun c member => digits.all c (List.mem_of_mem_take member)

/-- The digits behind the first ones, if there are any. -/
def drop (digits : Digits) (count : Nat) (more : count < digits.text.length) :
    Digits where
  text := digits.text.drop count
  some := by simpa using more
  all := fun c member => digits.all c (List.mem_of_mem_drop member)

theorem value_take_drop (digits : Digits) {count : Nat} (some : count ≠ 0)
    (more : count < digits.text.length) :
    digits.value = (digits.take count some).value *
        10 ^ (digits.text.length - count) + (digits.drop count more).value := by
  have cut := decimalValue_append (digits.text.take count)
    (digits.text.drop count)
  rwa [List.take_append_drop, List.length_drop] at cut

theorem head_take (digits : Digits) {count : Nat} (some : count ≠ 0) :
    (digits.take count some).text.head? = digits.text.head? := by
  rw [take, List.head?_take, if_neg some]

theorem head_ofNat {n : Nat} (positive : n ≠ 0) :
    (ofNat n).text.head? ≠ .some '0' := by
  intro zero
  have digits : decimalDigits n = ['0'] := decimalDigits_of_head zero
  have value := decimalValue_decimalDigits n
  rw [digits] at value
  exact positive (value.symm.trans rfl)

theorem unpadded_ofNat (n : Nat) (zero : (ofNat n).text.head? = .some '0') :
    (ofNat n).text = ['0'] :=
  decimalDigits_of_head zero

end Digits

theorem isLetter_lower : 'e' = 'e' ∨ 'e' = 'E' := Or.inl rfl

def Exponent.ofInt (size : ℤ) : Exponent where
  letter := 'e'
  sign := if size < 0 then ['-'] else ['+']
  digits := .ofNat size.natAbs
  isLetter := isLetter_lower
  isSign := by
    split
    · exact Or.inr (Or.inr rfl)
    · exact Or.inr (Or.inl rfl)

theorem Exponent.text_ofInt (size : ℤ) :
    (ofInt size).text = writeExponent floatLayout size := by
  by_cases negative : size < 0 <;>
    simp [ofInt, text, writeExponent, floatLayout, writeInt, negative]

@[simp]
theorem Exponent.value_ofInt (size : ℤ) : (ofInt size).value = size := by
  rcases lt_or_ge size 0 with negative | positive
  · simp [ofInt, value, negative, abs_of_neg negative]
  · simp [ofInt, value, not_lt.2 positive, abs_of_nonneg positive]

namespace Numeral

def ofInt (n : ℤ) : Numeral where
  negative := n < 0
  whole := .ofNat n.natAbs
  unpadded := Digits.unpadded_ofNat n.natAbs

theorem text_ofInt (n : ℤ) : (ofInt n).text = writeInt n := by
  by_cases negative : n < 0 <;>
    simp [ofInt, text, tail, writeInt, negative]

theorem value_ofInt (n : ℤ) : (ofInt n).value = n := by
  rcases lt_or_ge n 0 with negative | positive
  · simp [ofInt, value, negative, abs_of_neg negative]
  · simp [ofInt, value, not_lt.2 positive, abs_of_nonneg positive]

/-- The digit zero. -/
def zero : Digits where
  text := ['0']
  some := by simp
  all := by simp [isDigit]

section Layouts

variable (negative : Bool) (digits : Digits) (places : ℤ)
variable (front : digits.text.head? ≠ some '0')

/-- Digits with a point behind so many of them, and with zeros where there are
none. -/
def positional : Numeral :=
  if small : places ≤ 0 then
    { negative
      whole := zero
      fraction := some (.behindZeros (-places).toNat digits)
      unpadded := fun _ => rfl }
  else if short : (digits.text.length : ℤ) ≤ places then
    { negative
      whole := .beforeZeros digits (places - digits.text.length).toNat
      fraction := some zero
      unpadded := by
        obtain ⟨c, more, text, _⟩ := digits.exists_cons
        intro same
        rw [text] at front
        simp only [Digits.beforeZeros, text, List.cons_append,
          List.head?_cons] at same
        exact absurd same front }
  else
    { negative
      whole := digits.take places.toNat (by omega)
      fraction := some (digits.drop places.toNat (by omega))
      unpadded := by
        rw [Digits.head_take]
        exact fun same => absurd same front }

/-- Digits with a point behind the first one, if there are more, and with an
exponent. -/
def scientific : Numeral where
  negative := negative
  whole := digits.take 1 (by decide)
  fraction :=
    if more : 1 < digits.text.length then some (digits.drop 1 more) else none
  exponent := some (.ofInt (places - 1))
  unpadded := by
    rw [Digits.head_take]
    exact fun same => absurd same front

theorem text_positional :
    (positional negative digits places front).text =
      (if negative then ['-'] else []) ++
        writePositional digits.text places := by
  unfold positional writePositional
  split
  next => simp [text, tail, zero, Digits.behindZeros]
  next =>
    split
    next => simp [text, tail, zero, Digits.beforeZeros]
    next => simp [text, tail, Digits.take, Digits.drop]

theorem text_scientific :
    (scientific negative digits places front).text =
      (if negative then ['-'] else []) ++
        writeScientific floatLayout digits.text places := by
  obtain ⟨first, more, shown, _⟩ := digits.exists_cons
  have power := Exponent.text_ofInt (places - 1)
  cases more with
  | nil => simp [scientific, text, tail, writeScientific, shown, power,
      Digits.take]
  | cons second others =>
      simp [scientific, text, tail, writeScientific, shown, power,
        Digits.take, Digits.drop]

theorem value_positional :
    (positional negative digits places front).value =
      (if negative then -1 else 1) *
        (digits.value * 10 ^ (places - digits.text.length)) := by
  have nothing : zero.value = 0 := rfl
  unfold positional
  split
  next small =>
    have power : places - digits.text.length =
        -(((-places).toNat + digits.text.length : ℕ) : ℤ) := by
      omega
    have length : (Digits.behindZeros (-places).toNat digits).text.length =
        (-places).toNat + digits.text.length := by
      simp [Digits.behindZeros]
    rw [power, zpow_neg, zpow_natCast]
    simp [value, nothing, length, div_eq_mul_inv]
  next =>
    split
    next long =>
      have power : (10 : ℚ) ^ (places - digits.text.length) =
          10 ^ (places - digits.text.length).toNat := by
        rw [← zpow_natCast, Int.toNat_of_nonneg (by omega)]
      rw [power]
      simp [value, nothing]
    next short =>
      have some : places.toNat ≠ 0 := by omega
      have more : places.toNat < digits.text.length := by omega
      have length : (digits.drop places.toNat more).text.length =
          digits.text.length - places.toNat := by
        simp [Digits.drop]
      have power : places - digits.text.length =
          -((digits.text.length - places.toNat : ℕ) : ℤ) := by
        omega
      rw [power, zpow_neg, zpow_natCast, digits.value_take_drop some more]
      simp only [value, Option.elim_some, Option.elim_none, length, zpow_zero,
        mul_one]
      push_cast
      field_simp

theorem value_scientific :
    (scientific negative digits places front).value =
      (if negative then -1 else 1) *
        (digits.value * 10 ^ (places - digits.text.length)) := by
  have some := List.length_pos_of_ne_nil digits.some
  by_cases more : 1 < digits.text.length
  · have power : places - digits.text.length =
        places - 1 - (digits.text.length - 1 : ℕ) := by
      omega
    have length : (digits.drop 1 more).text.length =
        digits.text.length - 1 := by
      simp [Digits.drop]
    rw [power, zpow_sub₀ (by norm_num), zpow_natCast,
      digits.value_take_drop (by decide) more]
    simp only [scientific, value, more, dif_pos, Option.elim_some, length,
      Exponent.value_ofInt]
    push_cast
    field_simp
  · have length : digits.text.length = 1 := by omega
    have whole : (digits.take 1 (by decide)).value = digits.value :=
      congrArg decimalValue (List.take_of_length_le (by omega))
    simp [scientific, value, length, whole]

end Layouts

/-- The numeral of a decimal in the layout of floating-point numbers. -/
def ofDecimal (negative : Bool) (decimal : Binary64.Decimal) : Numeral :=
  let digits := Digits.ofNat decimal.digits
  let places := (decimalDigits decimal.digits).length + decimal.exponent
  if none : decimal.digits = 0 then
    { negative
      whole := zero
      fraction := some zero
      unpadded := fun _ => rfl }
  else if floatLayout.leastPlace ≤ places ∧
      places ≤ floatLayout.greatestPlace then
    positional negative digits places (Digits.head_ofNat none)
  else scientific negative digits places (Digits.head_ofNat none)

theorem value_ofDecimal (negative : Bool) (decimal : Binary64.Decimal) :
    (ofDecimal negative decimal).value =
      (if negative then -1 else 1) * decimal.value := by
  have nothing : zero.value = 0 := rfl
  unfold ofDecimal Binary64.Decimal.value
  dsimp only
  split
  next none => simp [value, nothing, none]
  next =>
    split
    next => simp [value_positional]
    next => simp [value_scientific]

/-- The numeral of a floating-point number, which has the fewest digits that
read back. -/
def ofFloat (x : Binary64) : Numeral :=
  ofDecimal x.isNegative (Binary64.shortest x.magnitude)

theorem text_ofFloat (x : Binary64) : (ofFloat x).text = writeFloat x := by
  have signed (text : List Char) :
      (if x.isNegative then ['-'] else []) ++ text =
        if x.isNegative then '-' :: text else text := by
    cases x.isNegative <;> rfl
  unfold ofFloat ofDecimal writeFloat writeFloatIn
  dsimp only
  split
  next => exact signed _
  next =>
    split
    next => rw [text_positional, signed, Digits.text_ofNat]
    next => rw [text_scientific, signed, Digits.text_ofNat]

end Numeral

end Json

end KeyCustody
