import KeyCustody.Text.Digits
import Mathlib

/-!
# Decimal digits

The value of digits that stand behind each other, and the digits that a number
is written with.
-/

namespace KeyCustody

namespace Text

theorem foldl_digitValue (start : Nat) (digits : List Char) :
    digits.foldl (fun value c => value * 10 + digitValue c) start =
      start * 10 ^ digits.length + decimalValue digits := by
  induction digits generalizing start with
  | nil => simp [decimalValue]
  | cons c rest ih =>
      rw [decimalValue, List.foldl_cons, List.foldl_cons, ih, ih (0 * 10 + _),
        List.length_cons]
      ring

theorem decimalValue_append (front back : List Char) :
    decimalValue (front ++ back) =
      decimalValue front * 10 ^ back.length + decimalValue back := by
  rw [decimalValue, List.foldl_append, foldl_digitValue]
  rfl

theorem decimalValue_zeros (count : Nat) :
    decimalValue (List.replicate count '0') = 0 := by
  induction count with
  | zero => rfl
  | succ count ih =>
      rw [List.replicate_succ', decimalValue_append, ih]
      rfl

theorem isDigit_of_mem_zeros {count : Nat} {c : Char}
    (member : c ∈ List.replicate count '0') : isDigit c = true := by
  rw [List.eq_of_mem_replicate member]
  rfl

theorem digitValue_lt {c : Char} (digit : isDigit c = true) :
    digitValue c < 10 := by
  have range : 48 ≤ c.toNat ∧ c.toNat ≤ 57 := by
    simpa [isDigit, Char.le_def, UInt32.le_iff_toNat_le] using digit
  change c.toNat - 48 < 10
  omega

theorem decimalValue_lt {digits : List Char}
    (all : ∀ c ∈ digits, isDigit c = true) :
    decimalValue digits < 10 ^ digits.length := by
  induction digits using List.reverseRecOn with
  | nil => exact Nat.one_pos
  | append_singleton front last ih =>
      have before := ih fun c member => all c (List.mem_append_left _ member)
      have digit := digitValue_lt (all last (by simp))
      have value : decimalValue [last] = digitValue last := by
        simp [decimalValue]
      rw [decimalValue_append, value, List.length_append, List.length_singleton,
        pow_succ]
      omega

theorem decimalValue_decimalDigits (n : Nat) :
    decimalValue (decimalDigits n) = n := by
  refine Eq.trans ?_ (Nat.ofDigitChars_ten_toDigits (n := n))
  rw [Nat.ofDigitChars_eq_foldl, decimalValue, decimalDigits]
  congr 1
  funext value c
  rw [Nat.mul_comm 10 value]
  rfl

theorem decimalDigits_ne_nil (n : Nat) : decimalDigits n ≠ [] :=
  Nat.toDigits_ne_nil

theorem isDigit_of_mem_decimalDigits {n : Nat} {c : Char}
    (member : c ∈ decimalDigits n) : isDigit c = true :=
  Nat.isDigit_of_mem_toDigits (by decide) (by decide) member

/-- Only the digits of zero begin with a zero. -/
theorem decimalDigits_of_head {n : Nat}
    (zero : (decimalDigits n).head? = some '0') : decimalDigits n = ['0'] := by
  have all : ∀ c ∈ (decimalDigits n).tail, isDigit c = true := fun c member =>
    isDigit_of_mem_decimalDigits (List.mem_of_mem_tail member)
  have value := decimalValue_decimalDigits n
  have shortest : n < 10 ^ (decimalDigits n).tail.length →
      (decimalDigits n).tail = [] := by
    intro small
    by_contra more
    have fits := (Nat.length_toDigits_le_iff (by decide)
      (List.length_pos_of_ne_nil more)).2 small
    have shown : (decimalDigits n).length =
        (decimalDigits n).tail.length + 1 := by
      rw [List.length_tail, Nat.sub_add_cancel
        (List.length_pos_of_ne_nil (decimalDigits_ne_nil n))]
    rw [decimalDigits] at shown fits
    omega
  cases digits : decimalDigits n with
  | nil => exact absurd digits (decimalDigits_ne_nil n)
  | cons c rest =>
      rw [digits] at zero all value shortest
      obtain rfl : c = '0' := Option.some.inj zero
      have same : decimalValue ('0' :: rest) = decimalValue rest := by
        rw [← List.singleton_append, decimalValue_append]
        simp [decimalValue, digitValue]
      rw [same] at value
      have small : n < 10 ^ rest.length := value ▸ decimalValue_lt all
      rw [show rest = [] from shortest small]

end Text

end KeyCustody
