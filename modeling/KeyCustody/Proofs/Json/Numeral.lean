import KeyCustody.Json.Skip
import Mathlib

/-!
# Numerals

A numeral has decimal digits without padding, perhaps with a minus sign before
them and a fraction and an exponent behind them.  It writes a rational
number.  Skipping goes over every numeral.
-/

namespace KeyCustody

namespace Json

open Text

/-- One or more decimal digits. -/
structure Digits where
  text : List Char
  some : text ≠ []
  all : ∀ c ∈ text, isDigit c = true

structure Exponent where
  letter : Char
  sign : List Char
  digits : Digits
  isLetter : letter = 'e' ∨ letter = 'E'
  isSign : sign = [] ∨ sign = ['+'] ∨ sign = ['-']

structure Numeral where
  negative : Bool := false
  whole : Digits
  fraction : Option Digits := none
  exponent : Option Exponent := none
  unpadded : whole.text.head? = some '0' → whole.text = ['0']

namespace Digits

def value (digits : Digits) : Nat := decimalValue digits.text

end Digits

namespace Exponent

def text (exponent : Exponent) : List Char :=
  exponent.letter :: (exponent.sign ++ exponent.digits.text)

def value (exponent : Exponent) : ℤ :=
  if exponent.sign = ['-'] then -exponent.digits.value
  else exponent.digits.value

end Exponent

namespace Numeral

/-- What stands behind the digits before the point. -/
def tail (numeral : Numeral) : List Char :=
  (numeral.fraction.elim [] fun digits => '.' :: digits.text) ++
    numeral.exponent.elim [] Exponent.text

def text (numeral : Numeral) : List Char :=
  (if numeral.negative then ['-'] else []) ++
    (numeral.whole.text ++ numeral.tail)

/-- The number that a numeral writes. -/
def value (numeral : Numeral) : ℚ :=
  (if numeral.negative then -1 else 1) *
    (numeral.whole.value + numeral.fraction.elim (0 : ℚ) fun digits =>
      digits.value / 10 ^ digits.text.length) *
    10 ^ numeral.exponent.elim 0 Exponent.value

end Numeral

/-- A text that does not go on with a digit. -/
def NoDigit (rest : List Char) : Prop :=
  ∀ c, rest.head? = some c → isDigit c = false

/-- A text that does not carry a numeral on. -/
def Ended (rest : List Char) : Prop :=
  ∀ c, rest.head? = some c →
    isDigit c = false ∧ c ≠ '.' ∧ c ≠ 'e' ∧ c ≠ 'E'

theorem ne_of_isDigit {c d : Char} (digit : isDigit c = true)
    (other : isDigit d = false) : c ≠ d := by
  rintro rfl
  rw [digit] at other
  cases other

theorem Ended.noDigit {rest : List Char} (ended : Ended rest) :
    NoDigit rest :=
  fun c begins => (ended c begins).1

theorem ended_nil : Ended [] := by
  rintro c begins
  cases begins

theorem noDigit_cons {c : Char} (other : isDigit c = false)
    (rest : List Char) : NoDigit (c :: rest) := by
  rintro d begins
  rwa [← Option.some.inj begins]

theorem ended_cons {c : Char}
    (ends : isGap c = true ∨ c = ',' ∨ c = ']' ∨ c = '}')
    (rest : List Char) : Ended (c :: rest) := by
  rintro d begins
  rw [← Option.some.inj begins]
  simp only [isGap, Bool.or_eq_true, beq_iff_eq] at ends
  rcases ends with (((rfl | rfl) | rfl) | rfl) | rfl | rfl | rfl <;> decide

namespace Digits

theorem exists_cons (digits : Digits) :
    ∃ c more, digits.text = c :: more ∧ isDigit c = true := by
  obtain ⟨text, some, all⟩ := digits
  cases text with
  | nil => exact absurd rfl some
  | cons c more => exact ⟨c, more, rfl, all c List.mem_cons_self⟩

theorem any_head_append (digits : Digits) (rest : List Char) :
    (digits.text ++ rest).head?.any isDigit = true := by
  obtain ⟨c, more, text, digit⟩ := digits.exists_cons
  rw [text]
  exact digit

variable (digits : Digits) {rest : List Char} (stops : NoDigit rest)
include stops

theorem takeWhile_append :
    (digits.text ++ rest).takeWhile isDigit = digits.text := by
  rw [List.takeWhile_append_of_pos digits.all]
  cases rest with
  | nil => simp
  | cons c more => simp [stops c rfl]

theorem dropWhile_append :
    (digits.text ++ rest).dropWhile isDigit = rest := by
  rw [List.dropWhile_append_of_pos digits.all]
  cases rest with
  | nil => rfl
  | cons c more => simp [stops c rfl]

end Digits

theorem noPoint_exponent (exponent : Option Exponent) {rest : List Char}
    (ended : Ended rest) {c : Char}
    (begins : (exponent.elim [] Exponent.text ++ rest).head? = some c) :
    c ≠ '.' := by
  cases exponent with
  | none => exact (ended c begins).2.1
  | some exponent =>
      obtain rfl : exponent.letter = c := Option.some.inj begins
      rcases exponent.isLetter with letter | letter <;> rw [letter] <;> decide

theorem noDigit_exponent (exponent : Option Exponent) {rest : List Char}
    (ended : Ended rest) :
    NoDigit (exponent.elim [] Exponent.text ++ rest) := by
  cases exponent with
  | none => exact ended.noDigit
  | some exponent =>
      apply noDigit_cons
      rcases exponent.isLetter with letter | letter <;> rw [letter] <;> rfl

namespace Numeral

variable (numeral : Numeral)

theorem noDigit_tail {rest : List Char} (ended : Ended rest) :
    NoDigit (numeral.tail ++ rest) := by
  rw [tail, List.append_assoc]
  cases numeral.fraction with
  | some digits => exact noDigit_cons (by decide) _
  | none => exact noDigit_exponent numeral.exponent ended

theorem noZero_append {c : Char} {more rest : List Char}
    (begins : numeral.whole.text = c :: more) (stops : NoDigit rest) :
    (c = '0' && (more ++ rest).head?.any isDigit) = false := by
  by_cases zero : c = '0'
  · have alone := numeral.unpadded (by rw [begins, zero]; rfl)
    rw [begins] at alone
    rw [(List.cons.inj alone).2, List.nil_append]
    cases rest with
    | nil => simp
    | cons d others => simp [stops d rfl]
  · simp [zero]

end Numeral

section Skipping

variable {rest : List Char}

theorem skipExponent_append (exponent : Exponent) (stops : NoDigit rest) :
    skipExponent (exponent.sign ++ exponent.digits.text ++ rest) =
      .ok rest := by
  obtain ⟨letter, sign, digits, isLetter, isSign⟩ := exponent
  have drops := digits.dropWhile_append stops
  obtain ⟨c, more, text, digit⟩ := digits.exists_cons
  have noPlus : c ≠ '+' := ne_of_isDigit digit (by decide)
  have noMinus : c ≠ '-' := ne_of_isDigit digit (by decide)
  rw [text, List.cons_append] at drops
  rcases isSign with rfl | rfl | rfl <;>
    simp [skipExponent, text, digit, drops, noPlus, noMinus]

theorem skipTail_append (exponent : Option Exponent) (ended : Ended rest) :
    skipTail (exponent.elim [] Exponent.text ++ rest) = .ok rest := by
  cases exponent with
  | none =>
      cases rest with
      | nil => rfl
      | cons c more =>
          obtain ⟨_, _, small, capital⟩ := ended c rfl
          simp [skipTail, small, capital]
  | some exponent =>
      have skips := skipExponent_append exponent ended.noDigit
      simp only [Option.elim_some, Exponent.text, List.cons_append]
      rcases exponent.isLetter with letter | letter <;>
        rw [letter, skipTail, skips]

theorem skipUnsigned_append (numeral : Numeral) (ended : Ended rest) :
    skipUnsigned (numeral.whole.text ++ numeral.tail ++ rest) = .ok rest := by
  have stops := numeral.noDigit_tail ended
  have drops := numeral.whole.dropWhile_append stops
  obtain ⟨c, more, text, digit⟩ := numeral.whole.exists_cons
  have noZero := numeral.noZero_append text stops
  rw [text, List.cons_append] at drops
  rw [text, List.append_assoc, List.cons_append, skipUnsigned, digit, noZero,
    drops, Numeral.tail, List.append_assoc]
  simp only [Bool.not_true, Bool.false_eq_true, if_false]
  have ends := noDigit_exponent numeral.exponent ended
  have skips := skipTail_append numeral.exponent ended
  cases numeral.fraction with
  | some fraction =>
      simp only [Option.elim_some, List.cons_append]
      rw [if_pos (fraction.any_head_append _), fraction.dropWhile_append ends,
        skips]
  | none =>
      have noPoint {c : Char} := @noPoint_exponent numeral.exponent rest ended c
      simp only [Option.elim_none, List.nil_append]
      generalize numeral.exponent.elim [] Exponent.text ++ rest = behind
        at skips noPoint
      split
      · exact absurd rfl (noPoint rfl)
      · exact skips

end Skipping

namespace Numeral

variable (numeral : Numeral)

theorem exists_mark (more : numeral.tail ≠ []) :
    ∃ mark later, numeral.tail = mark :: later ∧
      (mark = '.' ∨ mark = 'e' ∨ mark = 'E') := by
  rw [tail] at more ⊢
  cases fraction : numeral.fraction with
  | some digits => exact ⟨'.', _, rfl, Or.inl rfl⟩
  | none =>
      cases power : numeral.exponent with
      | none => exact absurd (by rw [fraction, power]; rfl) more
      | some exponent => exact ⟨_, _, rfl, Or.inr exponent.isLetter⟩

theorem exists_cons : ∃ c more, numeral.text = c :: more ∧
    (c = '-' ∨ isDigit c = true) := by
  rw [text]
  cases numeral.negative with
  | true => exact ⟨'-', _, rfl, Or.inl rfl⟩
  | false =>
      obtain ⟨c, more, begins, digit⟩ := numeral.whole.exists_cons
      rw [begins]
      exact ⟨c, _, rfl, Or.inr digit⟩

/-- A numeral shows nothing but digits if it has neither a sign nor a
tail. -/
theorem all_isDigit_iff : (∀ c ∈ numeral.text, isDigit c = true) ↔
    numeral.negative = false ∧ numeral.tail = [] := by
  rw [text]
  constructor
  · intro all
    constructor
    · cases negative : numeral.negative with
      | false => rfl
      | true =>
          have minus := all '-' (by simp [negative])
          exact absurd minus (by decide)
    · by_contra more
      obtain ⟨mark, later, marked, isMark⟩ := numeral.exists_mark more
      have digit := all mark (by simp [marked])
      rcases isMark with rfl | rfl | rfl <;> exact absurd digit (by decide)
  · rintro ⟨unsigned, none⟩ c member
    rw [unsigned, none, List.append_nil] at member
    exact numeral.whole.all c member

variable {numeral}

theorem parts_of_tail (none : numeral.tail = []) :
    numeral.fraction = .none ∧ numeral.exponent = .none := by
  rw [tail, List.append_eq_nil_iff] at none
  constructor
  · cases fraction : numeral.fraction with
    | none => rfl
    | some digits => rw [fraction] at none; cases none.1
  · cases power : numeral.exponent with
    | none => rfl
    | some exponent => rw [power] at none; cases none.2

theorem value_of_tail (none : numeral.tail = []) :
    numeral.value = (if numeral.negative then -1 else 1) *
      numeral.whole.value := by
  obtain ⟨noFraction, noExponent⟩ := parts_of_tail none
  simp [value, noFraction, noExponent]

theorem value_of_plain (plain : ∀ c ∈ numeral.text, isDigit c = true) :
    numeral.value = numeral.whole.value := by
  obtain ⟨unsigned, none⟩ := numeral.all_isDigit_iff.1 plain
  rw [value_of_tail none, unsigned]
  simp

end Numeral

end Json

end KeyCustody
