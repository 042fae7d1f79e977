import KeyCustody.Proofs.Json.Numeral
import KeyCustody.Proofs.Text.Digits

/-!
# Reading numerals

A numeral is read by its digits alone: what follows it makes no difference, and
nothing but a numeral is read as a number.  Digits whose number fits into a word
are read as that number.  All others are taken as a significand, with as many
digits as fit into a word, and a power of ten.
-/

namespace KeyCustody

namespace Json

open Text

theorem le_foldl_digitValue (start : Nat) (digits : List Char) :
    start ≤
      digits.foldl (fun value c => value * 10 + digitValue c) start := by
  rw [foldl_digitValue]
  exact Nat.le_add_right_of_le (Nat.le_mul_of_pos_right start (by positivity))

theorem takeDigits_of_lt {start : Nat} {digits : List Char}
    (fits : digits.foldl (fun value c => value * 10 + digitValue c) start <
      wordSize) :
    takeDigits start digits =
      (digits.foldl (fun value c => value * 10 + digitValue c) start,
        digits.length) := by
  induction digits generalizing start with
  | nil => rfl
  | cons c rest ih =>
      rw [List.foldl_cons] at fits
      have longer := Nat.lt_of_le_of_lt (le_foldl_digitValue _ rest) fits
      rw [takeDigits, if_pos longer, ih fits]
      rfl

/-- Digits that are all taken are taken with their value. -/
theorem takeDigits_of_length {start : Nat} {digits : List Char}
    (all : (takeDigits start digits).2 = digits.length) :
    (takeDigits start digits).1 =
      digits.foldl (fun value c => value * 10 + digitValue c) start := by
  induction digits generalizing start with
  | nil => rfl
  | cons c rest ih =>
      rw [takeDigits] at all ⊢
      split at all
      next fits =>
        rw [if_pos fits]
        exact ih (Nat.succ_injective all)
      next => cases all

namespace Numeral

/-- A numeral of nothing but digits that fit into a word, but for its sign. -/
def IsWhole (numeral : Numeral) : Prop :=
  numeral.tail = [] ∧ (takeDigits 0 numeral.whole.text).2 =
    numeral.whole.text.length

instance (numeral : Numeral) : Decidable numeral.IsWhole :=
  inferInstanceAs (Decidable (_ ∧ _))

/-- The significand and the power of ten by which a numeral is read. -/
def parts (numeral : Numeral) : DecimalParts :=
  let front := takeDigits 0 numeral.whole.text
  let back := takeDigits front.1 (numeral.fraction.elim [] Digits.text)
  { negative := numeral.negative
    significand := back.1
    exponent := (numeral.whole.text.length - front.2 : Nat) - (back.2 : ℤ) +
      numeral.exponent.elim 0 Exponent.value }

/-- What a numeral is read as. -/
def reading (numeral : Numeral) : Except Malformed Json :=
  if numeral.IsWhole then
    wholeNumber numeral.negative numeral.parts.significand
  else numeral.parts.toJson

/-- A numeral that is not too large to be read. -/
def Readable (numeral : Numeral) : Prop :=
  ∃ value, numeral.reading = .ok value

instance (numeral : Numeral) : Decidable numeral.Readable :=
  decidable_of_iff (numeral.reading.toOption.isSome = true) <| by
    rw [Readable]
    cases numeral.reading <;> simp [Except.toOption]

/-- What a readable numeral is read as, and zero for any other. -/
def toJson (numeral : Numeral) : Json :=
  numeral.reading.toOption.getD (.int 0)

theorem Readable.reading_eq {numeral : Numeral} (readable : numeral.Readable) :
    numeral.reading = .ok numeral.toJson := by
  obtain ⟨value, reads⟩ := readable
  rw [toJson, reads]
  rfl

end Numeral

section Reading

variable {rest : List Char}

theorem scanExponent_append (exponent : Exponent) (stops : NoDigit rest) :
    scanExponent (exponent.sign ++ exponent.digits.text ++ rest) =
      .ok (exponent.value, rest) := by
  obtain ⟨letter, sign, digits, isLetter, isSign⟩ := exponent
  have takes := digits.takeWhile_append stops
  have drops := digits.dropWhile_append stops
  obtain ⟨c, more, text, digit⟩ := digits.exists_cons
  have noPlus : c ≠ '+' := ne_of_isDigit digit (by decide)
  have noMinus : c ≠ '-' := ne_of_isDigit digit (by decide)
  rw [text, List.cons_append] at takes drops
  rcases isSign with rfl | rfl | rfl <;>
    simp [scanExponent, Exponent.value, Digits.value, text, digit, takes,
      drops, noPlus, noMinus]

theorem finishDecimal_append (parts : DecimalParts)
    (exponent : Option Exponent) (ended : Ended rest) :
    finishDecimal parts (exponent.elim [] Exponent.text ++ rest) =
      ({ parts with
        exponent := parts.exponent + exponent.elim 0 Exponent.value
        }.toJson).map (·, rest) := by
  cases exponent with
  | none =>
      simp only [Option.elim_none, List.nil_append, add_zero]
      unfold finishDecimal
      split
      next => exact absurd rfl (ended _ rfl).2.2.1
      next => exact absurd rfl (ended _ rfl).2.2.2
      next => rfl
  | some exponent =>
      have scans := scanExponent_append exponent ended.noDigit
      simp only [Option.elim_some, Exponent.text, List.cons_append]
      rcases exponent.isLetter with letter | letter <;>
        rw [letter, finishDecimal, scans]

theorem scanFraction_append (parts : DecimalParts) (digits : Digits)
    (exponent : Option Exponent) (ended : Ended rest) :
    scanFraction parts
        (digits.text ++ (exponent.elim [] Exponent.text ++ rest)) =
      ({ parts with
        significand := (takeDigits parts.significand digits.text).1
        exponent := parts.exponent -
          ((takeDigits parts.significand digits.text).2 : ℤ) +
          exponent.elim 0 Exponent.value }.toJson).map (·, rest) := by
  have stops := noDigit_exponent exponent ended
  have takes := digits.takeWhile_append stops
  have drops := digits.dropWhile_append stops
  obtain ⟨c, more, text, digit⟩ := digits.exists_cons
  rw [text] at takes drops ⊢
  rw [List.cons_append] at takes drops ⊢
  rw [scanFraction, if_pos digit, takes, drops,
    finishDecimal_append _ exponent ended]

theorem scanUnsigned_append (numeral : Numeral) (ended : Ended rest) :
    scanUnsigned numeral.negative (numeral.whole.text ++ numeral.tail ++ rest) =
      numeral.reading.map (·, rest) := by
  have stops := numeral.noDigit_tail ended
  have takes := numeral.whole.takeWhile_append stops
  have drops := numeral.whole.dropWhile_append stops
  obtain ⟨c, more, text, digit⟩ := numeral.whole.exists_cons
  have noZero := numeral.noZero_append text stops
  rw [List.append_assoc]
  rw [text, List.cons_append] at takes drops ⊢
  rw [scanUnsigned, digit, noZero, takes, drops, ← text, Numeral.tail,
    List.append_assoc]
  simp only [Bool.not_true, Bool.false_eq_true, if_false]
  rw [Numeral.reading]
  cases fraction : numeral.fraction with
  | some digits =>
      have other : ¬ numeral.IsWhole := by
        simp [Numeral.IsWhole, Numeral.tail, fraction]
      rw [if_neg other, Numeral.parts, fraction]
      simp only [Option.elim_some, List.cons_append]
      rw [scanFraction_append _ digits numeral.exponent ended]
  | none =>
      have finish := finishDecimal_append
        ⟨numeral.negative, (takeDigits 0 numeral.whole.text).1,
          (numeral.whole.text.length -
            (takeDigits 0 numeral.whole.text).2 : Nat)⟩
        numeral.exponent ended
      have shifted : numeral.parts = ⟨numeral.negative,
          (takeDigits 0 numeral.whole.text).1,
          (numeral.whole.text.length -
            (takeDigits 0 numeral.whole.text).2 : Nat) +
              numeral.exponent.elim 0 Exponent.value⟩ := by
        simp [Numeral.parts, fraction, takeDigits]
      rw [shifted]
      cases power : numeral.exponent with
      | some exponent =>
          have other : ¬ numeral.IsWhole := by
            simp [Numeral.IsWhole, Numeral.tail, power, Exponent.text]
          rw [power] at finish
          rw [if_neg other]
          simp only [Option.elim_none, Option.elim_some, List.nil_append,
            Exponent.text, List.cons_append] at finish ⊢
          rcases exponent.isLetter with letter | letter <;>
            simp only [letter] at finish ⊢ <;> exact finish
      | none =>
          have whole : numeral.IsWhole ↔ (takeDigits 0 numeral.whole.text).2 =
              numeral.whole.text.length := by
            simp [Numeral.IsWhole, Numeral.tail, fraction, power]
          simp only [Option.elim_none, List.nil_append, add_zero, whole]
          split
          next => exact absurd rfl (ended _ rfl).2.1
          next => exact absurd rfl (ended _ rfl).2.2.1
          next => exact absurd rfl (ended _ rfl).2.2.2
          next => split <;> rfl

/-- A numeral is read up to its end, and what follows makes no difference. -/
theorem scanNumber_append (numeral : Numeral) (ended : Ended rest) :
    scanNumber (numeral.text ++ rest) = numeral.reading.map (·, rest) := by
  have reads := scanUnsigned_append numeral ended
  rw [Numeral.text]
  cases negative : numeral.negative with
  | true =>
      rw [negative] at reads
      exact reads
  | false =>
      obtain ⟨c, more, begins, digit⟩ := numeral.whole.exists_cons
      have noMinus : c ≠ '-' := ne_of_isDigit digit (by decide)
      simp only [negative, begins, List.cons_append] at reads ⊢
      unfold scanNumber
      split
      next same => exact absurd (List.cons.inj same).1 noMinus
      next => exact reads

theorem exists_digits {c : Char} (digit : isDigit c = true)
    (more : List Char) :
    ∃ digits : Digits, digits.text = (c :: more).takeWhile isDigit ∧
      c :: more = digits.text ++ (c :: more).dropWhile isDigit := by
  refine ⟨⟨(c :: more).takeWhile isDigit, ?_, fun d member =>
    List.mem_takeWhile_imp member⟩, rfl, List.takeWhile_append_dropWhile.symm⟩
  rw [List.takeWhile_cons_of_pos digit]
  exact List.cons_ne_nil _ _

theorem exists_sign_of_scanExponent {text : List Char} {size : ℤ}
    (reads : scanExponent text = .ok (size, rest)) :
    ∃ sign, ∃ digits : Digits, (sign = [] ∨ sign = ['+'] ∨ sign = ['-']) ∧
      text = sign ++ digits.text ++ rest := by
  unfold scanExponent at reads
  split at reads
  next negative after signed =>
    have cut : ∃ sign, (sign = [] ∨ sign = ['+'] ∨ sign = ['-']) ∧
        text = sign ++ after := by
      split at signed <;> obtain ⟨_, rfl⟩ := Prod.mk.inj signed
      · exact ⟨['+'], Or.inr (Or.inl rfl), rfl⟩
      · exact ⟨['-'], Or.inr (Or.inr rfl), rfl⟩
      · exact ⟨[], Or.inl rfl, rfl⟩
    obtain ⟨sign, isSign, rfl⟩ := cut
    dsimp only at reads
    split at reads
    next => cases reads
    next c more =>
      split at reads
      next digit =>
        obtain ⟨digits, _, whole⟩ := exists_digits digit more
        obtain ⟨_, rfl⟩ := Prod.mk.inj (Except.ok.inj reads)
        exact ⟨sign, digits, isSign, by rw [List.append_assoc, ← whole]⟩
      next => cases reads

variable {text : List Char} {value : Json} {parts : DecimalParts}

theorem eq_of_map_eq_ok {result : Except Malformed Json}
    {later : List Char} (mapped : result.map (·, later) = .ok (value, rest)) :
    later = rest := by
  cases result with
  | error malformed => cases mapped
  | ok found => exact (Prod.mk.inj (Except.ok.inj mapped)).2

theorem exists_power_of_finishDecimal
    (reads : finishDecimal parts text = .ok (value, rest)) :
    ∃ power : Option Exponent, text = power.elim [] Exponent.text ++ rest := by
  have power {letter : Char} {after : List Char}
      (isLetter : letter = 'e' ∨ letter = 'E')
      {size : ℤ} {later : List Char}
      (reads : scanExponent after = .ok (size, later)) :
      ∃ power : Option Exponent,
        letter :: after = power.elim [] Exponent.text ++ later := by
    obtain ⟨sign, digits, isSign, rfl⟩ := exists_sign_of_scanExponent reads
    exact ⟨some ⟨letter, sign, digits, isLetter, isSign⟩, rfl⟩
  unfold finishDecimal at reads
  split at reads
  next after =>
    split at reads
    next => cases reads
    next size later scanned =>
      obtain rfl := eq_of_map_eq_ok reads
      exact power (Or.inl rfl) scanned
  next after =>
    split at reads
    next => cases reads
    next size later scanned =>
      obtain rfl := eq_of_map_eq_ok reads
      exact power (Or.inr rfl) scanned
  next =>
    obtain rfl := eq_of_map_eq_ok reads
    exact ⟨none, rfl⟩

theorem exists_fraction_of_scanFraction
    (reads : scanFraction parts text = .ok (value, rest)) :
    ∃ digits : Digits, ∃ power : Option Exponent,
      text = digits.text ++ (power.elim [] Exponent.text ++ rest) := by
  unfold scanFraction at reads
  split at reads
  next => cases reads
  next c more =>
    split at reads
    next digit =>
      obtain ⟨digits, _, whole⟩ := exists_digits digit more
      obtain ⟨power, after⟩ := exists_power_of_finishDecimal reads
      exact ⟨digits, power, by rw [← after, ← whole]⟩
    next => cases reads

/-- The first digits of a text are those of a numeral unless a zero has other
digits behind it. -/
theorem unpadded_takeWhile {c : Char} {after : List Char}
    (unpadded : ¬ (c = '0' && after.head?.any isDigit) = true)
    (zero : ((c :: after).takeWhile isDigit).head? = some '0') :
    (c :: after).takeWhile isDigit = ['0'] := by
  have first : c = '0' := by
    by_cases digit : isDigit c = true
    · rw [List.takeWhile_cons_of_pos digit] at zero
      exact Option.some.inj zero
    · rw [List.takeWhile_cons_of_neg digit] at zero
      cases zero
  subst first
  have alone : after.takeWhile isDigit = [] := by
    cases after with
    | nil => rfl
    | cons d more =>
        apply List.takeWhile_cons_of_neg
        simpa using unpadded
  rw [List.takeWhile_cons_of_pos (by decide), alone]

theorem exists_numeral_of_scanUnsigned {negative : Bool}
    (reads : scanUnsigned negative text = .ok (value, rest)) :
    ∃ numeral : Numeral, numeral.negative = negative ∧
      text = numeral.whole.text ++ numeral.tail ++ rest := by
  unfold scanUnsigned at reads
  split at reads
  next => cases reads
  next c after =>
    split at reads
    next => cases reads
    next noDigit =>
      split at reads
      next => cases reads
      next unpadded =>
        have digit : isDigit c = true := by simpa using noDigit
        obtain ⟨whole, shown, cut⟩ := exists_digits digit after
        have finish (fraction : Option Digits) (power : Option Exponent)
            (behind : (c :: after).dropWhile isDigit =
              (fraction.elim [] fun digits => '.' :: digits.text) ++
                (power.elim [] Exponent.text ++ rest)) :
            ∃ numeral : Numeral, numeral.negative = negative ∧
              c :: after = numeral.whole.text ++ numeral.tail ++ rest := by
          have front : whole.text.head? = some '0' → whole.text = ['0'] := by
            rw [shown]
            exact unpadded_takeWhile unpadded
          refine ⟨⟨negative, whole, fraction, power, front⟩, rfl,
            cut.trans ?_⟩
          rw [behind, Numeral.tail, List.append_assoc, List.append_assoc]
        dsimp only at reads
        split at reads
        next fraction behind =>
          obtain ⟨digits, power, rfl⟩ := exists_fraction_of_scanFraction reads
          exact finish (some digits) power behind
        next later behind =>
          obtain ⟨power, shape⟩ := exists_power_of_finishDecimal reads
          exact finish none power shape
        next later behind =>
          obtain ⟨power, shape⟩ := exists_power_of_finishDecimal reads
          exact finish none power shape
        next =>
          have ends : (c :: after).dropWhile isDigit = rest := by
            split at reads
            · exact eq_of_map_eq_ok reads
            · exact eq_of_map_eq_ok reads
          exact finish none none ends

/-- Nothing but a numeral is read as a number. -/
theorem exists_numeral_of_scanNumber
    (reads : scanNumber text = .ok (value, rest)) :
    ∃ numeral : Numeral, text = numeral.text ++ rest := by
  unfold scanNumber at reads
  split at reads
  next after =>
    obtain ⟨numeral, negative, rfl⟩ := exists_numeral_of_scanUnsigned reads
    exact ⟨numeral, by simp [Numeral.text, negative]⟩
  next =>
    obtain ⟨numeral, negative, rfl⟩ := exists_numeral_of_scanUnsigned reads
    exact ⟨numeral, by simp [Numeral.text, negative]⟩

end Reading

namespace Numeral

variable {numeral : Numeral}

theorem float_of_toJson {parts : DecimalParts} {value : Json}
    (reads : parts.toJson = .ok value) : ∃ x, value = .float x := by
  unfold DecimalParts.toJson at reads
  split at reads
  next x _ => exact ⟨x, (Except.ok.inj reads).symm⟩
  next => cases reads

theorem toJson_ne_int {parts : DecimalParts} {n : ℤ} :
    parts.toJson ≠ .ok (.int n) := by
  intro same
  obtain ⟨x, float⟩ := float_of_toJson same
  cases float

theorem reading_cases {value : Json} (reads : numeral.reading = .ok value) :
    (∃ n, value = .int n) ∨ ∃ x, value = .float x := by
  unfold reading at reads
  split at reads
  next =>
    unfold wholeNumber at reads
    split at reads
    · split at reads
      · exact Or.inl ⟨_, (Except.ok.inj reads).symm⟩
      · exact Or.inr (float_of_toJson reads)
    · exact Or.inl ⟨_, (Except.ok.inj reads).symm⟩
  next => exact Or.inr (float_of_toJson reads)

theorem toJson_cases (numeral : Numeral) :
    (∃ n, numeral.toJson = .int n) ∨ ∃ x, numeral.toJson = .float x := by
  cases reads : numeral.reading with
  | ok value =>
      rw [toJson, reads]
      exact reading_cases reads
  | error malformed =>
      rw [toJson, reads]
      exact Or.inl ⟨0, rfl⟩

theorem IsWhole.significand_eq (whole : numeral.IsWhole) :
    numeral.parts.significand = numeral.whole.value := by
  rw [parts, (parts_of_tail whole.1).1]
  exact takeDigits_of_length whole.2

theorem isWhole_of_tail (none : numeral.tail = [])
    (fits : numeral.whole.value < wordSize) : numeral.IsWhole := by
  have takes : takeDigits 0 numeral.whole.text =
      (numeral.whole.value, numeral.whole.text.length) :=
    takeDigits_of_lt fits
  exact ⟨none, by rw [takes]⟩

/-- A whole number has the value that it is read as. -/
theorem value_of_reading {n : ℤ} (reads : numeral.reading = .ok (.int n)) :
    numeral.value = n := by
  rw [reading] at reads
  split at reads
  next whole =>
    rw [whole.significand_eq, wholeNumber] at reads
    rw [value_of_tail whole.1]
    split at reads
    next negative =>
      split at reads
      next =>
        rw [← Json.int.inj (Except.ok.inj reads), negative]
        simp
      next => exact absurd reads toJson_ne_int
    next positive =>
      rw [← Json.int.inj (Except.ok.inj reads), Bool.eq_false_iff.2 positive]
      simp
  next => exact absurd reads toJson_ne_int

/-- Digits alone are read as the number that they write. -/
theorem reading_of_plain (plain : ∀ c ∈ numeral.text, isDigit c = true)
    (fits : numeral.whole.value < wordSize) :
    numeral.reading = .ok (.int numeral.whole.value) := by
  obtain ⟨unsigned, none⟩ := numeral.all_isDigit_iff.1 plain
  have whole := isWhole_of_tail none fits
  rw [reading, if_pos whole, unsigned, whole.significand_eq]
  rfl

/-- A numeral with more than digits is not read as a number to count with. -/
theorem reading_of_not_plain
    (other : ¬ ∀ c ∈ numeral.text, isDigit c = true) (n : Nat) :
    numeral.reading ≠ .ok (.int n) := by
  intro reads
  unfold reading at reads
  split at reads
  next whole =>
    rw [all_isDigit_iff] at other
    have negative : numeral.negative = true := by
      by_contra unsigned
      exact other ⟨Bool.eq_false_iff.2 unsigned, whole.1⟩
    rw [negative, wholeNumber, if_pos rfl] at reads
    split at reads
    next fits =>
      have below := Json.int.inj (Except.ok.inj reads)
      omega
    next => exact absurd reads toJson_ne_int
  next => exact absurd reads toJson_ne_int

end Numeral

end Json

end KeyCustody
