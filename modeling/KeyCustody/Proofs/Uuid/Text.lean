import KeyCustody.Json.Printer
import KeyCustody.Uuid
import KeyCustody.Proofs.Text.Slashes
import Mathlib.Algebra.Order.Ring.Nat
import Mathlib.Data.List.Basic

/-!
# The text of an identifier

The text of an identifier determines the identifier: without its hyphens it is
the 32 hexadecimal digits of the number, and each digit tells four bits.  It has
no slashes, so that as a path it is already in the form in which the store
compares paths.
-/

namespace KeyCustody

namespace Uuid

open Text

theorem digitChar_injective {first second : Nat} (firstSmall : first < 16)
    (secondSmall : second < 16)
    (same : Nat.digitChar first = Nat.digitChar second) : first = second := by
  have all : ∀ a ∈ List.range 16, ∀ b ∈ List.range 16,
      Nat.digitChar a = Nat.digitChar b → a = b := by
    decide
  exact all first (List.mem_range.2 firstSmall) second
    (List.mem_range.2 secondSmall) same

theorem digitChar_plain {value : Nat} (small : value < 16) :
    Nat.digitChar value ≠ '-' ∧ Nat.digitChar value ≠ '/' := by
  have all : ∀ a ∈ List.range 16,
      Nat.digitChar a ≠ '-' ∧ Nat.digitChar a ≠ '/' := by
    decide
  exact all value (List.mem_range.2 small)

theorem plain_of_mem_fixedHexDigits {count n : Nat} {c : Char}
    (member : c ∈ fixedHexDigits count n) : c ≠ '-' ∧ c ≠ '/' := by
  obtain ⟨place, _, rfl⟩ := List.mem_map.1 member
  exact digitChar_plain (Nat.mod_lt _ (by decide))

/-- The digits of a number tell its bits. -/
theorem testBit_eq_of_fixedHexDigits {count first second : Nat}
    (same : fixedHexDigits count first = fixedHexDigits count second)
    {position : Nat} (inside : position < 4 * count) :
    first.testBit position = second.testBit position := by
  -- Bit `position` is bit `position % 4` of digit `position / 4`.
  have place : position / 4 ∈ (List.range count).reverse := by
    rw [List.mem_reverse, List.mem_range]
    omega
  have digit := List.map_inj_left.1 same (position / 4) place
  have four : first >>> (4 * (position / 4)) % 2 ^ 4 =
      second >>> (4 * (position / 4)) % 2 ^ 4 :=
    digitChar_injective (Nat.mod_lt _ (by decide)) (Nat.mod_lt _ (by decide))
      digit
  have bit := congrArg (fun n => n.testBit (position % 4)) four
  have small : position % 4 < 4 := Nat.mod_lt _ (by decide)
  have whole : 4 * (position / 4) + position % 4 = position :=
    Nat.div_add_mod position 4
  rw [Nat.testBit_mod_two_pow, Nat.testBit_mod_two_pow,
    Nat.testBit_shiftRight, Nat.testBit_shiftRight, whole] at bit
  simpa [small] using bit

theorem fixedHexDigits_injective {count first second : Nat}
    (firstFits : first < 2 ^ (4 * count))
    (secondFits : second < 2 ^ (4 * count))
    (same : fixedHexDigits count first = fixedHexDigits count second) :
    first = second := by
  apply Nat.eq_of_testBit_eq
  intro position
  rcases Nat.lt_or_ge position (4 * count) with inside | beyond
  · exact testBit_eq_of_fixedHexDigits same inside
  · have wide : 2 ^ (4 * count) ≤ 2 ^ position :=
      Nat.pow_le_pow_right (by decide) beyond
    rw [Nat.testBit_lt_two_pow (by omega), Nat.testBit_lt_two_pow (by omega)]

/-- Without its hyphens the text of an identifier is its digits. -/
theorem filter_toChars (id : Uuid) :
    id.toChars.filter (· ≠ '-') = fixedHexDigits 32 id.bits.toNat := by
  have plain : ∀ c ∈ fixedHexDigits 32 id.bits.toNat, c ≠ '-' :=
    fun c member => (plain_of_mem_fixedHexDigits member).1
  unfold toChars
  dsimp only
  generalize fixedHexDigits 32 id.bits.toNat = digits at plain ⊢
  have piece {part : List Char} (within : part ⊆ digits) :
      part.filter (· ≠ '-') = part :=
    List.filter_eq_self.2 fun c member => by
      simpa using plain c (within member)
  have middle (start count : Nat) : (digits.drop start).take count ⊆ digits :=
    fun _ member => List.mem_of_mem_drop (List.mem_of_mem_take member)
  have next (start count : Nat) : (digits.drop start).take count ++
      digits.drop (start + count) = digits.drop start := by
    rw [← List.drop_drop, List.take_append_drop]
  have hyphen (part : List Char) :
      ('-' :: part).filter (· ≠ '-') = part.filter (· ≠ '-') :=
    List.filter_cons_of_neg (by decide)
  simp only [List.filter_append, hyphen]
  rw [piece (List.take_subset 8 digits), piece (middle 8 4),
    piece (middle 12 4), piece (middle 16 4),
    piece (List.drop_subset 20 digits)]
  rw [List.append_assoc, List.append_assoc, List.append_assoc]
  rw [next 16 4, next 12 4, next 8 4, List.take_append_drop]

theorem eq_or_mem_of_mem_toChars {id : Uuid} {c : Char}
    (member : c ∈ id.toChars) :
    c = '-' ∨ c ∈ fixedHexDigits 32 id.bits.toNat := by
  simp only [toChars, List.mem_append, List.mem_cons] at member
  rcases member with (((early | here) | here) | here) | here
  · exact Or.inr (List.mem_of_mem_take early)
  all_goals rcases here with hyphen | further
  all_goals first
    | exact Or.inl hyphen
    | exact Or.inr (List.mem_of_mem_drop (List.mem_of_mem_take further))
    | exact Or.inr (List.mem_of_mem_drop further)

theorem slashless_toChars (id : Uuid) : ∀ c ∈ id.toChars, isSlash c = false := by
  intro c member
  rcases eq_or_mem_of_mem_toChars member with rfl | digit
  · rfl
  · simpa [isSlash] using (plain_of_mem_fixedHexDigits digit).2

theorem escapeChar_of_mem_toChars {id : Uuid} {c : Char}
    (member : c ∈ id.toChars) : Json.escapeChar c = [c] := by
  have digits : ∀ value ∈ List.range 16,
      Json.escapeChar (Nat.digitChar value) = [Nat.digitChar value] := by
    decide
  rcases eq_or_mem_of_mem_toChars member with rfl | digit
  · decide
  · obtain ⟨place, _, rfl⟩ := List.mem_map.1 digit
    exact digits _ (List.mem_range.2 (Nat.mod_lt _ (by decide)))

theorem toList_toString (id : Uuid) : id.toString.toList = id.toChars :=
  String.toList_ofList

/-- An identifier is written as a JSON string without escapes. -/
theorem writeString_toString (id : Uuid) :
    Json.writeString id.toString = '"' :: id.toChars ++ ['"'] := by
  have plain : id.toChars.flatMap Json.escapeChar = id.toChars :=
    calc id.toChars.flatMap Json.escapeChar
      _ = id.toChars.flatMap fun c => [c] :=
        List.flatMap_congr fun _ member => escapeChar_of_mem_toChars member
      _ = id.toChars := List.flatMap_singleton' _
  rw [Json.writeString, toList_toString, plain]

theorem ofChars?_hyphen (rest : List Char) : ofChars? ('-' :: rest) = none := by
  have unread : hexValue? '-' = none := by decide
  have digits : ofDigits? ('-' :: rest) = none := by
    rw [ofDigits?]
    split
    · simp [unread]
    · rfl
  have groups : ofGroups? ('-' :: rest) = none := by
    have cut : segments (· == '-') ('-' :: rest) =
        [] :: segments (· == '-') rest := by
      rw [segments, if_pos (by decide)]
    rw [ofGroups?, cut]
    exact if_neg (by simp)
  have words : resourceWords.isPrefixOf ('-' :: rest) = false := by
    have first : resourceWords = 'u' :: resourceWords.tail := by decide
    rw [first, List.isPrefixOf_cons_cons]
    exact congrArg (· && _) (by decide : ('u' == '-') = false)
  unfold ofChars?
  split
  · exact digits
  · split
    next same => simp at same
    next => rw [words, if_neg Bool.false_ne_true, groups]

theorem hyphen_mem_toChars (id : Uuid) : '-' ∈ id.toChars := by
  simp [toChars]

theorem toString_injective : Function.Injective toString := by
  intro first second same
  have chars : first.toChars = second.toChars :=
    String.ofList_injective same
  have digits := congrArg (List.filter (· ≠ '-')) chars
  rw [filter_toChars, filter_toChars] at digits
  have bits := fixedHexDigits_injective first.bits.isLt second.bits.isLt digits
  cases first
  cases second
  exact congrArg Uuid.mk (BitVec.eq_of_toNat_eq bits)

theorem trimSlashes_toString (id : Uuid) :
    trimSlashes id.toString = id.toString := by
  rw [trimSlashes, toString, String.toList_ofList,
    trim_eq_self id.slashless_toChars]

end Uuid

end KeyCustody
