import KeyCustody.Text.Utf8

/-!
# Reading back UTF-8

Strict reading gives back every text from its bytes, so a text is determined by
its bytes.  A character is told by the length of its sequence: the bounds on
the second byte leave out exactly what shorter sequences and surrogates would
write.
-/

namespace KeyCustody

namespace Text

theorem toNat_ofNat_byte {n : Nat} (small : n < 256) :
    (UInt8.ofNat n).toNat = n := by
  rw [UInt8.toNat_ofNat', Nat.mod_eq_of_lt small]

namespace LeadByte

theorem ofByte_whole {n : Nat} (high : n < 0x80) :
    ofByte (UInt8.ofNat n) = .whole (Char.ofNat n) := by
  rw [ofByte, toNat_ofNat_byte (by omega), if_pos high]

theorem ofByte_two {bits : Nat} (low : 2 ≤ bits) (high : bits < 32) :
    ofByte (UInt8.ofNat (bits + 0xC0)) = .starts { missing := 1, bits } := by
  rw [ofByte, toNat_ofNat_byte (by omega), if_neg (by omega),
    if_neg (by omega), if_pos (by omega), Nat.add_sub_cancel]

theorem ofByte_three {bits : Nat} (high : bits < 16) :
    ofByte (UInt8.ofNat (bits + 0xE0)) = .starts {
      missing := 2
      bits
      least := if bits = 0 then 0xA0 else 0x80
      greatest := if bits = 13 then 0x9F else 0xBF } := by
  have all : ∀ bits ∈ List.range 16,
      ofByte (UInt8.ofNat (bits + 0xE0)) = .starts {
        missing := 2
        bits
        least := if bits = 0 then 0xA0 else 0x80
        greatest := if bits = 13 then 0x9F else 0xBF } := by
    decide
  exact all bits (List.mem_range.2 high)

theorem ofByte_four {bits : Nat} (high : bits ≤ 4) :
    ofByte (UInt8.ofNat (bits + 0xF0)) = .starts {
      missing := 3
      bits
      least := if bits = 0 then 0x90 else 0x80
      greatest := if bits = 4 then 0x8F else 0xBF } := by
  have all : ∀ bits ∈ List.range 5,
      ofByte (UInt8.ofNat (bits + 0xF0)) = .starts {
        missing := 3
        bits
        least := if bits = 0 then 0x90 else 0x80
        greatest := if bits = 4 then 0x8F else 0xBF } := by
    decide
  exact all bits (List.mem_range.2 (by omega))

end LeadByte

theorem utf8Pieces_starts {b : UInt8} {pending : PartialChar}
    (starts : LeadByte.ofByte b = .starts pending) (rest : List UInt8) :
    utf8Pieces none (b :: rest) = utf8Pieces (some pending) rest := by
  rw [utf8Pieces, starts]

section Continuing

variable {bits more : Nat} {least greatest : UInt8}
variable (low : least.toNat ≤ more + 0x80) (high : more + 0x80 ≤ greatest.toNat)
variable (rest : List UInt8)
include low high

theorem within_bounds :
    (UInt8.ofNat (more + 0x80)).toNat = more + 0x80 ∧
    (least ≤ UInt8.ofNat (more + 0x80) &&
      UInt8.ofNat (more + 0x80) ≤ greatest) = true := by
  have value : (UInt8.ofNat (more + 0x80)).toNat = more + 0x80 :=
    toNat_ofNat_byte (Nat.lt_of_le_of_lt high greatest.toNat_lt_size)
  refine ⟨value, ?_⟩
  rw [Bool.and_eq_true, decide_eq_true_iff, decide_eq_true_iff,
    UInt8.le_iff_toNat_le, UInt8.le_iff_toNat_le, value]
  exact ⟨low, high⟩

theorem utf8Pieces_continues (missing : Nat) :
    utf8Pieces (some { missing := missing + 2, bits, least, greatest })
        (UInt8.ofNat (more + 0x80) :: rest) =
      utf8Pieces (some { missing := missing + 1, bits := bits * 64 + more })
        rest := by
  obtain ⟨value, within⟩ := within_bounds low high
  rw [utf8Pieces, if_pos within, value, Nat.add_sub_cancel]
  rfl

theorem utf8Pieces_ends :
    utf8Pieces (some { missing := 1, bits, least, greatest })
        (UInt8.ofNat (more + 0x80) :: rest) =
      some (Char.ofNat (bits * 64 + more)) :: utf8Pieces none rest := by
  obtain ⟨value, within⟩ := within_bounds low high
  rw [utf8Pieces, if_pos within, value, Nat.add_sub_cancel]
  rfl

end Continuing

theorem utf8Pieces_encodeChar (c : Char) (rest : List UInt8) :
    utf8Pieces none (String.utf8EncodeChar c ++ rest) =
      some c :: utf8Pieces none rest := by
  have valid : c.val.toNat < 0xD800 ∨
      0xDFFF < c.val.toNat ∧ c.val.toNat < 0x110000 :=
    c.valid
  have same : Char.ofNat c.val.toNat = c := Char.ofNat_toNat c
  unfold String.utf8EncodeChar
  generalize c.val.toNat = n at valid same
  subst same
  dsimp only
  split
  next one =>
    rw [List.singleton_append, utf8Pieces, LeadByte.ofByte_whole (by omega)]
  split
  next two =>
    have whole : n / 64 % 32 * 64 + n % 64 = n := by omega
    simp only [List.cons_append, List.nil_append]
    rw [utf8Pieces_starts (LeadByte.ofByte_two (by omega) (by omega)),
      utf8Pieces_ends (by simp) (by simp; omega), whole]
  split
  next three =>
    have whole : (n / 4096 % 16 * 64 + n / 64 % 64) * 64 + n % 64 = n := by
      omega
    simp only [List.cons_append, List.nil_append]
    rw [utf8Pieces_starts (LeadByte.ofByte_three (by omega)),
      utf8Pieces_continues (by split <;> simp; omega)
        (by split <;> simp <;> omega),
      utf8Pieces_ends (by simp) (by simp; omega), whole]
  next four =>
    have whole : ((n / 262144 % 8 * 64 + n / 4096 % 64) * 64 +
        n / 64 % 64) * 64 + n % 64 = n := by
      omega
    simp only [List.cons_append, List.nil_append]
    rw [utf8Pieces_starts (LeadByte.ofByte_four (by omega)),
      utf8Pieces_continues (by split <;> simp; omega)
        (by split <;> simp <;> omega),
      utf8Pieces_continues (by simp) (by simp; omega),
      utf8Pieces_ends (by simp) (by simp; omega), whole]

theorem utf8Pieces_utf8Bytes (text : List Char) :
    utf8Pieces none (utf8Bytes text) = text.map some := by
  induction text with
  | nil => rfl
  | cons c rest ih =>
      rw [utf8Bytes, List.flatMap_cons, utf8Pieces_encodeChar]
      exact congrArg _ ih

/-- Strict reading gives back a text from its bytes. -/
theorem utf8Chars?_utf8Bytes (text : List Char) :
    utf8Chars? (utf8Bytes text) = some text := by
  rw [utf8Chars?, utf8Pieces_utf8Bytes]
  induction text with
  | nil => rfl
  | cons c rest ih => simp [ih]

/-- Forgiving reading gives back a text from its bytes as well. -/
theorem utf8Chars_utf8Bytes (text : List Char) :
    utf8Chars (utf8Bytes text) = text := by
  rw [utf8Chars, utf8Pieces_utf8Bytes, List.map_map]
  exact List.map_id text

theorem utf8Bytes_append (front back : List Char) :
    utf8Bytes (front ++ back) = utf8Bytes front ++ utf8Bytes back :=
  List.flatMap_append

theorem toUTF8_eq (text : String) :
    text.toUTF8.data.toList = utf8Bytes text.toList := by
  rw [← String.ofList_toList (s := text), String.toUTF8,
    String.toByteArray_ofList, String.toList_ofList]
  simp [List.utf8Encode, utf8Bytes]

theorem utf8ByteSize_eq (text : String) :
    text.utf8ByteSize = (utf8Bytes text.toList).length := by
  rw [← toUTF8_eq]
  rfl

/-- The byte of a line feed stands for nothing else. -/
theorem eq_of_mem_utf8EncodeChar {c : Char}
    (member : 10 ∈ String.utf8EncodeChar c) : c = '\n' := by
  have same : Char.ofNat c.val.toNat = c := Char.ofNat_toNat c
  unfold String.utf8EncodeChar at member
  generalize c.val.toNat = n at member same
  have value : n = 10 := by
    dsimp only at member
    repeat' split at member
    all_goals
      simp only [List.mem_cons, List.not_mem_nil, or_false,
        ← UInt8.toNat_inj, UInt8.toNat_ofNat', UInt8.reduceToNat] at member
      omega
  rw [← same, value]

theorem lineFeed_not_mem {text : List Char} (absent : '\n' ∉ text) :
    10 ∉ utf8Bytes text := by
  intro member
  obtain ⟨c, inside, byte⟩ := List.mem_flatMap.1 member
  obtain rfl := eq_of_mem_utf8EncodeChar byte
  exact absent inside

end Text

end KeyCustody
