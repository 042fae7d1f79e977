import KeyCustody.Http.Url
import KeyCustody.Proofs.Text.Slashes
import KeyCustody.Proofs.Text.Utf8

/-!
# Reading back percent encoding

Percent decoding gives back the bytes of a segment that was encoded, and strict
reading its characters.  An encoded segment shows only ASCII letters, digits
and five marks, so that it is told apart from anything a url gives a meaning to
but the dots: these stand for themselves.
-/

namespace KeyCustody

namespace Text

open Http.Url

/-- The characters that an encoded segment is made of. -/
def isShown (c : Char) : Bool :=
  c == '%' || (c.toNat < 0x80 && isUnreserved (.ofNat c.toNat))

theorem hexValue?_upperHexDigit {n : Nat} (small : n < 16) :
    hexValue? (upperHexDigit n) = some n := by
  have all : ∀ n ∈ List.range 16, hexValue? (upperHexDigit n) = some n := by
    decide
  exact all n (List.mem_range.2 small)

theorem isShown_upperHexDigit {n : Nat} (small : n < 16) :
    isShown (upperHexDigit n) = true := by
  have all : ∀ n ∈ List.range 16, isShown (upperHexDigit n) = true := by
    decide
  exact all n (List.mem_range.2 small)

theorem lt_of_isUnreserved {b : UInt8} (unreserved : isUnreserved b = true) :
    b.toNat < 0x7F := by
  simp only [isUnreserved, Bool.or_eq_true, Bool.and_eq_true,
    decide_eq_true_iff, beq_iff_eq] at unreserved
  omega

theorem toNat_ofNat_unreserved {b : UInt8}
    (unreserved : isUnreserved b = true) :
    (Char.ofNat b.toNat).toNat = b.toNat := by
  have small := lt_of_isUnreserved unreserved
  have valid : b.toNat.isValidChar := Or.inl (by omega)
  rw [Char.ofNat, dif_pos valid]
  rfl

theorem isShown_of_mem_encodeByte {b : UInt8} {c : Char}
    (member : c ∈ encodeByte b) : isShown c = true := by
  have byte : b.toNat < 0x100 := b.toNat_lt_size
  unfold encodeByte at member
  split at member
  next unreserved =>
    rw [List.mem_singleton] at member
    subst member
    have small := lt_of_isUnreserved unreserved
    rw [isShown, toNat_ofNat_unreserved unreserved, UInt8.ofNat_toNat,
      unreserved]
    simp
    omega
  · simp only [percentByte, List.mem_cons, List.not_mem_nil, or_false] at member
    rcases member with rfl | rfl | rfl
    · rfl
    · exact isShown_upperHexDigit (by omega)
    · exact isShown_upperHexDigit (by omega)

theorem percentDecoded_cons {c : Char} (plain : c ≠ '%') (rest : List Char) :
    percentDecoded (c :: rest) =
      String.utf8EncodeChar c ++ percentDecoded rest := by
  rw [percentDecoded]
  intro _ _ _ percent
  exact absurd percent plain

theorem percentDecoded_encodeByte (b : UInt8) (rest : List Char) :
    percentDecoded (encodeByte b ++ rest) = b :: percentDecoded rest := by
  have byte : b.toNat < 0x100 := b.toNat_lt_size
  unfold encodeByte
  split
  next unreserved =>
    have small := lt_of_isUnreserved unreserved
    have same := toNat_ofNat_unreserved unreserved
    have plain : Char.ofNat b.toNat ≠ '%' := by
      intro percent
      rw [percent] at same
      have percentSign : b = 0x25 := UInt8.toNat_inj.1 same.symm
      subst percentSign
      exact absurd unreserved (by decide)
    have encoded : String.utf8EncodeChar (Char.ofNat b.toNat) = [b] := by
      unfold String.utf8EncodeChar
      change (if (Char.ofNat b.toNat).toNat ≤ 127 then _ else _) = _
      rw [if_pos (by omega)]
      change [UInt8.ofNat (Char.ofNat b.toNat).toNat] = _
      rw [same, UInt8.ofNat_toNat]
    rw [List.singleton_append, percentDecoded_cons plain, encoded]
    rfl
  · have whole : b.toNat / 16 * 16 + b.toNat % 16 = b.toNat := by omega
    simp only [percentByte, List.cons_append, List.nil_append]
    rw [percentDecoded, hexValue?_upperHexDigit (by omega),
      hexValue?_upperHexDigit (by omega)]
    dsimp only
    rw [whole, UInt8.ofNat_toNat]

/-- Decoding gives back the bytes of a segment that was encoded. -/
theorem percentDecoded_encodeSegment (segment : List Char) :
    percentDecoded (encodeSegment segment) = utf8Bytes segment := by
  unfold encodeSegment
  induction utf8Bytes segment with
  | nil => rfl
  | cons b rest ih =>
      rw [List.flatMap_cons, percentDecoded_encodeByte, ih]

/-- The segment that an encoded segment stands for, if it stands for one. -/
def decodeSegment? (encoded : List Char) : Option (List Char) :=
  utf8Chars? (percentDecoded encoded)

theorem decodeSegment?_encodeSegment (segment : List Char) :
    decodeSegment? (encodeSegment segment) = some segment := by
  rw [decodeSegment?, percentDecoded_encodeSegment, utf8Chars?_utf8Bytes]

theorem isShown_of_mem_encodeSegment {segment : List Char} {c : Char}
    (member : c ∈ encodeSegment segment) : isShown c = true := by
  obtain ⟨b, _, inside⟩ := List.mem_flatMap.1 member
  exact isShown_of_mem_encodeByte inside

/-- A segment that reads as dots in a url stands for dots. -/
theorem percentDecoded_plainDots (segment : List Char) :
    percentDecoded (plainDots segment) = percentDecoded segment := by
  fun_induction plainDots segment with
  | case1 e rest small ih =>
      have escaped : percentDecoded ('%' :: '2' :: e :: rest) =
          0x2E :: percentDecoded rest := by
        rw [Bool.or_eq_true, decide_eq_true_iff, decide_eq_true_iff] at small
        rcases small with rfl | rfl <;> rfl
      rw [percentDecoded_cons (by decide), ih, escaped]
      rfl
  | case2 e rest small => rfl
  | case3 rest ih =>
      rw [percentDecoded_cons (by decide), percentDecoded_cons (by decide), ih]
  | case4 text _ _ => rfl

theorem isShown_ne_slash {c : Char} (shown : isShown c = true) :
    (c == '/') = false := by
  rw [beq_eq_false_iff_ne]
  rintro rfl
  exact absurd shown (by decide)

theorem segments_encodeName (name : String) :
    segments (· == '/') (encodeName name).toList =
      (segments (· == '/') name.toList).map encodeSegment := by
  rw [encodeName, String.toList_ofList, segments_joinSegments]
  · rw [Ne, List.map_eq_nil_iff]
    exact segments_ne_nil _ _
  · intro piece member c inside
    obtain ⟨segment, _, rfl⟩ := List.mem_map.1 member
    exact isShown_ne_slash (isShown_of_mem_encodeSegment inside)

theorem encodeName_append (front back : String) :
    encodeName (front ++ "/" ++ back) =
      encodeName front ++ "/" ++ encodeName back := by
  apply String.toList_injective
  rw [encodeName, segments_append_slash, List.map_append, joinSegments_append]
  · simp [encodeName]
  · simp [segments_ne_nil]
  · simp [segments_ne_nil]

theorem of_mem_encodeName {name : String} {c : Char}
    (member : c ∈ (encodeName name).toList) : c = '/' ∨ isShown c = true := by
  rw [encodeName, String.toList_ofList] at member
  rcases mem_joinSegments member with slash | ⟨piece, inside, shows⟩
  · exact Or.inl slash
  · obtain ⟨segment, _, rfl⟩ := List.mem_map.1 inside
    exact Or.inr (isShown_of_mem_encodeSegment shows)

/-- An encoded name stands for a name: its segments decode to the segments of
the name. -/
def StandsFor (encoded name : String) : Prop :=
  (segments (· == '/') encoded.toList).map decodeSegment? =
    (segments (· == '/') name.toList).map some

theorem encodeName_standsFor (name : String) :
    StandsFor (encodeName name) name := by
  rw [StandsFor, segments_encodeName, List.map_map]
  exact List.map_congr_left fun segment _ =>
    decodeSegment?_encodeSegment segment

theorem standsFor_append {front back frontName backName : String}
    (first : StandsFor front frontName) (second : StandsFor back backName) :
    StandsFor (front ++ "/" ++ back) (frontName ++ "/" ++ backName) := by
  rw [StandsFor, segments_append_slash, segments_append_slash,
    List.map_append, List.map_append, first, second]

end Text

end KeyCustody
