import KeyCustody.Proofs.Text.Percent
import Mathlib.Data.List.Basic

/-!
# Encoded names are faithful

The encoded form of a name is made of slashes, of characters that stand for
themselves, and of bytes written as a percent sign and two upper-case
hexadecimal digits.  Its slashes are those of the name: segment by segment it
decodes to the segments of the name, so no two names share an encoded form.
-/

namespace KeyCustody

namespace Text

def upperHexDigits : List Char := "0123456789ABCDEF".toList

/-- ASCII letters and digits, and four marks. -/
def IsPlainMark (c : Char) : Prop :=
  c.isAlphanum = true ∨ c ∈ ['-', '_', '.', '~']

/-- The texts that percent encoding of slash-delimited names is made of. -/
inductive Encoded : List Char → Prop
  | nil : Encoded []
  | slash {later : List Char} (rest : Encoded later) : Encoded ('/' :: later)
  | plain {c : Char} {later : List Char} (mark : IsPlainMark c)
      (rest : Encoded later) : Encoded (c :: later)
  | escaped {high low : Char} {later : List Char}
      (first : high ∈ upperHexDigits) (second : low ∈ upperHexDigits)
      (rest : Encoded later) : Encoded ('%' :: high :: low :: later)

theorem Encoded.append {front back : List Char} (first : Encoded front)
    (second : Encoded back) : Encoded (front ++ back) := by
  induction first with
  | nil => exact second
  | slash rest ih => exact ih.slash
  | plain mark rest ih => exact ih.plain mark
  | escaped high low rest ih => exact ih.escaped high low

theorem mem_upperHexDigits {n : Nat} (small : n < 16) :
    upperHexDigit n ∈ upperHexDigits := by
  have all : ∀ n ∈ List.range 16, upperHexDigit n ∈ upperHexDigits := by
    decide
  exact all n (List.mem_range.2 small)

theorem isPlainMark_of_isUnreserved {b : UInt8}
    (unreserved : isUnreserved b = true) :
    IsPlainMark (Char.ofNat b.toNat) := by
  have all : ∀ n < 0x7F, isUnreserved (.ofNat n) = true →
      (Char.ofNat n).isAlphanum = true ∨
        Char.ofNat n ∈ ['-', '_', '.', '~'] := by
    decide +kernel
  apply all b.toNat (lt_of_isUnreserved unreserved)
  rwa [UInt8.ofNat_toNat]

theorem encoded_encodeByte (b : UInt8) : Encoded (encodeByte b) := by
  have byte : b.toNat < 0x100 := b.toNat_lt_size
  unfold encodeByte
  split
  next unreserved =>
    exact .plain (isPlainMark_of_isUnreserved unreserved) .nil
  next =>
    exact .escaped (mem_upperHexDigits (by omega))
      (mem_upperHexDigits (by omega)) .nil

theorem encoded_encodeSegment (segment : List Char) :
    Encoded (encodeSegment segment) := by
  unfold encodeSegment
  induction utf8Bytes segment with
  | nil => exact .nil
  | cons b rest ih =>
      rw [List.flatMap_cons]
      exact (encoded_encodeByte b).append ih

theorem encoded_joinSegments {pieces : List (List Char)}
    (parts : ∀ piece ∈ pieces, Encoded piece) :
    Encoded (joinSegments '/' pieces) := by
  induction pieces with
  | nil => exact .nil
  | cons first others ih =>
      rw [List.forall_mem_cons] at parts
      cases others with
      | nil => exact parts.1
      | cons second rest =>
          rw [joinSegments_cons _ (List.cons_ne_nil second rest)]
          exact parts.1.append (ih parts.2).slash

theorem encoded_encodeName (name : String) :
    Encoded (encodeName name).toList := by
  rw [encodeName, String.toList_ofList]
  apply encoded_joinSegments
  intro piece member
  obtain ⟨segment, _, rfl⟩ := List.mem_map.1 member
  exact encoded_encodeSegment segment

theorem length_segments (separator : Char) (text : List Char) :
    (segments (· == separator) text).length = text.count separator + 1 := by
  induction text with
  | nil => rfl
  | cons c rest ih =>
      rw [segments, List.count_cons]
      split
      · rw [List.length_cons, ih]
      · cases pieces : segments (· == separator) rest with
        | nil => exact absurd pieces (segments_ne_nil _ _)
        | cons first others =>
            rw [pieces] at ih
            exact ih

theorem StandsFor.count_slash {encoded name : String}
    (stands : StandsFor encoded name) :
    encoded.toList.count '/' = name.toList.count '/' := by
  have lengths := congrArg List.length stands
  rw [List.length_map, List.length_map, length_segments, length_segments]
    at lengths
  exact Nat.succ.inj lengths

theorem StandsFor.unique {encoded first second : String}
    (stands : StandsFor encoded first) (again : StandsFor encoded second) :
    first = second := by
  have pieces : segments (· == '/') first.toList =
      segments (· == '/') second.toList :=
    List.map_injective_iff.2 (fun _ _ => Option.some.inj)
      (stands.symm.trans again)
  apply String.toList_injective
  rw [← joinSegments_segments '/' first.toList, pieces,
    joinSegments_segments]

/-- The encoded form of a name is well formed, has a slash for each slash of
the name, and stands for the name; different names have different forms. -/
theorem encodeName_faithful :
    (∀ name, Encoded (encodeName name).toList ∧
      (encodeName name).toList.count '/' = name.toList.count '/' ∧
      StandsFor (encodeName name) name) ∧
    Function.Injective encodeName := by
  refine ⟨fun name => ⟨encoded_encodeName name,
    (encodeName_standsFor name).count_slash, encodeName_standsFor name⟩, ?_⟩
  intro first second same
  have stands := encodeName_standsFor first
  rw [same] at stands
  exact stands.unique (encodeName_standsFor second)

/-- Empty segments stay, and a percent sign is written like any other byte. -/
example : encodeName "/ü%2F//" = "/%C3%BC%252F//" := by decide

end Text

end KeyCustody
