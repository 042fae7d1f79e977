import KeyCustody.Net.IpAddress
import KeyCustody.Proofs.Text.Slashes

/-!
# What the text of an address is made of

The text of an address is made of hexadecimal digits, dots and colons.  A
version 4 address has no colon and a version 6 address has one, so a colon tells
the two apart.
-/

namespace KeyCustody

namespace IpAddress

open Text

/-- A character that may stand in the text of an address. -/
def isAddressChar (c : Char) : Bool :=
  (hexValue? c).isSome || c == '.' || c == ':'

theorem isAddressChar_of_isDigit {c : Char} (digit : isDigit c = true) :
    isAddressChar c = true := by
  simp [isAddressChar, hexValue?, digit]

theorem isSome_of_mapM {α β : Type} {read? : α → Option β} {items : List α}
    {values : List β} (read : items.mapM read? = some values) :
    ∀ item ∈ items, (read? item).isSome := by
  induction items generalizing values with
  | nil => simp
  | cons first others ih =>
      rw [List.mapM_cons] at read
      obtain ⟨value, head, read⟩ := Option.bind_eq_some_iff.1 read
      obtain ⟨rest, tail, _⟩ := Option.bind_eq_some_iff.1 read
      rw [List.forall_mem_cons]
      exact ⟨by simp [head], ih tail⟩

section Version4

variable {text : List Char} {octets : List Nat}

theorem isDigit_of_octet? {octet : Nat} (read : octet? text = some octet) :
    ∀ c ∈ text, isDigit c = true := by
  simp only [octet?, Option.ite_none_right_eq_some] at read
  exact List.all_eq_true.1 read.1.2.2.1

theorem of_mem_octets (read : octets? text = some octets) :
    ∀ c ∈ text, c = '.' ∨ isDigit c = true := by
  simp only [octets?, Option.ite_none_right_eq_some] at read
  have pieces := isSome_of_mapM read.2
  intro c member
  rw [← joinSegments_segments '.' text] at member
  rcases mem_joinSegments member with dot | ⟨piece, among, inside⟩
  · exact Or.inl dot
  · obtain ⟨octet, octetRead⟩ := Option.isSome_iff_exists.1
      (pieces piece among)
    exact Or.inr (isDigit_of_octet? octetRead c inside)

theorem isAddressChar_of_octets? (read : octets? text = some octets) :
    ∀ c ∈ text, isAddressChar c = true := by
  intro c member
  rcases of_mem_octets read c member with rfl | digit
  · decide
  · exact isAddressChar_of_isDigit digit

theorem octets?_of_colon (colon : ':' ∈ text) : octets? text = none := by
  cases read : octets? text with
  | none => rfl
  | some octets =>
      rcases of_mem_octets read ':' colon with same | digit
      · exact absurd same (by decide)
      · exact absurd digit (by decide)

end Version4

section Version6

variable {text : List Char} {groups : List Nat} {endsInV4 : Bool}

theorem isAddressChar_of_group? {group : Nat}
    (read : group? text = some group) :
    ∀ c ∈ text, isAddressChar c = true := by
  simp only [group?, Option.ite_none_right_eq_some] at read
  obtain ⟨digits, hexes, _⟩ := Option.map_eq_some_iff.1 read.2
  intro c member
  simp [isAddressChar, isSome_of_mapM hexes c member]

/-- The last piece is a group, or a version 4 address that counts for two. -/
theorem groups?_single (read : groups? endsInV4 [text] = some groups) :
    (∃ group, group? text = some group ∧ groups = [group]) ∨
      ∃ octets, octets? text = some octets ∧ groups.length = 2 := by
  simp only [groups?] at read
  split at read
  next group isGroup =>
    left
    exact ⟨group, isGroup, (Option.some.inj read).symm⟩
  next =>
    split at read
    · split at read
      next a b c d isV4 =>
        right
        refine ⟨_, isV4, ?_⟩
        rw [← Option.some.inj read]
        rfl
      next => cases read
    · cases read

theorem isAddressChar_of_groups? {pieces : List (List Char)}
    (read : groups? endsInV4 pieces = some groups) :
    ∀ piece ∈ pieces, ∀ c ∈ piece, isAddressChar c = true := by
  induction pieces generalizing groups with
  | nil => simp
  | cons piece others ih =>
      cases others with
      | nil =>
          rw [List.forall_mem_singleton]
          rcases groups?_single read with
            ⟨group, isGroup, _⟩ | ⟨octets, isV4, _⟩
          · exact isAddressChar_of_group? isGroup
          · exact isAddressChar_of_octets? isV4
      | cons second rest =>
          rw [groups?] at read
          · obtain ⟨group, head, read⟩ := Option.bind_eq_some_iff.1 read
            obtain ⟨more, tail, _⟩ := Option.bind_eq_some_iff.1 read
            rw [List.forall_mem_cons]
            exact ⟨isAddressChar_of_group? head, ih tail⟩
          · simp

theorem isAddressChar_of_side? (read : side? endsInV4 text = some groups) :
    ∀ c ∈ text, isAddressChar c = true := by
  intro c member
  rw [side?, if_neg (List.ne_nil_of_mem member)] at read
  rw [← joinSegments_segments ':' text] at member
  rcases mem_joinSegments member with rfl | ⟨piece, among, inside⟩
  · decide
  · exact isAddressChar_of_groups? read piece among c inside

theorem eq_of_cutColons {before after : List Char}
    (cut : cutColons text = some (before, after)) :
    text = before ++ ':' :: ':' :: after := by
  fun_induction cutColons text generalizing before with
  | case1 rest =>
      obtain ⟨rfl, rfl⟩ := Prod.mk.inj (Option.some.inj cut)
      rfl
  | case2 c rest _ ih =>
      obtain ⟨⟨early, late⟩, cutRest, same⟩ := Option.map_eq_some_iff.1 cut
      obtain ⟨rfl, rfl⟩ := Prod.mk.inj same
      rw [ih cutRest]
      rfl
  | case3 => cases cut

theorem isAddressChar_of_sixGroups? (read : sixGroups? text = some groups) :
    ∀ c ∈ text, isAddressChar c = true := by
  unfold sixGroups? at read
  split at read
  next =>
    obtain ⟨isSide, _⟩ := Option.filter_eq_some_iff.1 read
    exact isAddressChar_of_side? isSide
  next before after cut =>
    split at read
    next head tail isHead isTail =>
      intro c member
      rw [eq_of_cutColons cut, List.mem_append, List.mem_cons,
        List.mem_cons] at member
      rcases member with early | rfl | rfl | late
      · exact isAddressChar_of_side? isHead c early
      · decide
      · decide
      · exact isAddressChar_of_side? isTail c late
    next => cases read

theorem colon_mem_of_sixGroups? (read : sixGroups? text = some groups) :
    ':' ∈ text := by
  apply Decidable.byContradiction
  intro absent
  unfold sixGroups? at read
  split at read
  next =>
    obtain ⟨isSide, eight⟩ := Option.filter_eq_some_iff.1 read
    have whole : segments (· == ':') text = [text] := by
      apply segments_of_whole
      intro c member
      apply beq_eq_false_iff_ne.2
      rintro rfl
      exact absent member
    unfold side? at isSide
    split at isSide
    · rw [← Option.some.inj isSide] at eight
      cases eight
    · rw [whole] at isSide
      rcases groups?_single isSide with ⟨group, _, rfl⟩ | ⟨_, _, two⟩
      · cases eight
      · rw [two] at eight
        cases eight
  next before after cut =>
    apply absent
    rw [eq_of_cutColons cut]
    simp

end Version6

variable {text : List Char}

theorem ofText?_of_colonless (colonless : ':' ∉ text) :
    ofText? text = (octets? text).map .v4 := by
  unfold ofText?
  cases octets? text with
  | some octets => rfl
  | none =>
      cases read : sixGroups? text with
      | none => rfl
      | some groups => exact absurd (colon_mem_of_sixGroups? read) colonless

/-- A text with a colon is at most a version 6 address. -/
theorem ofText?_of_colon (colon : ':' ∈ text) :
    ofText? text = (sixGroups? text).map .v6 := by
  rw [ofText?, octets?_of_colon colon]

theorem isAddressChar_of_ofText? {address : IpAddress}
    (read : ofText? text = some address) :
    ∀ c ∈ text, isAddressChar c = true := by
  unfold ofText? at read
  split at read
  next octets isV4 => exact isAddressChar_of_octets? isV4
  next =>
    obtain ⟨groups, isV6, _⟩ := Option.map_eq_some_iff.1 read
    exact isAddressChar_of_sixGroups? isV6

end IpAddress

end KeyCustody
