import KeyCustody.Proofs.Json.Data

/-!
# Reading values

A text is read exactly if it writes data with brackets that are not nested too
deep and numerals that are not too large, with blanks around it.  What is read
are those data, each numeral as the number that it is read as.
-/

namespace KeyCustody

namespace Json

open Text

section Simple

variable {calls depth : Nat}

theorem scanValue_gaps (gaps : Gaps) (rest : List Char) :
    scanValue calls depth (gaps.text ++ rest) = scanValue calls depth rest := by
  cases calls with
  | zero => rw [scanValue, scanValue]
  | succ calls => rw [scanValue, scanValue, skipGaps_append]

theorem scanValue_skipGaps (text : List Char) :
    scanValue calls depth (skipGaps text) = scanValue calls depth text := by
  cases calls with
  | zero => rw [scanValue, scanValue]
  | succ calls => rw [scanValue, scanValue, skipGaps_skipGaps]

theorem scanValue_number {c : Char} (isMark : c = '-' ∨ isDigit c = true)
    (rest : List Char) :
    scanValue (calls + 1) depth (c :: rest) = scanNumber (c :: rest) := by
  have differs {d : Char} {more : List Char} (noMark : d ≠ '-')
      (noDigit : isDigit d = false) : c :: rest ≠ d :: more := by
    intro same
    obtain ⟨rfl, _⟩ := List.cons.inj same
    rcases isMark with minus | digit
    · exact noMark minus
    · rw [digit] at noDigit
      cases noDigit
  have shown : isGap c = false := by
    rcases isMark with rfl | digit
    · rfl
    · exact isGap_of_isDigit digit
  have noWord : simpleWord? c = none := by
    unfold simpleWord?
    split
    next => exact absurd rfl (differs (by decide) (by decide))
    next => exact absurd rfl (differs (by decide) (by decide))
    next => exact absurd rfl (differs (by decide) (by decide))
    next => rfl
  rw [scanValue, skipGaps_cons shown]
  split
  next same => cases same
  next same => exact absurd same (differs (by decide) (by decide))
  next same => exact absurd same (differs (by decide) (by decide))
  next same => exact absurd same (differs (by decide) (by decide))
  next same =>
    obtain ⟨rfl, rfl⟩ := List.cons.inj same
    rw [noWord]
    exact if_pos (by simpa using isMark)

/-- A value that is read whatever goes on behind its text, with no more calls
than the text has characters. -/
def Reads (depth : Nat) (text : List Char) (value : Json) : Prop :=
  ∀ calls rest, text.length ≤ calls + 1 → Ended rest →
    scanValue (calls + 1) (depth + 1) (text ++ rest) = .ok (value, rest)

theorem reads_word {text : List Char} {data : Data Numeral}
    (named : (text, data) ∈ words) : Reads depth text data.toJson := by
  intro calls rest _ _
  simp only [words, List.mem_cons, Prod.mk.injEq, List.not_mem_nil,
    or_false] at named
  rcases named with ⟨rfl, rfl⟩ | ⟨rfl, rfl⟩ | ⟨rfl, rfl⟩ <;>
    rw [Data.toJson] <;> rfl

theorem reads_number {numeral : Numeral} (readable : numeral.Readable) :
    Reads depth numeral.text numeral.toJson := by
  intro calls rest _ ended
  have reads := scanNumber_append numeral ended
  obtain ⟨c, more, begins, isMark⟩ := numeral.exists_cons
  rw [begins, List.cons_append] at reads ⊢
  rw [scanValue_number isMark, reads, readable.reading_eq]
  rfl

theorem reads_string {literal : Literal} {text : String}
    (spells : literal.Spells text) : Reads depth literal.text (.string text) := by
  intro calls rest _ _
  rw [Literal.text, List.append_assoc, List.cons_append, scanValue,
    skipGaps_cons (by decide)]
  simp [spells.scanString, Except.map]

/-- A value in blanks is read up to the blanks behind it. -/
theorem scanValue_padded {padded : Padded} {value : Json}
    (isValue : IsValue padded.text) (reads : Reads depth padded.text value)
    (enough : padded.whole.length ≤ calls) {rest : List Char}
    (ended : Ended rest) :
    scanValue calls (depth + 1) (padded.whole ++ rest) =
      .ok (value, padded.after.text ++ rest) := by
  obtain ⟨c, more, begins, _⟩ := isValue.exists_cons
  rw [Padded.whole] at enough
  simp only [List.length_append] at enough
  have some : padded.text.length = more.length + 1 := by
    rw [begins, List.length_cons]
  obtain ⟨less, rfl⟩ : ∃ less, calls = less + 1 :=
    Nat.exists_eq_add_one_of_ne_zero (by omega)
  rw [Padded.whole_append, scanValue_gaps]
  exact reads less _ (by omega) (ended_append padded.after ended)

end Simple

section Joined

variable {α : Type}

/-- A step from one piece to the next reads the piece, and either the closing
bracket, which ends the steps, or a comma. -/
def ReadsPiece (scan : Nat → List Char → Scan (List α)) (close : Char)
    (piece : List Char) (found : α) : Prop :=
  ∀ calls mark more, piece.length ≤ calls → mark = close ∨ mark = ',' →
    scan (calls + 1) (piece ++ mark :: more) =
      if mark = close then .ok ([found], more)
      else (scan calls more).map fun read => (found :: read.1, read.2)

/-- Pieces with commas between them are read together with the bracket behind
them.  Each piece takes a call. -/
theorem scan_joined {scan : Nat → List Char → Scan (List α)}
    {close : Char} (noComma : close ≠ ',') {pieces : List (List Char × α)}
    (some : pieces ≠ [])
    (reads : ∀ piece ∈ pieces, ReadsPiece scan close piece.1 piece.2)
    {calls : Nat}
    (enough : (joinSegments ',' (pieces.map Prod.fst)).length < calls)
    (rest : List Char) :
    scan calls (joinSegments ',' (pieces.map Prod.fst) ++ close :: rest) =
      .ok (pieces.map Prod.snd, rest) := by
  induction pieces generalizing calls with
  | nil => exact absurd rfl some
  | cons first others ih =>
      rw [List.forall_mem_cons] at reads
      obtain ⟨less, rfl⟩ : ∃ less, calls = less + 1 :=
        Nat.exists_eq_add_one_of_ne_zero (by omega)
      rw [List.map_cons] at enough ⊢
      cases others with
      | nil =>
          rw [List.map_nil, joinSegments] at enough ⊢
          rw [reads.1 less close rest (by omega) (Or.inl rfl), if_pos rfl]
          rfl
      | cons second more =>
          rw [joinSegments_cons _ (by simp)] at enough ⊢
          rw [List.length_append, List.length_cons] at enough
          have behind := ih (List.cons_ne_nil second more) reads.2
            (show _ < less by omega)
          rw [List.append_assoc, List.cons_append,
            reads.1 less ',' _ (by omega) (Or.inr rfl),
            if_neg (Ne.symm noComma), behind]
          rfl

variable {depth : Nat}

theorem readsPiece_item {item : Padded} {value : Json}
    (isValue : IsValue item.text) (reads : Reads depth item.text value) :
    ReadsPiece (scanItems · (depth + 1)) ']' item.whole value := by
  intro calls mark more enough isMark
  have ends : Ended (mark :: more) := ended_cons (by tauto) more
  have shown : isGap mark = false := by
    rcases isMark with rfl | rfl <;> rfl
  dsimp only
  rw [scanItems, scanValue_padded isValue reads enough ends]
  simp only [skipGaps_append, skipGaps_cons shown]
  rcases isMark with rfl | rfl <;> rfl

theorem readsPiece_member {member : Member} {name : String} {value : Json}
    (spells : member.name.Spells name) (isValue : IsValue member.value.text)
    (reads : Reads depth member.value.text value) :
    ReadsPiece (scanMembers · (depth + 1)) '}' member.whole (name, value) := by
  intro calls mark more enough isMark
  have fits := Nat.le_trans member.length_value_le enough
  have ends : Ended (mark :: more) := ended_cons (by tauto) more
  have shown : isGap mark = false := by
    rcases isMark with rfl | rfl <;> rfl
  dsimp only
  rw [Member.whole_append, scanMembers, skipGaps_append,
    skipGaps_cons (by decide)]
  simp only [spells.scanString, skipGaps_append,
    skipGaps_cons (show isGap ':' = false by decide),
    scanValue_padded isValue reads fits ends, skipGaps_cons shown,
    String.ofList_toList]
  rcases isMark with rfl | rfl <;> rfl

variable {calls : Nat}

theorem scanItems_skipGaps (text : List Char) :
    scanItems calls depth (skipGaps text) = scanItems calls depth text := by
  cases calls with
  | zero => rw [scanItems, scanItems]
  | succ calls => rw [scanItems, scanItems, scanValue_skipGaps]

theorem scanMembers_skipGaps (text : List Char) :
    scanMembers calls depth (skipGaps text) = scanMembers calls depth text := by
  cases calls with
  | zero => rw [scanMembers, scanMembers]
  | succ calls => rw [scanMembers, scanMembers, skipGaps_skipGaps]

theorem reads_array {items : List (Padded × Data Numeral)} (gaps : Gaps)
    (values : ∀ item ∈ items, IsValue item.1.text)
    (reads : ∀ item ∈ items, Reads depth item.1.text item.2.toJson) :
    Reads (depth + 1) (arrayText gaps (items.map Prod.fst))
      (Data.array (items.map Prod.snd)).toJson := by
  intro calls rest enough _
  simp only [arrayText, List.length_append, List.length_cons,
    List.length_nil] at enough
  simp only [arrayText, List.append_assoc, List.cons_append, List.nil_append]
  rw [scanValue, skipGaps_cons (by decide), Data.toJson]
  simp only [skipGaps_append]
  rw [if_neg (by omega)]
  cases items with
  | nil => rfl
  | cons first others =>
      let pieces := (first :: others).map fun item =>
        (item.1.whole, item.2.toJson)
      have texts : pieces.map Prod.fst =
          ((first :: others).map Prod.fst).map Padded.whole := by
        simp [pieces]
      have found : pieces.map Prod.snd =
          ((first :: others).map Prod.snd).map Data.toJson := by
        simp [pieces]
      have steps : ∀ piece ∈ pieces,
          ReadsPiece (scanItems · (depth + 1)) ']' piece.1 piece.2 := by
        intro piece listed
        obtain ⟨item, inside, rfl⟩ := List.mem_map.1 listed
        exact readsPiece_item (values item inside) (reads item inside)
      have scanned := scan_joined (by decide) (by simp [pieces]) steps
        (show _ < calls by rw [texts]; omega) rest
      obtain ⟨more, begins, _⟩ :=
        joinSegments_map_eq Padded.whole first.1 (others.map Prod.fst)
      obtain ⟨c, later, text, shown, noBracket⟩ :=
        (values first List.mem_cons_self).exists_cons
      have heads : (first :: others).map Prod.fst =
          first.1 :: others.map Prod.fst :=
        rfl
      rw [texts, found, ← scanItems_skipGaps, heads, begins] at scanned
      rw [heads, begins]
      simp only [Padded.whole, text, List.append_assoc, List.cons_append,
        skipGaps_append, skipGaps_cons shown, Nat.add_sub_cancel] at scanned ⊢
      split
      next same => cases same
      next same => exact absurd (List.cons.inj same).1 noBracket
      next =>
        rw [scanned]
        rfl

theorem reads_object {members : List (Member × String × Data Numeral)}
    (gaps : Gaps)
    (names : ∀ member ∈ members, member.1.name.Spells member.2.1)
    (values : ∀ member ∈ members, IsValue member.1.value.text)
    (reads : ∀ member ∈ members,
      Reads depth member.1.value.text member.2.2.toJson) :
    Reads (depth + 1) (objectText gaps (members.map Prod.fst))
      (Data.object (lastOnes (members.map Prod.snd))).toJson := by
  intro calls rest enough _
  have whole : (Data.object (lastOnes (members.map Prod.snd))).toJson =
      ofMembers ((members.map Prod.snd).map fun member =>
        (member.1, member.2.toJson)) := by
    rw [Data.toJson, ← lastOnes_map]
    rfl
  simp only [objectText, List.length_append, List.length_cons,
    List.length_nil] at enough
  simp only [objectText, List.append_assoc, List.cons_append, List.nil_append]
  rw [scanValue, skipGaps_cons (by decide), whole]
  simp only [skipGaps_append]
  rw [if_neg (by omega)]
  cases members with
  | nil =>
      simp [joinSegments, skipGaps_cons (show isGap '}' = false by decide)]
      rfl
  | cons first others =>
      let pieces := (first :: others).map fun member =>
        (member.1.whole, (member.2.1, member.2.2.toJson))
      have texts : pieces.map Prod.fst =
          ((first :: others).map Prod.fst).map Member.whole := by
        simp [pieces]
      have found : pieces.map Prod.snd =
          ((first :: others).map Prod.snd).map fun member =>
            (member.1, member.2.toJson) := by
        simp [pieces]
      have steps : ∀ piece ∈ pieces,
          ReadsPiece (scanMembers · (depth + 1)) '}' piece.1 piece.2 := by
        intro piece listed
        obtain ⟨member, inside, rfl⟩ := List.mem_map.1 listed
        exact readsPiece_member (names member inside) (values member inside)
          (reads member inside)
      have scanned := scan_joined (by decide) (by simp [pieces]) steps
        (show _ < calls by rw [texts]; omega) rest
      obtain ⟨more, begins, _⟩ :=
        joinSegments_map_eq Member.whole first.1 (others.map Prod.fst)
      have heads : (first :: others).map Prod.fst =
          first.1 :: others.map Prod.fst :=
        rfl
      rw [texts, found, ← scanMembers_skipGaps, heads, begins] at scanned
      rw [heads, begins]
      simp only [List.append_assoc, List.cons_append, Member.whole_append,
        skipGaps_append, skipGaps_cons (show isGap '"' = false by decide),
        Nat.add_sub_cancel] at scanned ⊢
      exact congrArg (Except.map fun read => (ofMembers read.1, read.2)) scanned

end Joined

variable {depth : Nat} {text : List Char} {data : Data Numeral}

theorem Writes.reads (writes : Writes Numeral.Readable depth text data) :
    Reads depth text data.toJson := by
  induction writes with
  | word named => exact reads_word named
  | number readable =>
      rw [Data.toJson]
      exact reads_number readable
  | string spells =>
      rw [Data.toJson]
      exact reads_string spells
  | array gaps parts ih =>
      exact reads_array gaps (fun item listed => (parts item listed).isValue) ih
  | object gaps names parts ih =>
      exact reads_object gaps names
        (fun member listed => (parts member listed).isValue) ih

end Json

end KeyCustody
