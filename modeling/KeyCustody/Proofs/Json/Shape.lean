import KeyCustody.Proofs.Json.Reading

/-!
# The shape of what is read

Nothing is read but what the grammar admits: whatever the reader takes for a
value, for items or for members stands in the text as such.  So a text is read
exactly if it writes data whose brackets are not nested too deep and whose
numerals are not too large, and what is read are those data.
-/

namespace KeyCustody

namespace Json

open Text

theorem exists_gaps (text : List Char) :
    ∃ gaps : Gaps, text = gaps.text ++ skipGaps text :=
  ⟨⟨text.takeWhile isGap, fun _ member => List.mem_takeWhile_imp member⟩,
    List.takeWhile_append_dropWhile.symm⟩

theorem eq_append_of_scanWord {word text rest : List Char}
    (scanned : scanWord word text = .ok rest) : text = word ++ rest := by
  fun_induction scanWord word text with
  | case1 text => exact Except.ok.inj scanned
  | case3 expected word later ih => rw [ih scanned]; rfl
  | case2 | case4 => cases scanned

theorem exists_named_of_simpleWord? {c : Char} {word : List Char} {value : Json}
    (named : simpleWord? c = some (word, value)) :
    ∃ data, (c :: word, data) ∈ words := by
  unfold simpleWord? at named
  split at named <;> cases named
  · exact ⟨.null, by simp [words]⟩
  · exact ⟨.bool true, by simp [words]⟩
  · exact ⟨.bool false, by simp [words]⟩

theorem exists_of_map_eq_ok {α β : Type} {f : α × List Char → β × List Char}
    {scan : Scan α} {value : β} {rest : List Char}
    (mapped : scan.map f = .ok (value, rest))
    (keeps : ∀ read, (f read).2 = read.2) :
    ∃ found, scan = .ok (found, rest) := by
  cases scan with
  | error malformed => cases mapped
  | ok read =>
      have same : (value, rest).2 = read.2 := by
        rw [← Except.ok.inj mapped, keeps]
      exact ⟨read.1, by rw [show rest = read.2 from same]⟩

section Shapes

variable (depth : Nat) (text rest : List Char)

/-- A text begins with a value, perhaps behind blanks. -/
def BeginsWithValue : Prop :=
  ∃ (gaps : Gaps) (body : List Char) (data : Data Numeral),
    text = gaps.text ++ (body ++ rest) ∧
    Writes Numeral.Readable depth body data

/-- A text begins with items and the bracket that closes them. -/
def BeginsWithItems : Prop :=
  ∃ items : List (Padded × Data Numeral), items ≠ [] ∧
    text = joinSegments ',' ((items.map Prod.fst).map Padded.whole) ++
      ']' :: rest ∧
    ∀ item ∈ items, Writes Numeral.Readable depth item.1.text item.2

/-- A text begins with members and the brace that closes them. -/
def BeginsWithMembers : Prop :=
  ∃ members : List (Member × String × Data Numeral), members ≠ [] ∧
    text = joinSegments ',' ((members.map Prod.fst).map Member.whole) ++
      '}' :: rest ∧
    (∀ member ∈ members, member.1.name.Spells member.2.1) ∧
    ∀ member ∈ members,
      Writes Numeral.Readable depth member.1.value.text member.2.2

end Shapes

section Calls

variable {calls depth : Nat} {text rest : List Char}
variable (items : ∀ depth text found rest,
  scanItems calls (depth + 1) text = .ok (found, rest) →
    BeginsWithItems depth text rest)
variable (members : ∀ depth text found rest,
  scanMembers calls (depth + 1) text = .ok (found, rest) →
    BeginsWithMembers depth text rest)

theorem beginsWithNumber {value : Json} (ended : Ended rest)
    (scanned : scanNumber text = .ok (value, rest)) (gaps : Gaps) :
    BeginsWithValue depth (gaps.text ++ text) rest := by
  obtain ⟨numeral, rfl⟩ := exists_numeral_of_scanNumber scanned
  rw [scanNumber_append numeral ended] at scanned
  have readable : numeral.Readable := by
    cases reads : numeral.reading with
    | error malformed => rw [reads] at scanned; cases scanned
    | ok found => exact ⟨found, reads⟩
  exact ⟨gaps, numeral.text, .number numeral, rfl, .number readable⟩

theorem beginsWithWord {c : Char} {word : List Char} {value found : Json}
    (named : simpleWord? c = some (word, value))
    (scanned : (scanWord word text).map (value, ·) = .ok (found, rest))
    (gaps : Gaps) : BeginsWithValue depth (gaps.text ++ c :: text) rest := by
  obtain ⟨data, member⟩ := exists_named_of_simpleWord? named
  refine ⟨gaps, c :: word, data, ?_, .word member⟩
  cases read : scanWord word text with
  | error malformed => rw [read] at scanned; cases scanned
  | ok after =>
      rw [read] at scanned
      obtain ⟨_, rfl⟩ := Prod.mk.inj (Except.ok.inj scanned)
      rw [eq_append_of_scanWord read, List.cons_append]

theorem beginsWithArray (listed : List (Padded × Data Numeral))
    (shape : skipGaps text =
      joinSegments ',' ((listed.map Prod.fst).map Padded.whole) ++ ']' :: rest)
    (parts : ∀ item ∈ listed,
      Writes Numeral.Readable depth item.1.text item.2) (gaps : Gaps) :
    BeginsWithValue (depth + 1) (gaps.text ++ '[' :: text) rest := by
  obtain ⟨inner, cut⟩ := exists_gaps text
  refine ⟨gaps, arrayText inner (listed.map Prod.fst),
    .array (listed.map Prod.snd), ?_, .array inner parts⟩
  rw [cut, shape]
  simp [arrayText]

theorem beginsWithObject (listed : List (Member × String × Data Numeral))
    (shape : skipGaps text =
      joinSegments ',' ((listed.map Prod.fst).map Member.whole) ++ '}' :: rest)
    (names : ∀ member ∈ listed, member.1.name.Spells member.2.1)
    (parts : ∀ member ∈ listed,
      Writes Numeral.Readable depth member.1.value.text member.2.2)
    (gaps : Gaps) :
    BeginsWithValue (depth + 1) (gaps.text ++ '{' :: text) rest := by
  obtain ⟨inner, cut⟩ := exists_gaps text
  refine ⟨gaps, objectText inner (listed.map Prod.fst),
    .object (lastOnes (listed.map Prod.snd)), ?_, .object inner names parts⟩
  rw [cut, shape]
  simp [objectText]

include items members in
theorem beginsWithValue_succ {value : Json} (ended : Ended rest)
    (scanned : scanValue (calls + 1) (depth + 1) text = .ok (value, rest)) :
    BeginsWithValue depth text rest := by
  obtain ⟨gaps, cut⟩ := exists_gaps text
  rw [cut]
  unfold scanValue at scanned
  split at scanned
  next => cases scanned
  next later behind =>
    obtain ⟨found, read⟩ := exists_of_map_eq_ok scanned fun _ => rfl
    obtain ⟨literal, spells, rfl⟩ := Literal.exists_of_scanString read
    rw [behind]
    exact ⟨gaps, literal.text, .string (.ofList found), by simp [Literal.text],
      .string spells⟩
  next later behind =>
    rw [behind]
    split at scanned
    next => cases scanned
    next deep =>
      obtain ⟨less, rfl⟩ : ∃ less, depth = less + 1 :=
        Nat.exists_eq_add_one_of_ne_zero (by omega)
      split at scanned
      next => cases scanned
      next after shown =>
        obtain ⟨_, rfl⟩ := Prod.mk.inj (Except.ok.inj scanned)
        exact beginsWithArray [] shown (by simp) gaps
      next =>
        obtain ⟨found, read⟩ := exists_of_map_eq_ok scanned fun _ => rfl
        obtain ⟨listed, _, shape, parts⟩ := items _ _ _ _ read
        exact beginsWithArray listed shape parts gaps
  next later behind =>
    rw [behind]
    split at scanned
    next => cases scanned
    next deep =>
      obtain ⟨less, rfl⟩ : ∃ less, depth = less + 1 :=
        Nat.exists_eq_add_one_of_ne_zero (by omega)
      split at scanned
      next => cases scanned
      next after shown =>
        obtain ⟨_, rfl⟩ := Prod.mk.inj (Except.ok.inj scanned)
        exact beginsWithObject [] shown (by simp) (by simp) gaps
      next =>
        obtain ⟨found, read⟩ := exists_of_map_eq_ok scanned fun _ => rfl
        obtain ⟨listed, _, shape, names, parts⟩ := members _ _ _ _ read
        exact beginsWithObject listed shape names parts gaps
  next c later _ _ _ behind =>
    rw [behind]
    split at scanned
    next word value named =>
      exact beginsWithWord named scanned gaps
    next =>
      split at scanned
      · exact beginsWithNumber ended scanned gaps
      · cases scanned

section Parts

variable (values : ∀ depth text found rest, Ended rest →
  scanValue calls (depth + 1) text = .ok (found, rest) →
    BeginsWithValue depth text rest)
include values

/-- A value that is read before a comma or a bracket stands there in blanks. -/
theorem exists_padded {value : Json} {close mark : Char}
    {behind more : List Char}
    (scanned : scanValue calls (depth + 1) text = .ok (value, behind))
    (shown : skipGaps behind = mark :: more)
    (closes : close = ']' ∨ close = '}') (isMark : mark = close ∨ mark = ',') :
    ∃ padded data, text = Padded.whole padded ++ mark :: more ∧
      Writes Numeral.Readable depth padded.text data := by
  obtain ⟨after, cut⟩ := exists_gaps behind
  rw [shown] at cut
  subst cut
  have ends : Ended (mark :: more) := ended_cons (by grind) more
  obtain ⟨before, body, data, rfl, writes⟩ :=
    values _ _ _ _ (ended_append after ends) scanned
  exact ⟨⟨before, body, after⟩, data, by simp [Padded.whole], writes⟩

include items in
theorem beginsWithItems_succ {found : List Json}
    (scanned : scanItems (calls + 1) (depth + 1) text = .ok (found, rest)) :
    BeginsWithItems depth text rest := by
  unfold scanItems at scanned
  split at scanned
  next => cases scanned
  next item behind first =>
    have stands {mark : Char} {more : List Char} :=
      @exists_padded _ _ _ values item ']' mark behind more first
    split at scanned
    next => cases scanned
    next later shown =>
      obtain ⟨_, rfl⟩ := Prod.mk.inj (Except.ok.inj scanned)
      obtain ⟨padded, data, rfl, writes⟩ :=
        stands shown (Or.inl rfl) (Or.inl rfl)
      exact ⟨[(padded, data)], by simp, rfl,
        List.forall_mem_singleton.2 writes⟩
    next later shown =>
      obtain ⟨_, read⟩ := exists_of_map_eq_ok scanned fun _ => rfl
      obtain ⟨padded, data, rfl, writes⟩ :=
        stands shown (Or.inl rfl) (Or.inr rfl)
      obtain ⟨others, some, rfl, further⟩ := items _ _ _ _ read
      refine ⟨(padded, data) :: others, List.cons_ne_nil _ _, ?_,
        List.forall_mem_cons.2 ⟨writes, further⟩⟩
      rw [List.map_cons, List.map_cons, joinSegments_cons _ (by simpa),
        List.append_assoc, List.cons_append]
    next => cases scanned

include members in
theorem beginsWithMembers_succ {found : List (String × Json)}
    (scanned : scanMembers (calls + 1) (depth + 1) text = .ok (found, rest)) :
    BeginsWithMembers depth text rest := by
  obtain ⟨before, cut⟩ := exists_gaps text
  rw [cut]
  unfold scanMembers at scanned
  split at scanned
  next => cases scanned
  next later opened =>
    split at scanned
    next => cases scanned
    next chars colon read =>
      obtain ⟨literal, spells, rfl⟩ := Literal.exists_of_scanString read
      obtain ⟨between, cut⟩ := exists_gaps colon
      split at scanned
      next => cases scanned
      next after shown =>
        rw [opened, cut, shown]
        split at scanned
        next => cases scanned
        next value behind first =>
          have stands {mark : Char} {more : List Char} :=
            @exists_padded _ _ _ values value '}' mark behind more first
          split at scanned
          next => cases scanned
          next later shown =>
            obtain ⟨_, rfl⟩ := Prod.mk.inj (Except.ok.inj scanned)
            obtain ⟨padded, data, rfl, writes⟩ :=
              stands shown (Or.inr rfl) (Or.inl rfl)
            refine ⟨[(⟨before, literal, between, padded⟩, .ofList chars, data)],
              by simp, ?_, List.forall_mem_singleton.2 spells,
              List.forall_mem_singleton.2 writes⟩
            simp [joinSegments, Member.whole_append]
          next later shown =>
            obtain ⟨_, read⟩ := exists_of_map_eq_ok scanned fun _ => rfl
            obtain ⟨padded, data, rfl, writes⟩ :=
              stands shown (Or.inr rfl) (Or.inr rfl)
            obtain ⟨others, some, rfl, names, further⟩ := members _ _ _ _ read
            refine ⟨(⟨before, literal, between, padded⟩, .ofList chars, data) ::
              others, List.cons_ne_nil _ _, ?_,
              List.forall_mem_cons.2 ⟨spells, names⟩,
              List.forall_mem_cons.2 ⟨writes, further⟩⟩
            rw [List.map_cons, List.map_cons, joinSegments_cons _ (by simpa),
              List.append_assoc, List.cons_append, Member.whole_append]
          next => cases scanned
      next => cases scanned
  next => cases scanned

end Parts

end Calls

/-- Whatever is read with any number of calls stands in the text. -/
theorem begins_scans (calls : Nat) :
    (∀ depth text found rest, Ended rest →
      scanValue calls (depth + 1) text = .ok (found, rest) →
        BeginsWithValue depth text rest) ∧
    (∀ depth text found rest,
      scanItems calls (depth + 1) text = .ok (found, rest) →
        BeginsWithItems depth text rest) ∧
    ∀ depth text found rest,
      scanMembers calls (depth + 1) text = .ok (found, rest) →
        BeginsWithMembers depth text rest := by
  induction calls with
  | zero =>
      refine ⟨fun _ _ _ _ _ scanned => ?_, fun _ _ _ _ scanned => ?_,
        fun _ _ _ _ scanned => ?_⟩
      · rw [scanValue] at scanned
        cases scanned
      · rw [scanItems] at scanned
        cases scanned
      · rw [scanMembers] at scanned
        cases scanned
  | succ calls ih =>
      obtain ⟨values, items, members⟩ := ih
      exact ⟨fun _ _ _ _ => beginsWithValue_succ items members,
        fun _ _ _ _ => beginsWithItems_succ items values,
        fun _ _ _ _ => beginsWithMembers_succ members values⟩

/-- A text that writes data, with blanks around it. -/
def TextOf (admits : Numeral → Prop) (depth : Nat) (text : List Char)
    (data : Data Numeral) : Prop :=
  ∃ padded : Padded, text = padded.whole ∧
    Writes admits depth padded.text data

theorem read_of_textOf {text : List Char} {data : Data Numeral}
    (writes : TextOf Numeral.Readable 127 text data) :
    read text = .ok data.toJson := by
  obtain ⟨padded, rfl, writes⟩ := writes
  have scanned := scanValue_padded writes.isValue writes.reads
    (show _ ≤ 2 * padded.whole.length + 2 by omega) ended_nil
  rw [List.append_nil, List.append_nil] at scanned
  have gaps := skipGaps_append padded.after []
  rw [List.append_nil] at gaps
  rw [read, depthLimit, scanned]
  simp only [gaps]
  rfl

/-- A text is read exactly if it writes data in brackets that are not nested too
deep and with numerals that are not too large, and then these data are read. -/
theorem read_eq_ok_iff {text : List Char} {value : Json} :
    read text = .ok value ↔ ∃ data,
      TextOf Numeral.Readable 127 text data ∧ value = data.toJson := by
  constructor
  · intro reads
    have shape : ∃ data, TextOf Numeral.Readable 127 text data := by
      unfold read at reads
      split at reads
      next => cases reads
      next found rest scanned =>
        split at reads
        next none =>
          obtain ⟨after, cut⟩ := exists_gaps rest
          rw [none, List.append_nil] at cut
          subst cut
          have ended := ended_append after ended_nil
          rw [List.append_nil] at ended
          obtain ⟨before, body, data, rfl, writes⟩ :=
            (begins_scans _).1 127 text found _ ended scanned
          exact ⟨data, ⟨before, body, after⟩, by simp [Padded.whole], writes⟩
        next => cases reads
    obtain ⟨data, writes⟩ := shape
    rw [read_of_textOf writes] at reads
    exact ⟨data, writes, (Except.ok.inj reads).symm⟩
  · rintro ⟨data, writes, rfl⟩
    exact read_of_textOf writes

end Json

end KeyCustody
