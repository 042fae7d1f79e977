import KeyCustody.Proofs.Json.Literal
import KeyCustody.Proofs.Json.Numeral

/-!
# Skipping values

The grammar of JSON values: words, numerals, string literals, and arrays and
objects with blanks between their tokens.  Whatever the grammar admits is
skipped, at any depth of nesting, with numbers of any size and with halves of
pairs of units on their own; skipping stops right behind the value.
-/

namespace KeyCustody

namespace Json

open Text

/-- Blanks between two tokens. -/
structure Gaps where
  text : List Char
  blank : ∀ c ∈ text, isGap c = true

def noGaps : Gaps := ⟨[], by simp⟩

/-- The text of a value with blanks around it. -/
structure Padded where
  before : Gaps
  text : List Char
  after : Gaps

/-- A member of an object with blanks around its parts. -/
structure Member where
  before : Gaps
  name : Literal
  between : Gaps
  value : Padded

def Padded.whole (padded : Padded) : List Char :=
  padded.before.text ++ padded.text ++ padded.after.text

def Member.whole (member : Member) : List Char :=
  member.before.text ++ member.name.text ++ member.between.text ++
    ':' :: member.value.whole

def arrayText (gaps : Gaps) (items : List Padded) : List Char :=
  '[' :: gaps.text ++ joinSegments ',' (items.map Padded.whole) ++ [']']

def objectText (gaps : Gaps) (members : List Member) : List Char :=
  '{' :: gaps.text ++ joinSegments ',' (members.map Member.whole) ++ ['}']

/-- The texts of JSON values. -/
inductive IsValue : List Char → Prop
  | word {text : List Char}
      (named : text ∈ ["null".toList, "true".toList, "false".toList]) :
      IsValue text
  | number (numeral : Numeral) : IsValue numeral.text
  | string (literal : Literal) : IsValue literal.text
  | array {items : List Padded} (gaps : Gaps)
      (parts : ∀ item ∈ items, IsValue item.text) :
      IsValue (arrayText gaps items)
  | object {members : List Member} (gaps : Gaps)
      (parts : ∀ member ∈ members, IsValue member.value.text) :
      IsValue (objectText gaps members)

theorem Padded.whole_append (padded : Padded) (rest : List Char) :
    padded.whole ++ rest =
      padded.before.text ++ (padded.text ++ (padded.after.text ++ rest)) := by
  rw [whole, List.append_assoc, List.append_assoc]

theorem Member.whole_append (member : Member) (rest : List Char) :
    member.whole ++ rest =
      member.before.text ++ '"' :: (member.name.pieces.flatMap Piece.text ++
        '"' :: (member.between.text ++
          ':' :: (member.value.whole ++ rest))) := by
  simp [Member.whole, Literal.text]

theorem skipGaps_append (gaps : Gaps) (rest : List Char) :
    skipGaps (gaps.text ++ rest) = skipGaps rest :=
  List.dropWhile_append_of_pos gaps.blank

theorem skipGaps_cons {c : Char} (shown : isGap c = false)
    (rest : List Char) : skipGaps (c :: rest) = c :: rest := by
  rw [skipGaps, List.dropWhile_cons_of_neg (by simp [shown])]

theorem skipGaps_skipGaps (text : List Char) :
    skipGaps (skipGaps text) = skipGaps text :=
  List.dropWhile_idempotent isGap text

theorem isGap_of_isDigit {c : Char} (digit : isDigit c = true) :
    isGap c = false := by
  cases gap : isGap c with
  | false => rfl
  | true =>
      simp only [isGap, Bool.or_eq_true, beq_iff_eq] at gap
      rcases gap with ((rfl | rfl) | rfl) | rfl <;>
        exact absurd digit (by decide)

theorem ended_append (gaps : Gaps) {rest : List Char} (ended : Ended rest) :
    Ended (gaps.text ++ rest) := by
  cases blanks : gaps.text with
  | nil => exact ended
  | cons blank others =>
      apply ended_cons
      left
      exact gaps.blank blank (by simp [blanks])

theorem IsValue.exists_cons {text : List Char} (value : IsValue text) :
    ∃ c more, text = c :: more ∧ isGap c = false ∧ c ≠ ']' := by
  cases value with
  | word named =>
      simp only [List.mem_cons, List.not_mem_nil, or_false] at named
      rcases named with rfl | rfl | rfl <;>
        exact ⟨_, _, rfl, by decide, by decide⟩
  | number numeral =>
      obtain ⟨c, more, begins, rfl | digit⟩ := numeral.exists_cons
      · exact ⟨'-', more, begins, by decide, by decide⟩
      · exact ⟨c, more, begins, isGap_of_isDigit digit,
          ne_of_isDigit digit (by decide)⟩
  | string literal => exact ⟨'"', _, rfl, by decide, by decide⟩
  | array gaps parts => exact ⟨'[', _, rfl, by decide, by decide⟩
  | object gaps parts => exact ⟨'{', _, rfl, by decide, by decide⟩

section Simple

variable {calls : Nat}

theorem skipValue_gaps (gaps : Gaps) (rest : List Char) :
    skipValue calls (gaps.text ++ rest) = skipValue calls rest := by
  cases calls with
  | zero => rw [skipValue, skipValue]
  | succ calls => rw [skipValue, skipValue, skipGaps_append]

theorem skipValue_skipGaps (text : List Char) :
    skipValue calls (skipGaps text) = skipValue calls text := by
  cases calls with
  | zero => rw [skipValue, skipValue]
  | succ calls => rw [skipValue, skipValue, skipGaps_skipGaps]

theorem skipValue_digit {c : Char} (digit : isDigit c = true)
    (rest : List Char) :
    skipValue (calls + 1) (c :: rest) = skipUnsigned (c :: rest) := by
  have differs {d : Char} {more : List Char} (other : isDigit d = false) :
      c :: rest ≠ d :: more :=
    fun same => ne_of_isDigit digit other (List.cons.inj same).1
  rw [skipValue, skipGaps_cons (isGap_of_isDigit digit)]
  split
  next same => cases same
  next same => exact absurd same (differs (by decide))
  next same => exact absurd same (differs (by decide))
  next same => exact absurd same (differs (by decide))
  next same => exact absurd same (differs (by decide))
  next same => exact absurd same (differs (by decide))
  next same => exact absurd same (differs (by decide))
  next same => exact absurd same (differs (by decide))
  next same =>
    obtain ⟨rfl, rfl⟩ := List.cons.inj same
    exact if_pos digit

/-- A value that is skipped whatever goes on behind it, with no more calls than
it has characters. -/
def Skips (text : List Char) : Prop :=
  ∀ calls rest, text.length ≤ calls + 1 → Ended rest →
    skipValue (calls + 1) (text ++ rest) = .ok rest

theorem skips_word {text : List Char}
    (named : text ∈ ["null".toList, "true".toList, "false".toList]) :
    Skips text := by
  intro calls rest _ _
  simp only [List.mem_cons, List.not_mem_nil, or_false] at named
  rcases named with rfl | rfl | rfl <;> rfl

theorem skips_number (numeral : Numeral) : Skips numeral.text := by
  intro calls rest _ ended
  have skips := skipUnsigned_append numeral ended
  rw [Numeral.text]
  cases numeral.negative with
  | true =>
      simp only [if_true, List.cons_append, List.nil_append]
      rw [skipValue, skipGaps_cons (by decide)]
      exact skips
  | false =>
      obtain ⟨c, more, begins, digit⟩ := numeral.whole.exists_cons
      simp only [Bool.false_eq_true, if_false, begins, List.cons_append,
        List.nil_append] at skips ⊢
      rw [skipValue_digit digit, skips]

theorem skips_string (literal : Literal) : Skips literal.text := by
  intro calls rest _ _
  rw [Literal.text, List.append_assoc, List.cons_append, skipValue,
    skipGaps_cons (by decide)]
  exact skipString_pieces literal.pieces rest

theorem skipValue_padded {padded : Padded} (value : IsValue padded.text)
    (skips : Skips padded.text) (enough : padded.whole.length ≤ calls)
    {rest : List Char} (ended : Ended rest) :
    skipValue calls (padded.whole ++ rest) =
      .ok (padded.after.text ++ rest) := by
  obtain ⟨c, more, begins, _⟩ := value.exists_cons
  rw [Padded.whole] at enough
  simp only [List.length_append] at enough
  have some : padded.text.length = more.length + 1 := by
    rw [begins, List.length_cons]
  obtain ⟨less, rfl⟩ : ∃ less, calls = less + 1 :=
    Nat.exists_eq_add_one_of_ne_zero (by omega)
  rw [Padded.whole_append, skipValue_gaps]
  exact skips less _ (by omega) (ended_append padded.after ended)

end Simple

section Joined

/-- A step from one piece to the next skips the piece, and either the closing
bracket, which ends the steps, or a comma. -/
def Steps (skips : Nat → List Char → Except Malformed (List Char))
    (close : Char) (piece : List Char) : Prop :=
  ∀ calls mark more, piece.length ≤ calls → mark = close ∨ mark = ',' →
    skips (calls + 1) (piece ++ mark :: more) =
      if mark = close then .ok more else skips calls more

/-- Pieces with commas between them are skipped together with the bracket
behind them.  Each piece takes a call. -/
theorem skip_joined {skips : Nat → List Char → Except Malformed (List Char)}
    {close : Char} (noComma : close ≠ ',') {pieces : List (List Char)}
    (some : pieces ≠ []) (steps : ∀ piece ∈ pieces, Steps skips close piece)
    {calls : Nat} (enough : (joinSegments ',' pieces).length < calls)
    (rest : List Char) :
    skips calls (joinSegments ',' pieces ++ close :: rest) = .ok rest := by
  induction pieces generalizing calls with
  | nil => exact absurd rfl some
  | cons first others ih =>
      rw [List.forall_mem_cons] at steps
      obtain ⟨less, rfl⟩ : ∃ less, calls = less + 1 :=
        Nat.exists_eq_add_one_of_ne_zero (by omega)
      cases others with
      | nil =>
          have fits : first.length ≤ less := by
            rw [joinSegments] at enough
            omega
          rw [joinSegments, steps.1 less close rest fits (Or.inl rfl),
            if_pos rfl]
      | cons second more =>
          rw [joinSegments_cons first (List.cons_ne_nil second more)]
            at enough ⊢
          rw [List.length_append, List.length_cons] at enough
          rw [List.append_assoc, List.cons_append,
            steps.1 less ',' _ (by omega) (Or.inr rfl),
            if_neg (Ne.symm noComma)]
          exact ih (List.cons_ne_nil second more) steps.2 (by omega)

theorem steps_item {item : Padded} (value : IsValue item.text)
    (skips : Skips item.text) : Steps skipItems ']' item.whole := by
  intro calls mark more enough isMark
  have ends : Ended (mark :: more) := ended_cons (by tauto) more
  have shown : isGap mark = false := by
    rcases isMark with rfl | rfl <;> rfl
  rw [skipItems, skipValue_padded value skips enough ends]
  simp only [skipGaps_append, skipGaps_cons shown]
  rcases isMark with rfl | rfl <;> rfl

theorem Member.length_value_le (member : Member) :
    member.value.whole.length ≤ member.whole.length := by
  rw [whole, List.length_append, List.length_cons]
  omega

theorem steps_member {member : Member} (value : IsValue member.value.text)
    (skips : Skips member.value.text) :
    Steps skipMembers '}' member.whole := by
  intro calls mark more enough isMark
  have fits := Nat.le_trans member.length_value_le enough
  have ends : Ended (mark :: more) := ended_cons (by tauto) more
  have shown : isGap mark = false := by
    rcases isMark with rfl | rfl <;> rfl
  rw [Member.whole_append, skipMembers, skipGaps_append,
    skipGaps_cons (by decide)]
  simp only [skipString_pieces, skipGaps_append,
    skipGaps_cons (show isGap ':' = false by decide),
    skipValue_padded value skips fits ends, skipGaps_cons shown]
  rcases isMark with rfl | rfl <;> rfl

/-- Behind the first of several pieces there is a comma for each other one. -/
theorem joinSegments_map_eq {α : Type} (whole : α → List Char) (first : α)
    (others : List α) :
    ∃ more, joinSegments ',' ((first :: others).map whole) =
      whole first ++ more ∧ others.length ≤ more.length := by
  rw [List.map_cons]
  induction others generalizing first with
  | nil => exact ⟨[], (List.append_nil _).symm, Nat.zero_le 0⟩
  | cons second rest ih =>
      obtain ⟨more, joined, enough⟩ := ih second
      refine ⟨_, joinSegments_cons _ (by simp), ?_⟩
      rw [List.map_cons, joined, List.length_cons, List.length_cons,
        List.length_append]
      omega

/-- Behind the first of several pieces stands a comma or the closing bracket. -/
theorem joinSegments_append_eq {α : Type} (whole : α → List Char) (first : α)
    (others : List α) (close : Char) (rest : List Char) :
    ∃ mark later, joinSegments ',' ((first :: others).map whole) ++
      close :: rest = whole first ++ mark :: later ∧
        (mark = close ∨ mark = ',') := by
  cases others with
  | nil => exact ⟨close, rest, rfl, Or.inl rfl⟩
  | cons second more =>
      refine ⟨',', joinSegments ',' ((second :: more).map whole) ++
        close :: rest, ?_, Or.inr rfl⟩
      rw [List.map_cons, joinSegments_cons _ (by simp), List.append_assoc,
        List.cons_append]

variable {calls : Nat}

theorem skipItems_skipGaps (text : List Char) :
    skipItems calls (skipGaps text) = skipItems calls text := by
  cases calls with
  | zero => rw [skipItems, skipItems]
  | succ calls => rw [skipItems, skipItems, skipValue_skipGaps]

theorem skipMembers_skipGaps (text : List Char) :
    skipMembers calls (skipGaps text) = skipMembers calls text := by
  cases calls with
  | zero => rw [skipMembers, skipMembers]
  | succ calls => rw [skipMembers, skipMembers, skipGaps_skipGaps]

theorem skips_array {items : List Padded} (gaps : Gaps)
    (values : ∀ item ∈ items, IsValue item.text)
    (skips : ∀ item ∈ items, Skips item.text) :
    Skips (arrayText gaps items) := by
  intro calls rest enough _
  simp only [arrayText, List.length_append, List.length_cons,
    List.length_nil] at enough
  simp only [arrayText, List.append_assoc, List.cons_append, List.nil_append]
  rw [skipValue, skipGaps_cons (by decide)]
  simp only [skipGaps_append]
  cases items with
  | nil => rfl
  | cons first others =>
      have steps : ∀ piece ∈ (first :: others).map Padded.whole,
          Steps skipItems ']' piece := by
        intro piece member
        obtain ⟨item, listed, rfl⟩ := List.mem_map.1 member
        exact steps_item (values item listed) (skips item listed)
      have skipped := skip_joined (by decide) (by simp) steps
        (show _ < calls by omega) rest
      obtain ⟨more, begins, _⟩ :=
        joinSegments_map_eq Padded.whole first others
      obtain ⟨c, later, text, shown, noBracket⟩ :=
        (values first List.mem_cons_self).exists_cons
      rw [← skipItems_skipGaps] at skipped
      simp only [begins, Padded.whole, text, List.append_assoc,
        List.cons_append, skipGaps_append, skipGaps_cons shown]
        at skipped ⊢
      split
      next same => cases same
      next same => exact absurd (List.cons.inj same).1 noBracket
      next => exact skipped

theorem skips_object {members : List Member} (gaps : Gaps)
    (values : ∀ member ∈ members, IsValue member.value.text)
    (skips : ∀ member ∈ members, Skips member.value.text) :
    Skips (objectText gaps members) := by
  intro calls rest enough _
  simp only [objectText, List.length_append, List.length_cons,
    List.length_nil] at enough
  simp only [objectText, List.append_assoc, List.cons_append, List.nil_append]
  rw [skipValue, skipGaps_cons (by decide)]
  simp only [skipGaps_append]
  cases members with
  | nil => rfl
  | cons first others =>
      have steps : ∀ piece ∈ (first :: others).map Member.whole,
          Steps skipMembers '}' piece := by
        intro piece member
        obtain ⟨entry, listed, rfl⟩ := List.mem_map.1 member
        exact steps_member (values entry listed) (skips entry listed)
      have skipped := skip_joined (by decide) (by simp) steps
        (show _ < calls by omega) rest
      obtain ⟨more, begins, _⟩ :=
        joinSegments_map_eq Member.whole first others
      rw [← skipMembers_skipGaps] at skipped
      simp only [begins, List.append_assoc, Member.whole_append,
        skipGaps_append] at skipped ⊢
      exact skipped

end Joined

/-- Whatever the grammar admits is skipped. -/
theorem IsValue.skips {text : List Char} (value : IsValue text) :
    Skips text := by
  induction value with
  | word named => exact skips_word named
  | number numeral => exact skips_number numeral
  | string literal => exact skips_string literal
  | array gaps parts ih => exact skips_array gaps parts ih
  | object gaps parts ih => exact skips_object gaps parts ih

theorem skip_padded {padded : Padded} (value : IsValue padded.text)
    {rest : List Char} (ended : Ended rest) :
    skip (padded.whole ++ rest) = .ok (padded.after.text ++ rest) := by
  apply skipValue_padded value value.skips _ ended
  rw [List.length_append]
  omega

end Json

end KeyCustody
