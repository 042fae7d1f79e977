import KeyCustody.Json.Skip
import KeyCustody.Proofs.Text.Percent

/-!
# String literals

A string literal is a sequence of pieces between quotation marks: characters as
they are, letters behind a backslash, and code units in hexadecimal.  It spells
the text that has its code units, if there is one; a half of a pair of units
that stands alone spells nothing.

Reading a literal gives the text that it spells, and fails if it spells none.
Skipping goes over every literal.
-/

namespace KeyCustody

namespace Json

open Text

/-- A hexadecimal digit, with a capital letter or a small one. -/
structure HexDigit where
  value : Fin 16
  capital : Bool

def HexDigit.char (digit : HexDigit) : Char :=
  if digit.capital then upperHexDigit digit.value
  else Nat.digitChar digit.value

/-- The letters that may stand behind a backslash, with what they mean. -/
def escapes : List (Char × Char) :=
  [('"', '"'), ('\\', '\\'), ('/', '/'), ('b', '\x08'), ('f', '\x0c'),
    ('n', '\n'), ('r', '\r'), ('t', '\t')]

/-- A part of a string literal. -/
inductive Piece
  | plain (c : Char) (visible : 0x20 ≤ c.toNat) (noQuote : c ≠ '"')
      (noBackslash : c ≠ '\\')
  | letter (shown meant : Char) (listed : (shown, meant) ∈ escapes)
  | unit (first second third fourth : HexDigit)

/-- The UTF-16 code units of a character. -/
def codeUnits (c : Char) : List Nat :=
  if c.toNat < 0x10000 then [c.toNat]
  else [0xD800 + (c.toNat - 0x10000) / 0x400,
    0xDC00 + (c.toNat - 0x10000) % 0x400]

def unitValue (first second third fourth : HexDigit) : Nat :=
  ((first.value * 16 + second.value) * 16 + third.value) * 16 + fourth.value

namespace Piece

def text : Piece → List Char
  | plain c _ _ _ => [c]
  | letter shown _ _ => ['\\', shown]
  | unit first second third fourth =>
      ['\\', 'u', first.char, second.char, third.char, fourth.char]

/-- The code units that a piece writes. -/
def units : Piece → List Nat
  | plain c _ _ _ => codeUnits c
  | letter _ meant _ => codeUnits meant
  | unit first second third fourth => [unitValue first second third fourth]

end Piece

/-- A string literal between its quotation marks. -/
structure Literal where
  pieces : List Piece

namespace Literal

def text (literal : Literal) : List Char :=
  '"' :: literal.pieces.flatMap Piece.text ++ ['"']

/-- A literal spells the text that has its code units. -/
def Spells (literal : Literal) (text : String) : Prop :=
  literal.pieces.flatMap Piece.units = text.toList.flatMap codeUnits

instance (literal : Literal) (text : String) :
    Decidable (literal.Spells text) :=
  inferInstanceAs (Decidable (_ = _))

end Literal

section Units

variable {c : Char}

theorem toNat_range (c : Char) :
    c.toNat < 0xD800 ∨ 0xDFFF < c.toNat ∧ c.toNat < 0x110000 :=
  c.valid

theorem codeUnits_of_lt (short : c.toNat < 0x10000) :
    codeUnits c = [c.toNat] :=
  if_pos short

theorem codeUnits_of_le (long : 0x10000 ≤ c.toNat) :
    codeUnits c = [0xD800 + (c.toNat - 0x10000) / 0x400,
      0xDC00 + (c.toNat - 0x10000) % 0x400] :=
  if_neg (Nat.not_lt.2 long)

/-- The units of a character begin with one that is no second half. -/
theorem codeUnits_eq_cons (c : Char) :
    ∃ unit later, codeUnits c = unit :: later ∧ isLowUnit unit = false := by
  have range := toNat_range c
  rcases Nat.lt_or_ge c.toNat 0x10000 with short | long
  · refine ⟨_, _, codeUnits_of_lt short, ?_⟩
    simp [isLowUnit]
    omega
  · refine ⟨_, _, codeUnits_of_le long, ?_⟩
    simp [isLowUnit]
    omega

/-- No character's units are the front of another's. -/
theorem codeUnits_append_inj {d : Char} {front back : List Nat}
    (same : codeUnits c ++ front = codeUnits d ++ back) :
    c = d ∧ front = back := by
  have cRange := toNat_range c
  have dRange := toNat_range d
  rcases Nat.lt_or_ge c.toNat 0x10000 with short | long <;>
    rcases Nat.lt_or_ge d.toNat 0x10000 with dShort | dLong
  · rw [codeUnits_of_lt short, codeUnits_of_lt dShort] at same
    obtain ⟨equal, rest⟩ := List.cons.inj same
    exact ⟨Char.toNat_inj.1 equal, rest⟩
  · rw [codeUnits_of_lt short, codeUnits_of_le dLong] at same
    have equal := (List.cons.inj same).1
    omega
  · rw [codeUnits_of_le long, codeUnits_of_lt dShort] at same
    have equal := (List.cons.inj same).1
    omega
  · rw [codeUnits_of_le long, codeUnits_of_le dLong] at same
    obtain ⟨high, rest⟩ := List.cons.inj same
    obtain ⟨low, rest⟩ := List.cons.inj rest
    exact ⟨Char.toNat_inj.1 (by omega), rest⟩

theorem codeUnits_injective {first second : List Char}
    (same : first.flatMap codeUnits = second.flatMap codeUnits) :
    first = second := by
  have some (c : Char) (more : List Nat) : codeUnits c ++ more ≠ [] := by
    obtain ⟨unit, later, begins, _⟩ := codeUnits_eq_cons c
    simp [begins]
  induction first generalizing second with
  | nil =>
      cases second with
      | nil => rfl
      | cons d others => exact absurd same.symm (some _ _)
  | cons c rest ih =>
      cases second with
      | nil => exact absurd same (some _ _)
      | cons d others =>
          rw [List.flatMap_cons, List.flatMap_cons] at same
          obtain ⟨rfl, behind⟩ := codeUnits_append_inj same
          rw [ih behind]

theorem toNat_ofNat {n : Nat} (valid : n.isValidChar) :
    (Char.ofNat n).toNat = n := by
  rw [Char.ofNat, dif_pos valid]
  rfl

theorem codeUnits_pairedChar {high low : Nat} (first : isHighUnit high = true)
    (second : isLowUnit low = true) :
    codeUnits (pairedChar high low) = [high, low] := by
  simp only [isHighUnit, isLowUnit, Bool.and_eq_true, decide_eq_true_iff]
    at first second
  have value : (pairedChar high low).toNat =
      0x10000 + (high - 0xD800) * 0x400 + (low - 0xDC00) :=
    toNat_ofNat (.inr (by omega))
  have firstUnit : 0xD800 + ((pairedChar high low).toNat - 0x10000) / 0x400 =
      high := by
    omega
  have secondUnit : 0xDC00 + ((pairedChar high low).toNat - 0x10000) % 0x400 =
      low := by
    omega
  rw [codeUnits_of_le (by omega), firstUnit, secondUnit]

theorem codeUnits_ofNat {unit : Nat} (small : unit < 0x10000)
    (noHigh : isHighUnit unit = false) (noLow : isLowUnit unit = false) :
    codeUnits (Char.ofNat unit) = [unit] := by
  simp only [isHighUnit, isLowUnit, Bool.and_eq_false_iff,
    decide_eq_false_iff_not] at noHigh noLow
  have value : (Char.ofNat unit).toNat = unit := by
    apply toNat_ofNat
    rw [Nat.isValidChar]
    omega
  rw [codeUnits_of_lt (by omega), value]

end Units

theorem hexValue?_char (digit : HexDigit) :
    hexValue? digit.char = some digit.value.val := by
  have small : ∀ n ∈ List.range 16, hexValue? (Nat.digitChar n) = some n := by
    decide
  unfold HexDigit.char
  split
  · exact hexValue?_upperHexDigit digit.value.isLt
  · exact small _ (List.mem_range.2 digit.value.isLt)

section Units

variable (a b c d : HexDigit)

theorem hexUnit?_chars :
    hexUnit? a.char b.char c.char d.char = some (unitValue a b c d) := by
  simp [hexUnit?, hexValue?_char, unitValue]

theorem unitValue_lt : unitValue a b c d < 0x10000 := by
  unfold unitValue
  omega

end Units

section Pieces

variable {c shown meant : Char} (rest : List Char)

theorem escaped?_of_listed (listed : (shown, meant) ∈ escapes) :
    escaped? shown = some meant ∧ shown ≠ 'u' ∧ meant.toNat < 0x80 := by
  have all : ∀ entry ∈ escapes, escaped? entry.1 = some entry.2 ∧
      entry.1 ≠ 'u' ∧ entry.2.toNat < 0x80 := by
    decide
  exact all (shown, meant) listed

theorem scanString_plain (visible : 0x20 ≤ c.toNat) (noQuote : c ≠ '"')
    (noBackslash : c ≠ '\\') :
    scanString (c :: rest) = consScan c (scanString rest) := by
  rw [scanString, if_neg (Nat.not_lt.2 visible)] <;> simp_all

theorem scanString_letter (listed : (shown, meant) ∈ escapes) :
    scanString ('\\' :: shown :: rest) = consScan meant (scanString rest) := by
  obtain ⟨means, other, _⟩ := escaped?_of_listed listed
  rw [scanString, means] <;> simp_all

end Pieces

section Halves

variable {a b c d : HexDigit} (rest : List Char)

theorem scanString_unit (noHigh : isHighUnit (unitValue a b c d) = false)
    (noLow : isLowUnit (unitValue a b c d) = false) :
    scanString ((Piece.unit a b c d).text ++ rest) =
      consScan (Char.ofNat (unitValue a b c d)) (scanString rest) := by
  simp only [Piece.text, List.cons_append, List.nil_append]
  rw [scanString, hexUnit?_chars]
  simp [noHigh, noLow]

theorem scanString_low (low : isLowUnit (unitValue a b c d) = true) :
    scanString ((Piece.unit a b c d).text ++ rest) = .error .unexpected := by
  simp only [Piece.text, List.cons_append, List.nil_append]
  rw [scanString, hexUnit?_chars]
  simp [low]

variable (high : isHighUnit (unitValue a b c d) = true)
include high

theorem noLow_of_high : isLowUnit (unitValue a b c d) = false := by
  simp only [isHighUnit, isLowUnit, Bool.and_eq_true, decide_eq_true_iff,
    Bool.and_eq_false_iff, decide_eq_false_iff_not] at high ⊢
  omega

theorem scanString_high (e f g h : HexDigit) :
    scanString ((Piece.unit a b c d).text ++
        ((Piece.unit e f g h).text ++ rest)) =
      if isLowUnit (unitValue e f g h) then
        consScan (pairedChar (unitValue a b c d) (unitValue e f g h))
          (scanString rest)
      else .error .unexpected := by
  simp only [Piece.text, List.cons_append, List.nil_append]
  rw [scanString, hexUnit?_chars]
  simp [noLow_of_high high, high, hexUnit?_chars]

/-- Behind a first half no character may come that begins no unit. -/
theorem exists_scanString_error {next : List Char}
    (noUnit : ∀ more, next ≠ '\\' :: 'u' :: more) :
    ∃ malformed, scanString ((Piece.unit a b c d).text ++ next) =
      .error malformed := by
  simp only [Piece.text, List.cons_append, List.nil_append]
  rw [scanString, hexUnit?_chars]
  simp only [noLow_of_high high, high, Bool.false_eq_true, if_false, if_true]
  split
  next more => exact absurd rfl (noUnit _)
  next more _ => exact absurd rfl (noUnit _)
  · exact ⟨_, rfl⟩
  · exact ⟨_, rfl⟩
  · exact ⟨_, rfl⟩

end Halves

/-- Reading pieces up to a quotation mark gives the characters whose units they
write, and fails if there are none. -/
def ReadRightly (rest : List Char) (pieces : List Piece) : Prop :=
  (∃ chars : List Char,
    pieces.flatMap Piece.units = chars.flatMap codeUnits ∧
    scanString (pieces.flatMap Piece.text ++ '"' :: rest) =
      .ok (chars, rest)) ∨
  ∃ malformed,
    (∀ chars : List Char,
      pieces.flatMap Piece.units ≠ chars.flatMap codeUnits) ∧
    scanString (pieces.flatMap Piece.text ++ '"' :: rest) = .error malformed

section Reading

variable {rest : List Char}

theorem exists_of_units_append {c : Char} {units : List Nat}
    {chars : List Char}
    (same : codeUnits c ++ units = chars.flatMap codeUnits) :
    ∃ more : List Char, units = more.flatMap codeUnits := by
  cases chars with
  | nil =>
      obtain ⟨unit, later, begins, _⟩ := codeUnits_eq_cons c
      rw [begins] at same
      cases same
  | cons d more =>
      rw [List.flatMap_cons] at same
      exact ⟨more, (codeUnits_append_inj same).2⟩

/-- Pieces that are read as one character may stand before any others. -/
theorem readRightly_append (front : List Piece) {later : List Piece} (c : Char)
    (reads : ∀ text, scanString (front.flatMap Piece.text ++ text) =
      consScan c (scanString text))
    (writes : front.flatMap Piece.units = codeUnits c)
    (behind : ReadRightly rest later) : ReadRightly rest (front ++ later) := by
  unfold ReadRightly
  rw [List.flatMap_append, List.flatMap_append, List.append_assoc, reads,
    writes]
  rcases behind with ⟨chars, same, read⟩ | ⟨malformed, none, failed⟩
  · refine Or.inl ⟨c :: chars, ?_, ?_⟩
    · rw [List.flatMap_cons, same]
    · rw [read]
      rfl
  · refine Or.inr ⟨malformed, fun chars same => ?_, ?_⟩
    · obtain ⟨more, same⟩ := exists_of_units_append same
      exact none more same
    · rw [failed]
      rfl

section Halves

variable {a b c d : HexDigit} {later : List Piece}

/-- A second half stands for nothing unless a first one is before it. -/
theorem readRightly_low (low : isLowUnit (unitValue a b c d) = true) :
    ReadRightly rest (.unit a b c d :: later) := by
  refine Or.inr ⟨.unexpected, fun chars same => ?_, ?_⟩
  · cases chars with
    | nil => cases same
    | cons first more =>
        obtain ⟨unit, others, begins, noLow⟩ := codeUnits_eq_cons first
        rw [List.flatMap_cons, List.flatMap_cons, begins] at same
        have equal : unitValue a b c d = unit := (List.cons.inj same).1
        rw [equal, noLow] at low
        cases low
  · rw [List.flatMap_cons, List.append_assoc, scanString_low _ low]

theorem exists_low_of_high {high : Nat} (first : isHighUnit high = true)
    {units : List Nat} {chars : List Char}
    (same : high :: units = chars.flatMap codeUnits) :
    ∃ low more, units = low :: more ∧ isLowUnit low = true := by
  cases chars with
  | nil => cases same
  | cons c more =>
      have range := toNat_range c
      rw [List.flatMap_cons] at same
      rcases Nat.lt_or_ge c.toNat 0x10000 with short | long
      · rw [codeUnits_of_lt short] at same
        have equal := (List.cons.inj same).1
        simp only [isHighUnit, Bool.and_eq_true, decide_eq_true_iff] at first
        omega
      · rw [codeUnits_of_le long] at same
        refine ⟨_, _, (List.cons.inj same).2, ?_⟩
        simp [isLowUnit]
        omega

theorem noLow_of_units {units : List Nat} {low : Nat} {more : List Nat}
    {c : Char} (same : codeUnits c ++ units = low :: more) :
    isLowUnit low = false := by
  obtain ⟨unit, others, begins, noLow⟩ := codeUnits_eq_cons c
  rw [begins] at same
  rwa [← (List.cons.inj same).1]

/-- A first half stands for nothing unless a second one is behind it. -/
theorem readRightly_high (high : isHighUnit (unitValue a b c d) = true)
    (behind : ∀ e f g h more, later = .unit e f g h :: more →
      ReadRightly rest more) :
    ReadRightly rest (.unit a b c d :: later) := by
  -- The units behind the half do not begin with a second one.
  have alone (none : ∀ low more, later.flatMap Piece.units = low :: more →
      isLowUnit low = false) (chars : List Char) :
      (Piece.unit a b c d :: later).flatMap Piece.units ≠
        chars.flatMap codeUnits := by
    intro same
    obtain ⟨low, more, begins, second⟩ := exists_low_of_high high same
    rw [none low more begins] at second
    cases second
  have fails {next : List Char} (text : later.flatMap Piece.text ++
      '"' :: rest = next) (noUnit : ∀ more, next ≠ '\\' :: 'u' :: more) :
      ∃ malformed, scanString ((Piece.unit a b c d :: later).flatMap
        Piece.text ++ '"' :: rest) = .error malformed := by
    rw [List.flatMap_cons, List.append_assoc, text]
    exact exists_scanString_error high noUnit
  cases later with
  | nil =>
      obtain ⟨malformed, failed⟩ := fails rfl (by simp)
      exact Or.inr ⟨malformed, alone (by simp), failed⟩
  | cons second more =>
      cases second with
      | plain shown visible noQuote noBackslash =>
          obtain ⟨malformed, failed⟩ := fails rfl
            (by simp [Piece.text, noBackslash])
          exact Or.inr ⟨malformed,
            alone fun low more begins => noLow_of_units begins, failed⟩
      | letter shown meant listed =>
          obtain ⟨malformed, failed⟩ := fails rfl
            (by simp [Piece.text, (escaped?_of_listed listed).2.1])
          exact Or.inr ⟨malformed,
            alone fun low more begins => noLow_of_units begins, failed⟩
      | unit e f g h =>
          cases low : isLowUnit (unitValue e f g h) with
          | true =>
              refine readRightly_append [.unit a b c d, .unit e f g h]
                (pairedChar (unitValue a b c d) (unitValue e f g h)) ?_ ?_
                (behind e f g h more rfl)
              · intro text
                simp [List.flatMap_cons, scanString_high, high, low]
              · exact (codeUnits_pairedChar high low).symm
          | false =>
              refine Or.inr ⟨.unexpected, alone ?_, ?_⟩
              · intro unit others begins
                obtain rfl : unitValue e f g h = unit :=
                  (List.cons.inj begins).1
                exact low
              · simp [List.flatMap_cons, scanString_high, high, low]

end Halves

/-- Reading goes right for all pieces; a pair of halves is read at once, so the
pieces are taken by their number. -/
theorem readRightly (rest : List Char) (pieces : List Piece) :
    ReadRightly rest pieces := by
  match pieces with
  | [] => exact Or.inl ⟨[], rfl, by simp⟩
  | .plain c visible noQuote noBackslash :: later =>
      exact readRightly_append [_] c
        (fun text => scanString_plain text visible noQuote noBackslash)
        (List.flatMap_singleton _ _) (readRightly rest later)
  | .letter shown meant listed :: later =>
      exact readRightly_append [_] meant
        (fun text => scanString_letter text listed)
        (List.flatMap_singleton _ _) (readRightly rest later)
  | .unit a b c d :: later =>
      cases low : isLowUnit (unitValue a b c d) with
      | true => exact readRightly_low low
      | false =>
          cases high : isHighUnit (unitValue a b c d) with
          | true =>
              exact readRightly_high high
                fun e f g h more same => readRightly rest more
          | false =>
              exact readRightly_append [.unit a b c d]
                (Char.ofNat (unitValue a b c d))
                (fun text => scanString_unit text high low)
                (codeUnits_ofNat (unitValue_lt a b c d) high low).symm
                (readRightly rest later)
termination_by pieces.length

end Reading

namespace Literal

variable {literal : Literal}

theorem Spells.unique {first second : String} (spells : literal.Spells first)
    (again : literal.Spells second) : first = second :=
  String.toList_injective (codeUnits_injective (spells.symm.trans again))

/-- Reading a literal gives the text that it spells. -/
theorem Spells.scanString {text : String} (spells : literal.Spells text)
    (rest : List Char) :
    Json.scanString (literal.pieces.flatMap Piece.text ++ '"' :: rest) =
      .ok (text.toList, rest) := by
  rcases readRightly rest literal.pieces with
    ⟨chars, same, read⟩ | ⟨malformed, none, _⟩
  · rw [read, codeUnits_injective (same.symm.trans spells)]
  · exact absurd spells (none text.toList)

theorem scanString_of_unspelled (none : ∀ text, ¬ literal.Spells text)
    (rest : List Char) :
    ∃ malformed,
      Json.scanString (literal.pieces.flatMap Piece.text ++ '"' :: rest) =
        .error malformed := by
  rcases readRightly rest literal.pieces with
    ⟨chars, same, _⟩ | ⟨malformed, _, failed⟩
  · refine absurd ?_ (none (.ofList chars))
    rwa [Spells, String.toList_ofList]
  · exact ⟨malformed, failed⟩

end Literal

theorem toNat_lt_of_hexValue? {c : Char} {value : Nat}
    (reads : hexValue? c = some value) : c.toNat < 0x80 := by
  refine Nat.lt_of_not_ge fun beyond => ?_
  have above (d : Char) (small : d.toNat < 0x80) : ¬ c ≤ d := by
    rw [Char.le_def, UInt32.le_iff_toNat_le]
    exact fun least => Nat.not_lt.2 beyond (Nat.lt_of_le_of_lt least small)
  simp [hexValue?, isDigit, above '9' (by decide), above 'f' (by decide),
    above 'F' (by decide)] at reads

theorem exists_hexDigit {c : Char} {value : Nat}
    (reads : hexValue? c = some value) : ∃ digit : HexDigit, digit.char = c := by
  have all : ∀ n ∈ List.range 0x80, (hexValue? (Char.ofNat n)).isSome →
      ∃ value : Fin 16, ∃ capital, HexDigit.char ⟨value, capital⟩ =
        Char.ofNat n := by
    decide +kernel
  have found := all c.toNat (List.mem_range.2 (toNat_lt_of_hexValue? reads))
  rw [Char.ofNat_toNat, reads] at found
  obtain ⟨value, capital, same⟩ := found rfl
  exact ⟨⟨value, capital⟩, same⟩

theorem exists_hexDigits {a b c d : Char} {unit : Nat}
    (reads : hexUnit? a b c d = some unit) :
    ∃ e f g h : HexDigit, e.char = a ∧ f.char = b ∧ g.char = c ∧ h.char = d := by
  simp only [hexUnit?, Option.bind_eq_bind, Option.bind_eq_some_iff] at reads
  obtain ⟨_, first, _, second, _, third, _, fourth, _⟩ := reads
  obtain ⟨e, rfl⟩ := exists_hexDigit first
  obtain ⟨f, rfl⟩ := exists_hexDigit second
  obtain ⟨g, rfl⟩ := exists_hexDigit third
  obtain ⟨h, rfl⟩ := exists_hexDigit fourth
  exact ⟨e, f, g, h, rfl, rfl, rfl, rfl⟩

theorem listed_of_escaped? {shown meant : Char}
    (means : escaped? shown = some meant) : (shown, meant) ∈ escapes := by
  unfold escaped? at means
  split at means <;> cases means <;> decide

theorem exists_of_consScan {c : Char} {scan : Scan (List Char)}
    {chars rest : List Char} (reads : consScan c scan = .ok (chars, rest)) :
    ∃ later, scan = .ok (later, rest) := by
  cases scan with
  | error malformed => cases reads
  | ok read =>
      obtain ⟨_, rfl⟩ := Prod.mk.inj (Except.ok.inj reads)
      exact ⟨read.1, rfl⟩

/-- What is read as a string is the rest of a literal. -/
theorem exists_pieces_of_scanString {text chars rest : List Char}
    (reads : scanString text = .ok (chars, rest)) :
    ∃ pieces : List Piece, text = pieces.flatMap Piece.text ++ '"' :: rest := by
  fun_induction scanString text generalizing chars
  case case2 later =>
    obtain ⟨_, rfl⟩ := Prod.mk.inj (Except.ok.inj reads)
    exact ⟨[], rfl⟩
  case case6 _ first _ _ _ _ _ _ later _ second _ ih =>
    obtain ⟨_, read⟩ := exists_of_consScan reads
    obtain ⟨pieces, rfl⟩ := ih read
    obtain ⟨a, b, c, d, rfl, rfl, rfl, rfl⟩ := exists_hexDigits first
    obtain ⟨e, f, g, h, rfl, rfl, rfl, rfl⟩ := exists_hexDigits second
    exact ⟨.unit a b c d :: .unit e f g h :: pieces, rfl⟩
  case case12 later _ unit _ _ ih =>
    obtain ⟨_, read⟩ := exists_of_consScan reads
    obtain ⟨pieces, rfl⟩ := ih read
    obtain ⟨a, b, c, d, rfl, rfl, rfl, rfl⟩ := exists_hexDigits unit
    exact ⟨.unit a b c d :: pieces, rfl⟩
  case case15 c later _ _ meant means ih =>
    obtain ⟨_, read⟩ := exists_of_consScan reads
    obtain ⟨pieces, rfl⟩ := ih read
    exact ⟨.letter c meant (listed_of_escaped? means) :: pieces, rfl⟩
  case case18 c later noQuote _ _ noEnd noPair visible ih =>
    have noBackslash : c ≠ '\\' := by
      rintro rfl
      cases later with
      | nil => exact noEnd rfl rfl
      | cons d more => exact noPair d more rfl rfl
    obtain ⟨_, read⟩ := exists_of_consScan reads
    obtain ⟨pieces, rfl⟩ := ih read
    exact ⟨.plain c (Nat.not_lt.1 visible) noQuote noBackslash :: pieces, rfl⟩
  all_goals cases reads

/-- What is read as a string spells what it is read as. -/
theorem Literal.exists_of_scanString {text chars rest : List Char}
    (reads : Json.scanString text = .ok (chars, rest)) :
    ∃ literal : Literal, literal.Spells (.ofList chars) ∧
      text = literal.pieces.flatMap Piece.text ++ '"' :: rest := by
  obtain ⟨pieces, rfl⟩ := exists_pieces_of_scanString reads
  refine ⟨⟨pieces⟩, ?_, rfl⟩
  rcases readRightly rest pieces with ⟨found, same, read⟩ | ⟨_, _, failed⟩
  · rw [reads] at read
    obtain ⟨rfl, _⟩ := Prod.mk.inj (Except.ok.inj read)
    rwa [Spells, String.toList_ofList]
  · rw [reads] at failed
    cases failed

theorem skipString_piece (piece : Piece) (rest : List Char) :
    skipString (piece.text ++ rest) = skipString rest := by
  cases piece with
  | plain c visible noQuote noBackslash =>
      rw [Piece.text, List.singleton_append, skipString,
        if_neg (Nat.not_lt.2 visible)] <;> simp_all
  | letter shown meant listed =>
      obtain ⟨means, other, _⟩ := escaped?_of_listed listed
      simp only [Piece.text, List.cons_append, List.nil_append]
      rw [skipString, means] <;> simp_all
  | unit a b c d =>
      simp only [Piece.text, List.cons_append, List.nil_append]
      rw [skipString, hexUnit?_chars]

/-- Skipping goes over a literal, whatever it spells. -/
theorem skipString_pieces (pieces : List Piece) (rest : List Char) :
    skipString (pieces.flatMap Piece.text ++ '"' :: rest) = .ok rest := by
  induction pieces with
  | nil => rw [List.flatMap_nil, List.nil_append, skipString]
  | cons piece later ih =>
      rw [List.flatMap_cons, List.append_assoc, skipString_piece, ih]

/-- A letter beyond the first plane may be written as a pair of halves. -/
example : (Literal.mk [.unit ⟨13, false⟩ ⟨8, true⟩ ⟨3, true⟩ ⟨13, true⟩,
    .unit ⟨13, true⟩ ⟨14, true⟩ ⟨0, true⟩ ⟨0, true⟩]).Spells "😀" := by
  decide

end Json

end KeyCustody
