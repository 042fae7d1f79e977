import KeyCustody.Proofs.Json.Shape
import KeyCustody.Proofs.Json.Written

/-!
# What is written

A value is written as a text that writes the data of the value, be it on one
line or over several.  Texts and names are spelled by their literals, and
numbers by numerals.  So what is written is read as it was, but for those
numbers whose numerals are read as others.
-/

namespace KeyCustody

namespace Json

open Text

/-- A control character is written as a unit with four digits. -/
theorem exists_unit {n : Nat} (control : n < 0x20) :
    ∃ third fourth : HexDigit,
      (Piece.unit ⟨0, false⟩ ⟨0, false⟩ third fourth).text =
        ['\\', 'u'] ++ List.replicate (4 - (hexDigits n).length) '0' ++
          hexDigits n ∧
      unitValue ⟨0, false⟩ ⟨0, false⟩ third fourth = n := by
  have all : ∀ n ∈ List.range 0x20,
      (Piece.unit ⟨0, false⟩ ⟨0, false⟩ ⟨.ofNat 16 (n / 16), false⟩
        ⟨.ofNat 16 n, false⟩).text =
          ['\\', 'u'] ++ List.replicate (4 - (hexDigits n).length) '0' ++
            hexDigits n ∧
      unitValue ⟨0, false⟩ ⟨0, false⟩ ⟨.ofNat 16 (n / 16), false⟩
        ⟨.ofNat 16 n, false⟩ = n := by
    decide
  exact ⟨_, _, all n (List.mem_range.2 control)⟩

/-- A character is written as a piece of a literal that has its units. -/
theorem exists_piece (c : Char) :
    ∃ piece : Piece, piece.text = escapeChar c ∧ piece.units = codeUnits c := by
  unfold escapeChar
  split
  next quoted =>
    have same : c = '"' ∨ c = '\\' := by simpa using quoted
    rcases same with rfl | rfl
    · exact ⟨.letter '"' '"' (by decide), rfl, rfl⟩
    · exact ⟨.letter '\\' '\\' (by decide), rfl, rfl⟩
  next unquoted =>
    have other : c ≠ '"' ∧ c ≠ '\\' := by simpa using unquoted
    split
    next same => exact ⟨.letter 'b' c (by rw [same]; decide), rfl, rfl⟩
    split
    next same => exact ⟨.letter 't' c (by rw [same]; decide), rfl, rfl⟩
    split
    next same => exact ⟨.letter 'n' c (by rw [same]; decide), rfl, rfl⟩
    split
    next same => exact ⟨.letter 'f' c (by rw [same]; decide), rfl, rfl⟩
    split
    next same => exact ⟨.letter 'r' c (by rw [same]; decide), rfl, rfl⟩
    split
    next control =>
      obtain ⟨third, fourth, shown, value⟩ := exists_unit control
      refine ⟨_, shown, ?_⟩
      rw [Piece.units, value, codeUnits_of_lt (by omega)]
    next visible =>
      exact ⟨.plain c (Nat.not_lt.1 visible) other.1 other.2, rfl, rfl⟩

/-- A text is written as a literal that spells it. -/
theorem exists_literal (text : String) :
    ∃ literal : Literal, literal.text = writeString text ∧
      literal.Spells text := by
  choose piece shown writes using exists_piece
  refine ⟨⟨text.toList.map piece⟩, ?_, ?_⟩
  · rw [Literal.text, writeString, List.flatMap_map]
    simp only [shown]
  · rw [Literal.Spells, List.flatMap_map]
    simp only [writes]

theorem Writes.textOf {admits : Numeral → Prop} {depth : Nat}
    {text : List Char} {data : Data Numeral}
    (writes : Writes admits depth text data) : TextOf admits depth text data :=
  ⟨⟨noGaps, text, noGaps⟩, by simp [Padded.whole, noGaps], writes⟩

/-- How a value is laid out: what stands before the parts of brackets at a
level, and behind a colon. -/
structure Layout where
  line : Nat → Gaps
  colon : Gaps

namespace Layout

def flat : Layout := ⟨fun _ => noGaps, noGaps⟩

def indented : Layout where
  line level := ⟨newLine level, by
    intro c member
    rcases List.mem_cons.1 member with rfl | blank
    · rfl
    · rw [List.eq_of_mem_replicate blank]
      rfl⟩
  colon := ⟨[' '], by simp [isGap]⟩

def bracketed (layout : Layout) (level : Nat) (opening closing : Char)
    (parts : List (List Char)) : List Char :=
  if parts = [] then [opening, closing]
  else
    opening :: joinSegments ','
      (parts.map ((layout.line (level + 1)).text ++ ·)) ++
        (layout.line level).text ++ [closing]

variable (layout : Layout) (level : Nat) (opening closing : Char)

theorem bracketed_cons (first : List Char) (others : List (List Char)) :
    layout.bracketed level opening closing (first :: others) =
      opening :: (layout.line (level + 1)).text ++ first ++
        ((others.flatMap fun part =>
          ',' :: (layout.line (level + 1)).text ++ part) ++
            (layout.line level).text ++ [closing]) := by
  have joined : joinSegments ',' ((first :: others).map
      ((layout.line (level + 1)).text ++ ·)) =
        (layout.line (level + 1)).text ++ first ++ others.flatMap fun part =>
          ',' :: (layout.line (level + 1)).text ++ part := by
    induction others generalizing first with
    | nil => exact (List.append_nil _).symm
    | cons second rest ih =>
        rw [List.map_cons, joinSegments_cons _ (by simp), ih second,
          List.flatMap_cons]
        simp
  rw [bracketed, if_neg (List.cons_ne_nil _ _), joined]
  simp

end Layout

/-- A value in a layout, inside brackets of a level. -/
def lay (layout : Layout) (level : Nat) : Json → List Char
  | .null => "null".toList
  | .bool truth => writeBool truth
  | .int n => writeInt n
  | .float x => writeFloat x
  | .string text => writeString text
  | .array items =>
      layout.bracketed level '[' ']'
        (items.map fun item => item.lay layout (level + 1))
  | .object members =>
      layout.bracketed level '{' '}' (members.map fun member =>
        writeString member.1 ++
          ':' :: (layout.colon.text ++ member.2.lay layout (level + 1)))
termination_by value => value
decreasing_by
  · simpa using sizeOf_lt_of_item ‹_›
  · simpa using sizeOf_lt_of_member ‹_›

theorem writeItems_eq (items : List Json) :
    writeItems items = (items.flatMap fun item => ',' :: item.write) ++ [']'] := by
  induction items with
  | nil => rfl
  | cons item later ih => simp [writeItems, ih]

theorem writeMembers_eq (members : List (String × Json)) :
    writeMembers members = (members.flatMap fun member =>
      ',' :: writeString member.1 ++ ':' :: member.2.write) ++ ['}'] := by
  induction members with
  | nil => rfl
  | cons member later ih => simp [writeMembers, ih]

theorem writePrettyItems_eq (level : Nat) (items : List Json) :
    writePrettyItems level items = (items.flatMap fun item =>
      ',' :: newLine (level + 1) ++ item.writePretty (level + 1)) ++
        (newLine level ++ [']']) := by
  induction items with
  | nil => rfl
  | cons item later ih => simp [writePrettyItems, ih]

theorem writePrettyMembers_eq (level : Nat) (members : List (String × Json)) :
    writePrettyMembers level members = (members.flatMap fun member =>
      ',' :: newLine (level + 1) ++ writeString member.1 ++ [':', ' '] ++
        member.2.writePretty (level + 1)) ++ (newLine level ++ ['}']) := by
  induction members with
  | nil => rfl
  | cons member later ih => simp [writePrettyMembers, ih]

theorem write_eq_lay (value : Json) (level : Nat) :
    value.write = value.lay .flat level := by
  induction level, value using lay.induct with
  | case1 level => rw [write, lay]; rfl
  | case2 level truth => rw [write, lay]
  | case3 level n => rw [write, lay]
  | case4 level x => rw [write, lay]
  | case5 level text => rw [write, lay]
  | case6 level items ih =>
      rw [lay, ← List.map_congr_left ih]
      cases items with
      | nil => rw [write]; rfl
      | cons item later =>
          rw [write, writeItems_eq, List.map_cons, Layout.bracketed_cons,
            List.flatMap_map]
          simp [Layout.flat, noGaps]
  | case7 level members ih =>
      have same : members.map (fun member => writeString member.1 ++
          ':' :: (Layout.flat.colon.text ++ member.2.write)) = _ :=
        List.map_congr_left fun member listed => by rw [ih member listed]
      rw [lay, ← same]
      cases members with
      | nil => rw [write]; rfl
      | cons member later =>
          rw [write, writeMembers_eq, List.map_cons, Layout.bracketed_cons,
            List.flatMap_map]
          simp [Layout.flat, noGaps]

theorem writePretty_eq_lay (value : Json) (level : Nat) :
    value.writePretty level = value.lay .indented level := by
  induction level, value using lay.induct with
  | case1 level => rw [writePretty, lay]; rfl
  | case2 level truth => rw [writePretty, lay]
  | case3 level n => rw [writePretty, lay]
  | case4 level x => rw [writePretty, lay]
  | case5 level text => rw [writePretty, lay]
  | case6 level items ih =>
      rw [lay, ← List.map_congr_left ih]
      cases items with
      | nil => rw [writePretty]; rfl
      | cons item later =>
          rw [writePretty, writePrettyItems_eq, List.map_cons,
            Layout.bracketed_cons, List.flatMap_map]
          simp [Layout.indented]
  | case7 level members ih =>
      have same : members.map (fun member => writeString member.1 ++
          ':' :: (Layout.indented.colon.text ++
            member.2.writePretty (level + 1))) = _ :=
        List.map_congr_left fun member listed => by rw [ih member listed]
      rw [lay, ← same]
      cases members with
      | nil => rw [writePretty]; rfl
      | cons member later =>
          rw [writePretty, writePrettyMembers_eq, List.map_cons,
            Layout.bracketed_cons, List.flatMap_map]
          simp [Layout.indented]

/-- What a value writes. -/
def data : Json → Data Numeral
  | .null => .null
  | .bool truth => .bool truth
  | .int n => .number (.ofInt n)
  | .float x => .number (.ofFloat x)
  | .string text => .string text
  | .array items => .array (items.map fun item => item.data)
  | .object members =>
      .object (members.map fun member => (member.1, member.2.data))
decreasing_by
  · simpa using sizeOf_lt_of_item ‹_›
  · simpa using sizeOf_lt_of_member ‹_›

/-- Values with brackets that are nested at most to a depth, with members in
order, and with numbers that are fine beside their numerals. -/
inductive Tidy (fine : Numeral → Json → Prop) : (depth : Nat) → Json → Prop
  | null {depth : Nat} : Tidy fine depth .null
  | bool {depth : Nat} (truth : Bool) : Tidy fine depth (.bool truth)
  | int {depth : Nat} {n : Int} (isFine : fine (.ofInt n) (.int n)) :
      Tidy fine depth (.int n)
  | float {depth : Nat} {x : Binary64} (isFine : fine (.ofFloat x) (.float x)) :
      Tidy fine depth (.float x)
  | string {depth : Nat} (text : String) : Tidy fine depth (.string text)
  | array {depth : Nat} {items : List Json}
      (parts : ∀ item ∈ items, Tidy fine depth item) :
      Tidy fine (depth + 1) (.array items)
  | object {depth : Nat} {members : List (String × Json)}
      (ordered : Increasing members)
      (parts : ∀ member ∈ members, Tidy fine depth member.2) :
      Tidy fine (depth + 1) (.object members)

theorem Tidy.mono {fine also : Numeral → Json → Prop} {depth deeper : Nat}
    {value : Json} (tidy : Tidy fine depth value)
    (weaker : ∀ numeral number, fine numeral number → also numeral number)
    (reaches : depth ≤ deeper) : Tidy also deeper value := by
  induction tidy generalizing deeper with
  | null => exact .null
  | bool truth => exact .bool truth
  | int isFine => exact .int (weaker _ _ isFine)
  | float isFine => exact .float (weaker _ _ isFine)
  | string text => exact .string text
  | array parts ih =>
      obtain ⟨less, rfl⟩ : ∃ less, deeper = less + 1 :=
        Nat.exists_eq_add_one_of_ne_zero (by omega)
      exact .array fun item listed => ih item listed (by omega)
  | object ordered parts ih =>
      obtain ⟨less, rfl⟩ : ∃ less, deeper = less + 1 :=
        Nat.exists_eq_add_one_of_ne_zero (by omega)
      exact .object ordered fun member listed => ih member listed (by omega)

theorem Tidy.get? {fine : Numeral → Json → Prop} {depth : Nat}
    {value part : Json} {name : String} (tidy : Tidy fine (depth + 1) value)
    (held : value.get? name = some part) : Tidy fine depth part := by
  cases tidy with
  | object ordered parts =>
      obtain ⟨before, after, rfl, _⟩ := List.lookup_eq_some_iff.1 held
      exact parts (name, part) (by simp)
  | null | bool _ | int _ | float _ | string _ | array _ => cases held

section Endings

variable {σ α β : Type} (part : σ → Gaps → α) (ending : Gaps)

/-- The parts that come from sources, the last one with blanks behind it. -/
def endLast : List σ → List α
  | [] => []
  | [last] => [part last ending]
  | first :: later => part first noGaps :: endLast later

variable {part ending} {sources : List σ}

theorem exists_of_mem_endLast {piece : α}
    (member : piece ∈ endLast part ending sources) :
    ∃ source ∈ sources, ∃ gaps, piece = part source gaps := by
  fun_induction endLast part ending sources with
  | case1 => cases member
  | case2 last => exact ⟨last, by simp, ending, List.mem_singleton.1 member⟩
  | case3 first later more ih =>
      rcases List.mem_cons.1 member with rfl | behind
      · exact ⟨first, by simp, noGaps, rfl⟩
      · obtain ⟨source, listed, gaps, same⟩ := ih behind
        exact ⟨source, List.mem_cons_of_mem _ listed, gaps, same⟩

theorem map_endLast {f : α → β} {g : σ → β}
    (same : ∀ source gaps, f (part source gaps) = g source) :
    (endLast part ending sources).map f = sources.map g := by
  fun_induction endLast part ending sources with
  | case1 => rfl
  | case2 last => simp [same]
  | case3 first later more ih => simp [same, ih]

theorem joinSegments_endLast {whole : α → List Char} {body : σ → List Char}
    (some : sources ≠ []) (shown : ∀ source gaps,
      whole (part source gaps) = body source ++ gaps.text) :
    joinSegments ',' ((endLast part ending sources).map whole) =
      joinSegments ',' (sources.map body) ++ ending.text := by
  have filled {more : List σ} (some : more ≠ []) :
      (endLast part ending more).map whole ≠ [] := by
    fun_cases endLast part ending more with
    | case1 => exact absurd rfl some
    | case2 last => exact List.cons_ne_nil _ _
    | case3 first later more => exact List.cons_ne_nil _ _
  fun_induction endLast part ending sources with
  | case1 => exact absurd rfl some
  | case2 last => simp [joinSegments, shown]
  | case3 first later more ih =>
      rw [List.map_cons, List.map_cons, joinSegments_cons _ (filled more),
        ih more, joinSegments_cons _ (by simpa using more), shown]
      simp [noGaps]

theorem Layout.bracketed_map (layout : Layout) (level : Nat)
    {whole : α → List Char} {body : σ → List Char}
    (shown : ∀ source gaps, whole (part source gaps) =
      (layout.line (level + 1)).text ++ body source ++ gaps.text)
    (opening closing : Char) :
    layout.bracketed level opening closing (sources.map body) =
      opening :: noGaps.text ++ joinSegments ','
        ((endLast part (layout.line level) sources).map whole) ++
          [closing] := by
  cases sources with
  | nil => rfl
  | cons first later =>
      rw [joinSegments_endLast (List.cons_ne_nil _ _) shown,
        Layout.bracketed, if_neg (by simp), List.map_map]
      simp [noGaps, Function.comp_def]

end Endings

section Writing

variable {admits : Numeral → Prop} (layout : Layout) (level : Nat)

theorem Writes.array_in {depth : Nat} {items : List (List Char × Data Numeral)}
    (parts : ∀ item ∈ items, Writes admits depth item.1 item.2) :
    Writes admits (depth + 1)
      (layout.bracketed level '[' ']' (items.map Prod.fst))
      (.array (items.map Prod.snd)) := by
  let part (item : List Char × Data Numeral) (after : Gaps) :
      Padded × Data Numeral :=
    (⟨layout.line (level + 1), item.1, after⟩, item.2)
  have written : ∀ piece ∈ endLast part (layout.line level) items,
      Writes admits depth piece.1.text piece.2 := by
    intro piece among
    obtain ⟨item, listed, gaps, rfl⟩ := exists_of_mem_endLast among
    exact parts item listed
  have values : (endLast part (layout.line level) items).map Prod.snd =
      items.map Prod.snd :=
    map_endLast fun _ _ => rfl
  have shown : layout.bracketed level '[' ']' (items.map Prod.fst) =
      arrayText noGaps
        ((endLast part (layout.line level) items).map Prod.fst) := by
    rw [arrayText, List.map_map]
    refine layout.bracketed_map level (fun item gaps => ?_) '[' ']'
    rfl
  rw [shown, ← values]
  exact .array noGaps written

theorem Writes.object_in {depth : Nat}
    {members : List (String × List Char × Data Numeral)}
    (parts : ∀ member ∈ members, Writes admits depth member.2.1 member.2.2) :
    Writes admits (depth + 1)
      (layout.bracketed level '{' '}' (members.map fun member =>
        writeString member.1 ++ ':' :: (layout.colon.text ++ member.2.1)))
      (.object (lastOnes
        (members.map fun member => (member.1, member.2.2)))) := by
  choose literal text spells using exists_literal
  let part (member : String × List Char × Data Numeral) (after : Gaps) :
      Member × String × Data Numeral :=
    (⟨layout.line (level + 1), literal member.1, noGaps, layout.colon,
      member.2.1, after⟩, member.1, member.2.2)
  have named : ∀ piece ∈ endLast part (layout.line level) members,
      piece.1.name.Spells piece.2.1 := by
    intro piece among
    obtain ⟨member, _, gaps, rfl⟩ := exists_of_mem_endLast among
    exact spells member.1
  have written : ∀ piece ∈ endLast part (layout.line level) members,
      Writes admits depth piece.1.value.text piece.2.2 := by
    intro piece among
    obtain ⟨member, listed, gaps, rfl⟩ := exists_of_mem_endLast among
    exact parts member listed
  have values : (endLast part (layout.line level) members).map Prod.snd =
      members.map fun member => (member.1, member.2.2) :=
    map_endLast fun _ _ => rfl
  have shown : layout.bracketed level '{' '}' (members.map fun member =>
      writeString member.1 ++ ':' :: (layout.colon.text ++ member.2.1)) =
        objectText noGaps
          ((endLast part (layout.line level) members).map Prod.fst) := by
    rw [objectText, List.map_map]
    refine layout.bracketed_map level (fun member gaps => ?_) '{' '}'
    simp [part, Member.whole, Padded.whole, noGaps, text]
  rw [shown, ← values]
  exact .object noGaps named written

/-- What is written of a tidy value writes its data. -/
theorem Tidy.writes {fine : Numeral → Json → Prop} {depth : Nat} {value : Json}
    (tidy : Tidy fine depth value)
    (admitted : ∀ numeral number, fine numeral number → admits numeral) :
    Writes admits depth (value.lay layout level) value.data := by
  induction tidy generalizing level with
  | null =>
      rw [lay, data]
      exact .word (by simp [words])
  | bool truth =>
      rw [lay, data]
      exact .word (by cases truth <;> simp [words, writeBool])
  | int isFine =>
      rw [lay, data, ← Numeral.text_ofInt]
      exact .number (admitted _ _ isFine)
  | float isFine =>
      rw [lay, data, ← Numeral.text_ofFloat]
      exact .number (admitted _ _ isFine)
  | string text =>
      obtain ⟨literal, shown, spells⟩ := exists_literal text
      rw [lay, data, ← shown]
      exact .string spells
  | @array depth items parts ih =>
      let text (item : Json) := (item.lay layout (level + 1), item.data)
      have texts : ∀ part ∈ items.map text, Writes admits depth part.1 part.2 :=
        List.forall_mem_map.2 fun item listed => ih item listed (level + 1)
      have written := Writes.array_in layout level texts
      rw [List.map_map, List.map_map] at written
      rw [lay, data]
      exact written
  | @object depth members ordered parts ih =>
      let text (member : String × Json) :=
        (member.1, member.2.lay layout (level + 1), member.2.data)
      have texts : ∀ part ∈ members.map text,
          Writes admits depth part.2.1 part.2.2 :=
        List.forall_mem_map.2 fun member listed => ih member listed (level + 1)
      have written := Writes.object_in layout level texts
      rw [List.map_map, List.map_map] at written
      rw [lay, data, ← lastOnes_eq_self (ordered.map data)]
      exact written

end Writing

theorem toJson_data {depth : Nat} {value : Json}
    (tidy : Tidy (fun numeral number => numeral.toJson = number) depth value) :
    value.data.toJson = value := by
  induction tidy with
  | null => rw [data, Data.toJson]
  | bool truth => rw [data, Data.toJson]
  | int comesBack => rw [data, Data.toJson, comesBack]
  | float comesBack => rw [data, Data.toJson, comesBack]
  | string text => rw [data, Data.toJson]
  | array parts ih =>
      rw [data, Data.toJson, List.map_map]
      exact congrArg array ((List.map_congr_left ih).trans (List.map_id _))
  | object ordered parts ih =>
      rw [data, Data.toJson, List.map_map]
      exact congrArg object ((List.map_congr_left fun member listed =>
        congrArg (Prod.mk member.1) (ih member listed)).trans (List.map_id _))

section Texts

variable {fine : Numeral → Json → Prop} {admits : Numeral → Prop}
variable {depth : Nat} {value : Json}

theorem Tidy.textOf (tidy : Tidy fine depth value)
    (admitted : ∀ numeral number, fine numeral number → admits numeral)
    (layout : Layout) : TextOf admits depth (value.lay layout 0) value.data :=
  (tidy.writes layout 0 admitted).textOf

theorem toList_render (value : Json) :
    value.render.toList = value.lay .flat 0 := by
  rw [render, String.toList_ofList, write_eq_lay]

theorem toList_renderPretty (value : Json) :
    value.renderPretty.toList = value.lay .indented 0 := by
  rw [renderPretty, String.toList_ofList, writePretty_eq_lay]

end Texts

section Restoring

variable {value : Json} (tidy : Tidy
  (fun numeral number => numeral.reading = .ok number) 127 value)
include tidy

/-- What is written in a layout is read as it was, if its numbers are. -/
theorem read_lay (layout : Layout) : read (value.lay layout 0) = .ok value := by
  have writes : TextOf Numeral.Readable 127 (value.lay layout 0) value.data :=
    tidy.textOf (fun numeral number reads => ⟨number, reads⟩) layout
  have same : value.data.toJson = value := by
    apply toJson_data (tidy.mono (fun numeral number reads => ?_) le_rfl)
    rw [Numeral.toJson, reads]
    rfl
  rw [read_of_textOf writes, same]

theorem ofText?_render : ofText? value.render = some value := by
  rw [ofText?, toList_render, read_lay tidy]
  rfl

theorem ofText?_renderPretty : ofText? value.renderPretty = some value := by
  rw [ofText?, toList_renderPretty, read_lay tidy]
  rfl

end Restoring

/-- Whole numbers that fit into a word are read as they were. -/
theorem Numeral.reading_ofInt {n : ℤ} (low : -2 ^ 63 ≤ n) (high : n < 2 ^ 64) :
    (ofInt n).reading = .ok (.int n) := by
  have tail : (ofInt n).tail = [] := rfl
  have fits : (ofInt n).whole.value < wordSize := by
    rw [ofInt, Digits.value_ofNat, wordSize, UInt64.size]
    omega
  have whole := isWhole_of_tail tail fits
  rw [reading, if_pos whole, whole.significand_eq, ofInt, Digits.value_ofNat]
  by_cases negative : n < 0
  · have half : 0 < n.natAbs ∧ n.natAbs ≤ wordSize / 2 := by
      rw [wordSize, UInt64.size]
      omega
    simp [wholeNumber, negative, half, abs_of_neg negative]
  · simp [wholeNumber, negative, abs_of_nonneg (not_lt.1 negative)]

/-- What is read is tidy. -/
theorem Writes.tidy {admits : Numeral → Prop} {depth : Nat} {text : List Char}
    {data : Data Numeral} (writes : Writes admits depth text data) :
    Tidy (fun _ _ => True) depth data.toJson := by
  induction writes with
  | word named =>
      simp only [words, List.mem_cons, Prod.mk.injEq, List.not_mem_nil,
        or_false] at named
      rcases named with ⟨_, rfl⟩ | ⟨_, rfl⟩ | ⟨_, rfl⟩ <;> rw [Data.toJson]
      · exact .null
      · exact .bool true
      · exact .bool false
  | @number depth numeral admitted =>
      rw [Data.toJson]
      rcases numeral.toJson_cases with ⟨n, same⟩ | ⟨x, same⟩ <;> rw [same]
      · exact .int trivial
      · exact .float trivial
  | string spells =>
      rw [Data.toJson]
      exact .string _
  | array gaps parts ih =>
      rw [Data.toJson]
      refine .array fun value listed => ?_
      obtain ⟨data, among, rfl⟩ := List.mem_map.1 listed
      obtain ⟨item, inside, rfl⟩ := List.mem_map.1 among
      exact ih item inside
  | object gaps names parts ih =>
      rw [Data.toJson]
      refine .object ((increasing_lastOnes _).map Data.toJson)
        fun value listed => ?_
      obtain ⟨member, among, rfl⟩ := List.mem_map.1 listed
      obtain ⟨part, inside, rfl⟩ := List.mem_map.1 (mem_of_mem_lastOnes among)
      exact ih part inside

end Json

end KeyCustody
