import KeyCustody.Proofs.Json.Number
import KeyCustody.Proofs.Json.Order
import KeyCustody.Proofs.Json.Skipping

/-!
# What JSON texts write

A JSON text writes words, numbers, texts, arrays and objects.  Of members with
the same name the last one counts, and the order of members does not matter, so
the members of an object are kept in the order of their names.

Numbers are kept as the numerals of the text, which tell more than what they are
read as.
-/

namespace KeyCustody

namespace Json

open Text

/-- What a JSON text writes, with its numbers in some form. -/
inductive Data (ν : Type)
  | null
  | bool (truth : Bool)
  | number (n : ν)
  | string (text : String)
  | array (items : List (Data ν))
  | object (members : List (String × Data ν))

theorem sizeOf_lt_of_item {α : Type} [SizeOf α] {items : List α} {item : α}
    (listed : item ∈ items) : sizeOf item < 1 + sizeOf items := by
  have inside := List.sizeOf_lt_of_mem listed
  omega

theorem sizeOf_lt_of_member {α : Type} [SizeOf α]
    {members : List (String × α)} {member : String × α}
    (listed : member ∈ members) : sizeOf member.2 < 1 + sizeOf members := by
  have inside := List.sizeOf_lt_of_mem listed
  have parts : sizeOf member = 1 + sizeOf member.1 + sizeOf member.2 := rfl
  omega

namespace Data

variable {ν μ : Type}

/-- The same data with its numbers in another form. -/
def map (f : ν → μ) : Data ν → Data μ
  | .null => .null
  | .bool truth => .bool truth
  | .number n => .number (f n)
  | .string text => .string text
  | .array items => .array (items.map fun item => item.map f)
  | .object members =>
      .object (members.map fun member => (member.1, member.2.map f))
decreasing_by
  · simpa using sizeOf_lt_of_item ‹_›
  · simpa using sizeOf_lt_of_member ‹_›

/-- The value that data are read as. -/
def toJson : Data Numeral → Json
  | .null => .null
  | .bool truth => .bool truth
  | .number numeral => numeral.toJson
  | .string text => .string text
  | .array items => .array (items.map fun item => item.toJson)
  | .object members =>
      .object (members.map fun member => (member.1, member.2.toJson))
decreasing_by
  · simpa using sizeOf_lt_of_item ‹_›
  · simpa using sizeOf_lt_of_member ‹_›

/-- All numbers. -/
def numbers : Data ν → List ν
  | .null | .bool _ | .string _ => []
  | .number n => [n]
  | .array items => items.flatMap fun item => item.numbers
  | .object members => members.flatMap fun member => member.2.numbers
decreasing_by
  · simpa using sizeOf_lt_of_item ‹_›
  · simpa using sizeOf_lt_of_member ‹_›

/-- What an object has under a name. -/
def get? (data : Data ν) (name : String) : Option (Data ν) :=
  match data with
  | .object members => members.lookup name
  | _ => none

/-- Two forms of the numbers make the same data exactly if they make the same of
each number. -/
theorem map_eq_map_iff {f g : ν → μ} {data : Data ν} :
    data.map f = data.map g ↔ ∀ n ∈ data.numbers, f n = g n := by
  induction data using map.induct with
  | case1 => simp [map, numbers]
  | case2 truth => simp [map, numbers]
  | case3 n => simp [map, numbers]
  | case4 text => simp [map, numbers]
  | case5 items ih =>
      rw [map, map, numbers, Data.array.injEq, List.map_inj_left]
      simp only [List.mem_flatMap]
      constructor
      · rintro same n ⟨item, listed, inside⟩
        exact (ih item listed).1 (same item listed) n inside
      · exact fun same item listed =>
          (ih item listed).2 fun n inside => same n ⟨item, listed, inside⟩
  | case6 members ih =>
      rw [map, map, numbers, Data.object.injEq, List.map_inj_left]
      simp only [List.mem_flatMap, Prod.mk.injEq, true_and]
      constructor
      · rintro same n ⟨member, listed, inside⟩
        exact (ih member listed).1 (same member listed) n inside
      · exact fun same member listed =>
          (ih member listed).2 fun n inside =>
            same n ⟨member, listed, inside⟩

theorem map_map {κ : Type} (f : ν → μ) (g : μ → κ) (data : Data ν) :
    (data.map f).map g = data.map (g ∘ f) := by
  induction data using map.induct with
  | case1 | case2 _ | case3 _ | case4 _ => simp [map]
  | case5 items ih =>
      rw [map, map, map, List.map_map]
      exact congrArg array (List.map_congr_left ih)
  | case6 members ih =>
      rw [map, map, map, List.map_map]
      exact congrArg object (List.map_congr_left fun member listed =>
        congrArg (Prod.mk member.1) (ih member listed))

theorem lookup_map_snd {α β : Type} (f : α → β) (name : String)
    (members : List (String × α)) :
    (members.map fun member => (member.1, f member.2)).lookup name =
      (members.lookup name).map f := by
  induction members with
  | nil => rfl
  | cons member later ih =>
      rw [List.map_cons, List.lookup_cons, List.lookup_cons, ih]
      cases name == member.1 <;> rfl

theorem get?_toJson (data : Data Numeral) (name : String) :
    data.toJson.get? name = (data.get? name).map toJson := by
  cases data with
  | object members =>
      rw [toJson]
      exact lookup_map_snd _ name members
  | number numeral =>
      rw [toJson]
      rcases numeral.toJson_cases with ⟨n, same⟩ | ⟨x, same⟩ <;>
        rw [same] <;> rfl
  | null | bool _ | string _ | array _ => rw [toJson]; rfl

end Data

/-- The texts of words, with what they write. -/
def words : List (List Char × Data Numeral) :=
  [("null".toList, .null), ("true".toList, .bool true),
    ("false".toList, .bool false)]

/-- The texts of JSON values, with what they write.  All numerals are admitted
ones, and brackets are nested at most to a depth. -/
inductive Writes (admits : Numeral → Prop) :
    (depth : Nat) → List Char → Data Numeral → Prop
  | word {depth : Nat} {text : List Char} {data : Data Numeral}
      (named : (text, data) ∈ words) : Writes admits depth text data
  | number {depth : Nat} {numeral : Numeral} (admitted : admits numeral) :
      Writes admits depth numeral.text (.number numeral)
  | string {depth : Nat} {literal : Literal} {text : String}
      (spells : literal.Spells text) :
      Writes admits depth literal.text (.string text)
  | array {depth : Nat} {items : List (Padded × Data Numeral)} (gaps : Gaps)
      (parts : ∀ item ∈ items, Writes admits depth item.1.text item.2) :
      Writes admits (depth + 1) (arrayText gaps (items.map Prod.fst))
        (.array (items.map Prod.snd))
  | object {depth : Nat} {members : List (Member × String × Data Numeral)}
      (gaps : Gaps)
      (names : ∀ member ∈ members, member.1.name.Spells member.2.1)
      (parts : ∀ member ∈ members,
        Writes admits depth member.1.value.text member.2.2) :
      Writes admits (depth + 1) (objectText gaps (members.map Prod.fst))
        (.object (lastOnes (members.map Prod.snd)))

namespace Writes

variable {admits : Numeral → Prop} {depth : Nat} {text : List Char}
variable {data : Data Numeral}

theorem isValue (writes : Writes admits depth text data) : IsValue text := by
  induction writes with
  | word named =>
      apply IsValue.word
      simp only [words, List.mem_cons, Prod.mk.injEq, List.not_mem_nil,
        or_false] at named
      rcases named with ⟨rfl, _⟩ | ⟨rfl, _⟩ | ⟨rfl, _⟩ <;> simp
  | number admitted => exact .number _
  | string spells => exact .string _
  | array gaps parts ih =>
      apply IsValue.array gaps
      rintro item listed
      obtain ⟨part, inside, rfl⟩ := List.mem_map.1 listed
      exact ih part inside
  | object gaps names parts ih =>
      apply IsValue.object gaps
      rintro member listed
      obtain ⟨part, inside, rfl⟩ := List.mem_map.1 listed
      exact ih part inside

end Writes

end Json

end KeyCustody
