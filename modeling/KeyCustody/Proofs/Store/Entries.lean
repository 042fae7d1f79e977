import KeyCustody.MemoryStore

/-!
# Entries of the stored bundles

A store in memory is looked at entry by entry: a place and a key name at most
one value.  Setting an entry and dropping one are given here as functions on
the collection of bundles, each with what it does to the named entry, to every
other entry and to the places that hold a bundle at all.
-/

namespace KeyCustody

section Maps

variable {α β : Type} [Ord α] [Std.TransOrd α] [Std.LawfulEqOrd α]
  [DecidableEq α]

theorem getElem?_insert_eq_ite (map : Std.ExtTreeMap α β) (key other : α)
    (value : β) :
    (map.insert key value)[other]? =
      if other = key then some value else map[other]? := by
  rw [Std.ExtTreeMap.getElem?_insert]
  simp only [Std.compare_eq_iff_eq, eq_comm (a := key)]

theorem getElem?_erase_eq_ite (map : Std.ExtTreeMap α β) (key other : α) :
    (map.erase key)[other]? = if other = key then none else map[other]? := by
  rw [Std.ExtTreeMap.getElem?_erase]
  simp only [Std.compare_eq_iff_eq, eq_comm (a := key)]

end Maps

/-- The bundles of a store by their places. -/
abbrev Bundles := Std.ExtTreeMap Location Bundle

namespace Bundles

def value? (bundles : Bundles) (place : Location) (key : String) :
    Option Json :=
  bundles[place]?.bind fun bundle => bundle[key]?

/-- The bundles with one entry set.  A missing bundle is created. -/
def withEntry (bundles : Bundles) (place : Location) (key : String)
    (value : Json) : Bundles :=
  bundles.insert place ((bundles[place]?.getD ∅).insert key value)

/-- The bundles with one entry taken out.  The bundle that held it stays. -/
def withoutEntry (bundles : Bundles) (place : Location) (key : String) :
    Bundles :=
  match bundles[place]? with
  | some bundle =>
      if bundle.contains key then bundles.insert place (bundle.erase key)
      else bundles
  | none => bundles

theorem value?_insert (bundles : Bundles) (place other : Location)
    (bundle : Bundle) (key : String) :
    value? (bundles.insert place bundle) other key =
      if other = place then bundle[key]? else bundles.value? other key := by
  unfold value?
  rw [getElem?_insert_eq_ite]
  split <;> rfl

theorem value?_withEntry (bundles : Bundles) (place other : Location)
    (key name : String) (value : Json) :
    (bundles.withEntry place key value).value? other name =
      if other = place ∧ name = key then some value
      else bundles.value? other name := by
  rw [withEntry, value?_insert, getElem?_insert_eq_ite]
  by_cases samePlace : other = place
  · subst other
    by_cases sameKey : name = key
    · simp [sameKey]
    · cases held : bundles[place]? <;> simp [sameKey, value?, held]
  · simp [samePlace]

theorem value?_withoutEntry (bundles : Bundles) (place other : Location)
    (key name : String) :
    (bundles.withoutEntry place key).value? other name =
      if other = place ∧ name = key then none
      else bundles.value? other name := by
  by_cases named : other = place ∧ name = key
  · obtain ⟨rfl, rfl⟩ := named
    rw [if_pos ⟨rfl, rfl⟩]
    cases held : bundles[other]? with
    | none => simp [withoutEntry, value?, held]
    | some bundle =>
        by_cases contains : name ∈ bundle
        · simp [withoutEntry, held, contains, value?_insert]
        · simp [withoutEntry, value?, held, contains]
  · rw [if_neg named]
    cases held : bundles[place]? with
    | none => simp [withoutEntry, held]
    | some bundle =>
        by_cases contains : key ∈ bundle
        · by_cases samePlace : other = place
          · subst other
            have differs : name ≠ key := fun same => named ⟨rfl, same⟩
            simp [withoutEntry, held, contains, getElem?_erase_eq_ite,
              differs, value?]
          · simp [withoutEntry, held, contains, value?_insert, samePlace]
        · simp [withoutEntry, held, contains]

end Bundles

end KeyCustody
