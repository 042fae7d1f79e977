import KeyCustody.Json.Reader
import KeyCustody.Proofs.Store.Entries
import Mathlib.Data.List.Basic

/-!
# The order of members

Members that are listed in the order of their names, each name once, can be
listed in one way only.  So the last members of their names, in that order, are
the members themselves if they are in it already, and taking out a name takes
its member out of the list and leaves the others as they are.
-/

namespace KeyCustody

namespace Json

variable {α β : Type}

/-- Members in the order of their names, each name once. -/
def Increasing (members : List (String × α)) : Prop :=
  members.Pairwise fun earlier later => compare earlier.1 later.1 = .lt

theorem Increasing.map {members : List (String × α)}
    (increasing : Increasing members) (f : α → β) :
    Increasing (members.map fun member => (member.1, f member.2)) :=
  List.pairwise_map.2 increasing

theorem eq_of_increasing {left right : List (String × α)}
    (leftOrdered : Increasing left) (rightOrdered : Increasing right)
    (same : ∀ entry, entry ∈ left ↔ entry ∈ right) : left = right := by
  have once {entries : List (String × α)} (ordered : Increasing entries) :
      entries.Nodup := by
    apply List.Pairwise.imp _ ordered
    rintro earlier _ before rfl
    simp at before
  refine List.Perm.eq_of_pairwise ?_ leftOrdered rightOrdered
    ((List.perm_ext_iff_of_nodup (once leftOrdered) (once rightOrdered)).2 same)
  intro first second _ _ before after
  have reversed := Std.OrientedCmp.gt_of_lt before
  rw [after] at reversed
  cases reversed

/-- The last member of each name, in the order of the names. -/
def lastOnes (members : List (String × α)) : List (String × α) :=
  (Std.ExtTreeMap.ofList members).toList

theorem increasing_lastOnes (members : List (String × α)) :
    Increasing (lastOnes members) :=
  Std.ExtTreeMap.ordered_keys_toList

theorem mem_lastOnes {members : List (String × α)} {name : String}
    {value : α} : (name, value) ∈ lastOnes members ↔
      (Std.ExtTreeMap.ofList members)[name]? = some value :=
  Std.ExtTreeMap.mem_toList_iff_getElem?_eq_some

theorem mem_of_getElem?_insertMany {members : List (String × α)}
    {before : Std.ExtTreeMap String α} {name : String} {value : α}
    (held : (before.insertMany members)[name]? = some value) :
    (name, value) ∈ members ∨ before[name]? = some value := by
  induction members generalizing before with
  | nil => exact Or.inr held
  | cons member later ih =>
      rw [Std.ExtTreeMap.insertMany_cons] at held
      rcases ih held with listed | earlier
      · exact Or.inl (List.mem_cons_of_mem _ listed)
      · rw [getElem?_insert_eq_ite] at earlier
        split at earlier
        next same =>
          obtain rfl := Option.some.inj earlier
          exact Or.inl (by simp [same])
        next => exact Or.inr earlier

theorem mem_of_mem_lastOnes {members : List (String × α)}
    {entry : String × α} (among : entry ∈ lastOnes members) :
    entry ∈ members := by
  have held := mem_lastOnes.1 among
  rw [Std.ExtTreeMap.ofList_eq_insertMany_empty] at held
  rcases mem_of_getElem?_insertMany held with listed | nowhere
  · exact listed
  · simp at nowhere

theorem lastOnes_eq_self {members : List (String × α)}
    (ordered : Increasing members) : lastOnes members = members := by
  have distinct : members.Pairwise fun earlier later =>
      ¬ compare earlier.1 later.1 = .eq := by
    apply List.Pairwise.imp _ ordered
    intro earlier later before same
    rw [before] at same
    cases same
  apply eq_of_increasing (increasing_lastOnes members) ordered
  rintro ⟨name, value⟩
  rw [mem_lastOnes]
  constructor
  · intro held
    by_cases named : (members.map Prod.fst).contains name
    · obtain ⟨⟨other, first⟩, member, rfl⟩ :=
        List.mem_map.1 (List.contains_iff_mem.1 named)
      have found := Std.ExtTreeMap.getElem?_ofList_of_mem
        Std.ReflCmp.compare_self distinct member
      rw [found, Option.some.injEq] at held
      rw [← held]
      exact member
    · rw [Std.ExtTreeMap.getElem?_ofList_of_contains_eq_false
        (Bool.eq_false_iff.2 named)] at held
      cases held
  · exact Std.ExtTreeMap.getElem?_ofList_of_mem Std.ReflCmp.compare_self
      distinct

theorem getElem?_insertMany_map (f : α → β) {members : List (String × α)}
    {one : Std.ExtTreeMap String α} {other : Std.ExtTreeMap String β}
    (same : ∀ name : String, other[name]? = one[name]?.map f)
    (name : String) :
    (other.insertMany
        (members.map fun member => (member.1, f member.2)))[name]? =
      ((one.insertMany members)[name]?).map f := by
  induction members generalizing one other with
  | nil => exact same name
  | cons member later ih =>
      rw [List.map_cons, Std.ExtTreeMap.insertMany_cons,
        Std.ExtTreeMap.insertMany_cons]
      apply ih
      intro name
      rw [getElem?_insert_eq_ite, getElem?_insert_eq_ite, same]
      split <;> rfl

/-- Which members are the last ones depends on their names alone. -/
theorem lastOnes_map (f : α → β) (members : List (String × α)) :
    lastOnes (members.map fun member => (member.1, f member.2)) =
      (lastOnes members).map fun member => (member.1, f member.2) := by
  apply eq_of_increasing (increasing_lastOnes _)
    ((increasing_lastOnes members).map f)
  rintro ⟨name, value⟩
  have held := @getElem?_insertMany_map α β f members ∅ ∅ (fun _ => by simp)
    name
  rw [← Std.ExtTreeMap.ofList_eq_insertMany_empty,
    ← Std.ExtTreeMap.ofList_eq_insertMany_empty] at held
  rw [mem_lastOnes, held, Option.map_eq_some_iff, List.mem_map]
  constructor
  · rintro ⟨part, found, rfl⟩
    exact ⟨(name, part), mem_lastOnes.2 found, rfl⟩
  · rintro ⟨⟨other, part⟩, listed, same⟩
    obtain ⟨rfl, rfl⟩ := Prod.mk.inj same
    exact ⟨part, mem_lastOnes.1 listed, rfl⟩

end Json

namespace Bundle

/-- Without a key the other entries are listed as before. -/
theorem toList_erase (bundle : Bundle) (key : String) :
    (bundle.erase key).toList =
      bundle.toList.filter fun entry => entry.1 ≠ key := by
  have ordered : Json.Increasing bundle.toList :=
    Std.ExtTreeMap.ordered_keys_toList
  apply Json.eq_of_increasing Std.ExtTreeMap.ordered_keys_toList
    (ordered.filter _)
  rintro ⟨name, value⟩
  rw [List.mem_filter, Std.ExtTreeMap.mem_toList_iff_getElem?_eq_some,
    Std.ExtTreeMap.mem_toList_iff_getElem?_eq_some, getElem?_erase_eq_ite]
  by_cases same : name = key <;> simp [same]

end Bundle

end KeyCustody
