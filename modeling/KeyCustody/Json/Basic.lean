import KeyCustody.Decimal.Binary64
import Std.Data.ExtTreeMap

/-!
# JSON values

The values that secrets hold and that the store and its clients exchange.
Whole numbers and floating-point numbers are kept apart.  The members of an
object are kept as a list; readers build it in the order of the names and with
each name once, so that equal objects are equal lists.
-/

namespace KeyCustody

inductive Json
  | null
  | bool (truth : Bool)
  | int (number : Int)
  | float (number : Binary64)
  | string (text : String)
  | array (items : List Json)
  | object (members : List (String × Json))
deriving Inhabited, Repr

namespace Json

mutual

def decEq : (left right : Json) → Decidable (left = right)
  | .null, .null => isTrue rfl
  | .bool p, .bool q => decidable_of_iff (p = q) (by simp)
  | .int m, .int n => decidable_of_iff (m = n) (by simp)
  | .float x, .float y => decidable_of_iff (x = y) (by simp)
  | .string s, .string t => decidable_of_iff (s = t) (by simp)
  | .array xs, .array ys =>
      have := decEqItems xs ys
      decidable_of_iff (xs = ys) (by simp)
  | .object ms, .object ns =>
      have := decEqMembers ms ns
      decidable_of_iff (ms = ns) (by simp)
  | .null, .bool _ | .null, .int _ | .null, .float _ | .null, .string _
  | .null, .array _ | .null, .object _
  | .bool _, .null | .bool _, .int _ | .bool _, .float _ | .bool _, .string _
  | .bool _, .array _ | .bool _, .object _
  | .int _, .null | .int _, .bool _ | .int _, .float _ | .int _, .string _
  | .int _, .array _ | .int _, .object _
  | .float _, .null | .float _, .bool _ | .float _, .int _
  | .float _, .string _ | .float _, .array _ | .float _, .object _
  | .string _, .null | .string _, .bool _ | .string _, .int _
  | .string _, .float _ | .string _, .array _ | .string _, .object _
  | .array _, .null | .array _, .bool _ | .array _, .int _
  | .array _, .float _ | .array _, .string _ | .array _, .object _
  | .object _, .null | .object _, .bool _ | .object _, .int _
  | .object _, .float _ | .object _, .string _ | .object _, .array _ =>
      isFalse (by simp)

def decEqItems : (left right : List Json) → Decidable (left = right)
  | [], [] => isTrue rfl
  | [], _ :: _ | _ :: _, [] => isFalse (by simp)
  | x :: xs, y :: ys =>
      have := decEq x y
      have := decEqItems xs ys
      decidable_of_iff (x = y ∧ xs = ys) (by simp)

def decEqMembers :
    (left right : List (String × Json)) → Decidable (left = right)
  | [], [] => isTrue rfl
  | [], _ :: _ | _ :: _, [] => isFalse (by simp)
  | (k, x) :: xs, (l, y) :: ys =>
      have := decEq x y
      have := decEqMembers xs ys
      decidable_of_iff (k = l ∧ x = y ∧ xs = ys) (by simp [and_assoc])

end

instance : DecidableEq Json := decEq

/-- The object with the given members, in the order of their names.  Of members
with the same name the last one counts. -/
def ofMembers (members : List (String × Json)) : Json :=
  .object (Std.ExtTreeMap.ofList members).toList

def members : Json → List (String × Json)
  | .object members => members
  | _ => []

def get? (value : Json) (name : String) : Option Json :=
  value.members.lookup name

def object? : Json → Option (List (String × Json))
  | .object members => some members
  | _ => none

def array? : Json → Option (List Json)
  | .array items => some items
  | _ => none

def string? : Json → Option String
  | .string text => some text
  | _ => none

end Json

/-- The secrets kept at one place: JSON values by key, in the order of the
keys. -/
abbrev Bundle := Std.ExtTreeMap String Json

namespace Bundle

/-- The bundle with the given entries; of entries with the same key the last
one counts. -/
def ofEntries (entries : List (String × Json)) : Bundle :=
  .ofList entries

/-- A bundle as an object. -/
def toJson (bundle : Bundle) : Json :=
  .object bundle.toList

end Bundle

end KeyCustody
