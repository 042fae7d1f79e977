import KeyCustody.Text.Slashes
import Std.Data.ExtTreeMap

/-!
# Places in the secrets store

A secrets engine is mounted at a mount point and keeps one bundle of secrets
per path.  Outer slashes of a mount point or a path carry no meaning, so a
place is the pair of both names without them.

The store lists its engines under names of its own, which end in a slash.
-/

namespace KeyCustody

/-- The name under which the engine at a mount point is listed: the mount
point without its slashes, followed by one slash. -/
def listedName (mount : String) : String :=
  Text.eraseSlashes mount ++ "/"

/-- The place of a bundle: a mount point and a path without outer slashes. -/
structure Location where
  mount : String
  path : String
deriving DecidableEq, Repr

namespace Location

def of (mount path : String) : Location :=
  ⟨Text.trimSlashes mount, Text.trimSlashes path⟩

def label (place : Location) : String :=
  place.mount ++ "/" ++ place.path

/-- Places are ordered by mount point and then by path. -/
instance : Ord Location where
  compare := compareLex (compareOn Location.mount) (compareOn Location.path)

instance : Std.TransOrd Location :=
  inferInstanceAs (Std.TransCmp
    (compareLex (compareOn Location.mount) (compareOn Location.path)))

instance : Std.LawfulEqOrd Location where
  eq_of_compare {left right} equal := by
    have both : compare left.mount right.mount = .eq ∧
        compare left.path right.path = .eq := by
      simpa [compare, compareLex, compareOn, Ordering.then_eq_eq] using equal
    have mounts := Std.LawfulEqOrd.eq_of_compare both.1
    have paths := Std.LawfulEqOrd.eq_of_compare both.2
    cases left
    cases right
    simp_all

end Location

end KeyCustody
