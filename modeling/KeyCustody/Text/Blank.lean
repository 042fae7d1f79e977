import KeyCustody.Text.Slashes

/-!
# Blank characters

A character is blank when it has the Unicode property `White_Space`.  A text
counts as blank when all its characters are.
-/

namespace KeyCustody

namespace Text

/-- The ranges of code points with the property `White_Space`, each given by
its first and last member. -/
def blankRanges : List (Nat × Nat) :=
  [(0x9, 0xD), (0x20, 0x20), (0x85, 0x85), (0xA0, 0xA0), (0x1680, 0x1680),
    (0x2000, 0x200A), (0x2028, 0x2029), (0x202F, 0x202F), (0x205F, 0x205F),
    (0x3000, 0x3000)]

def isBlank (c : Char) : Bool :=
  blankRanges.any fun range => range.1 ≤ c.toNat && c.toNat ≤ range.2

/-- A text without the blanks at its two ends. -/
def trimBlanks (text : List Char) : List Char :=
  trim isBlank text

/-- A text with no character but blanks. -/
def isBlankText (text : String) : Bool :=
  text.toList.all isBlank

end Text

end KeyCustody
