/-!
# Slash-delimited names

Mount points and paths are names whose segments are separated by slashes.
This file holds the ways in which slashes are taken off such a name and the
cut of a name into its segments.

The functions work on lists of characters; the ones on `String` are wrappers.
-/

namespace KeyCustody

namespace Text

/-- Drops the characters with property `drops` from the end of a text. -/
def dropEnd (drops : Char → Bool) (text : List Char) : List Char :=
  (text.reverse.dropWhile drops).reverse

def trim (drops : Char → Bool) (text : List Char) : List Char :=
  dropEnd drops (text.dropWhile drops)

def isSlash (c : Char) : Bool := c == '/'

def trimSlashes (name : String) : String :=
  .ofList (trim isSlash name.toList)

def dropEndSlashes (name : String) : String :=
  .ofList (dropEnd isSlash name.toList)

def eraseSlashes (name : String) : String :=
  .ofList (name.toList.filter fun c => !isSlash c)

/-- The segments of a text: the pieces between separators, empty ones
included.  There is always one more segment than there are separators. -/
def segments (separates : Char → Bool) : List Char → List (List Char)
  | [] => [[]]
  | c :: rest =>
      if separates c then
        [] :: segments separates rest
      else
        match segments separates rest with
        | [] => [[c]]
        | first :: others => (c :: first) :: others

/-- Segments written one after the other with `separator` between them. -/
def joinSegments (separator : Char) : List (List Char) → List Char
  | [] => []
  | [last] => last
  | first :: others => first ++ separator :: joinSegments separator others

theorem segments_ne_nil (separates : Char → Bool) (text : List Char) :
    segments separates text ≠ [] := by
  induction text with
  | nil => simp [segments]
  | cons c rest ih =>
      unfold segments
      split
      · simp
      · split <;> simp

/-- Joining the segments of a text gives the text back. -/
theorem joinSegments_segments (separator : Char) (text : List Char) :
    joinSegments separator (segments (· == separator) text) = text := by
  induction text with
  | nil => rfl
  | cons c rest ih =>
      unfold segments
      split
      · rename_i atSeparator
        have same : c = separator := by simpa using atSeparator
        cases pieces : segments (· == separator) rest with
        | nil => exact absurd pieces (segments_ne_nil _ _)
        | cons first others =>
            rw [pieces] at ih
            simp [joinSegments, ih, same]
      · cases pieces : segments (· == separator) rest with
        | nil => exact absurd pieces (segments_ne_nil _ _)
        | cons first others =>
            rw [pieces] at ih
            cases others with
            | nil => simpa [joinSegments] using ih
            | cons second more => simpa [joinSegments] using ih

end Text

end KeyCustody
