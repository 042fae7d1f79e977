import KeyCustody.Text.Slashes

/-!
# Cutting, joining and trimming

Cutting a text at its separators and joining pieces with a separator undo each
other, as long as there is a piece and no piece holds the separator.  Both go
through concatenation at a separator.
-/

namespace KeyCustody

namespace Text

variable {separates : Char → Bool} {separator : Char}

/-- A text is cut at a separator into the segments before it and the segments
after it. -/
theorem segments_append (front back : List Char) {c : Char}
    (cuts : separates c = true) :
    segments separates (front ++ c :: back) =
      segments separates front ++ segments separates back := by
  induction front with
  | nil => simp [segments, cuts]
  | cons first others ih =>
      rw [List.cons_append, segments, ih, segments]
      split
      · rfl
      · cases pieces : segments separates others with
        | nil => exact absurd pieces (segments_ne_nil _ _)
        | cons piece more => rfl

theorem segments_append_separator (front back : List Char) :
    segments (· == separator) (front ++ separator :: back) =
      segments (· == separator) front ++ segments (· == separator) back :=
  segments_append front back (beq_self_eq_true separator)

theorem segments_append_slash (front back : String) :
    segments (· == '/') (front ++ "/" ++ back).toList =
      segments (· == '/') front.toList ++ segments (· == '/') back.toList := by
  rw [String.toList_append, String.toList_append, List.append_assoc]
  exact segments_append_separator _ _

theorem segments_of_whole {text : List Char}
    (whole : ∀ c ∈ text, separates c = false) :
    segments separates text = [text] := by
  induction text with
  | nil => rfl
  | cons c rest ih =>
      rw [List.forall_mem_cons] at whole
      rw [segments, if_neg (by simp [whole.1]), ih whole.2]

theorem segments_congr {others : Char → Bool} {text : List Char}
    (same : ∀ c ∈ text, separates c = others c) :
    segments separates text = segments others text := by
  induction text with
  | nil => rfl
  | cons c rest ih =>
      rw [List.forall_mem_cons] at same
      rw [segments, segments, same.1, ih same.2]

/-- No segment holds a separator, and all its characters are of the text. -/
theorem of_mem_segments {text piece : List Char}
    (member : piece ∈ segments separates text) :
    ∀ c ∈ piece, separates c = false ∧ c ∈ text := by
  induction text generalizing piece with
  | nil =>
      obtain rfl : piece = [] := by simpa [segments] using member
      simp
  | cons first rest ih =>
      have further {piece : List Char}
          (member : piece ∈ segments separates rest) :
          ∀ c ∈ piece, separates c = false ∧ c ∈ first :: rest :=
        fun c inside => ⟨(ih member c inside).1,
          List.mem_cons_of_mem _ (ih member c inside).2⟩
      rw [segments] at member
      split at member
      · rcases List.mem_cons.1 member with rfl | later
        · simp
        · exact further later
      next keeps =>
        have keeps : separates first = false := by simpa using keeps
        cases pieces : segments separates rest with
        | nil => exact absurd pieces (segments_ne_nil _ _)
        | cons head others =>
            rw [pieces] at member further
            rcases List.mem_cons.1 member with rfl | later
            · rw [List.forall_mem_cons]
              exact ⟨⟨keeps, List.mem_cons_self⟩, further List.mem_cons_self⟩
            · exact further (List.mem_cons_of_mem _ later)

theorem joinSegments_cons (first : List Char) {others : List (List Char)}
    (more : others ≠ []) :
    joinSegments separator (first :: others) =
      first ++ separator :: joinSegments separator others := by
  cases others with
  | nil => exact absurd rfl more
  | cons second rest => rfl

theorem joinSegments_append {front back : List (List Char)}
    (before : front ≠ []) (after : back ≠ []) :
    joinSegments separator (front ++ back) =
      joinSegments separator front ++
        separator :: joinSegments separator back := by
  induction front with
  | nil => exact absurd rfl before
  | cons first others ih =>
      rw [List.cons_append, joinSegments_cons _ (by simp [after])]
      cases others with
      | nil => rfl
      | cons second rest =>
          rw [ih (by simp),
            joinSegments_cons first (List.cons_ne_nil second rest),
            List.append_assoc, List.cons_append]

theorem segments_joinSegments {pieces : List (List Char)}
    (some : pieces ≠ [])
    (whole : ∀ piece ∈ pieces, ∀ c ∈ piece, (c == separator) = false) :
    segments (· == separator) (joinSegments separator pieces) = pieces := by
  induction pieces with
  | nil => exact absurd rfl some
  | cons first others ih =>
      rw [List.forall_mem_cons] at whole
      cases others with
      | nil => exact segments_of_whole whole.1
      | cons second rest =>
          rw [joinSegments_cons _ (by simp), segments_append_separator,
            segments_of_whole whole.1, ih (by simp) whole.2]
          rfl

theorem mem_joinSegments {pieces : List (List Char)} {c : Char}
    (member : c ∈ joinSegments separator pieces) :
    c = separator ∨ ∃ piece ∈ pieces, c ∈ piece := by
  induction pieces with
  | nil => simp [joinSegments] at member
  | cons first others ih =>
      cases others with
      | nil => exact Or.inr ⟨first, List.mem_cons_self, member⟩
      | cons second rest =>
          rw [joinSegments_cons _ (by simp), List.mem_append,
            List.mem_cons] at member
          rcases member with early | rfl | late
          · exact Or.inr ⟨first, List.mem_cons_self, early⟩
          · exact Or.inl rfl
          · refine (ih late).imp id ?_
            rintro ⟨piece, later, inside⟩
            exact ⟨piece, List.mem_cons_of_mem _ later, inside⟩

theorem bne_of_not_mem {text : List Char} {stop : Char}
    (absent : stop ∉ text) : ∀ c ∈ text, (c != stop) = true := by
  intro c member
  apply bne_iff_ne.2
  rintro rfl
  exact absent member

theorem takeWhile_stop {front : List Char} {stop : Char}
    (absent : stop ∉ front) (rest : List Char) :
    (front ++ stop :: rest).takeWhile (· != stop) = front := by
  rw [List.takeWhile_append_of_pos (bne_of_not_mem absent),
    List.takeWhile_cons_of_neg (by simp), List.append_nil]

theorem takeWhile_whole {text : List Char} {stop : Char}
    (absent : stop ∉ text) : text.takeWhile (· != stop) = text := by
  rw [← List.append_nil text, List.takeWhile_append_of_pos
    (by simpa using bne_of_not_mem absent), List.takeWhile_nil]

theorem dropEnd_append {drops : Char → Bool} (front : List Char)
    {back : List Char} (all : ∀ c ∈ back, drops c = true) :
    dropEnd drops (front ++ back) = dropEnd drops front := by
  rw [dropEnd, dropEnd, List.reverse_append, List.dropWhile_append_of_pos]
  intro c member
  exact all c (List.mem_reverse.1 member)

theorem dropEnd_concat {drops : Char → Bool} (front : List Char) {last : Char}
    (keeps : drops last = false) :
    dropEnd drops (front ++ [last]) = front ++ [last] := by
  rw [dropEnd, List.reverse_append, List.reverse_singleton,
    List.singleton_append, List.dropWhile_cons_of_neg (by simp [keeps]),
    List.reverse_cons, List.reverse_reverse]

theorem dropWhile_eq_self {drops : Char → Bool} {text : List Char}
    (keeps : ∀ c ∈ text, drops c = false) : text.dropWhile drops = text := by
  cases text with
  | nil => rfl
  | cons first others =>
      rw [List.dropWhile_cons_of_neg (by
        simp [keeps first List.mem_cons_self])]

theorem dropEnd_eq_self {drops : Char → Bool} {text : List Char}
    (keeps : ∀ c ∈ text, drops c = false) : dropEnd drops text = text := by
  have same : text.reverse.dropWhile drops = text.reverse :=
    dropWhile_eq_self fun c member => keeps c (List.mem_reverse.1 member)
  rw [dropEnd, same, List.reverse_reverse]

theorem trim_eq_self {drops : Char → Bool} {text : List Char}
    (keeps : ∀ c ∈ text, drops c = false) : trim drops text = text := by
  rw [trim, dropWhile_eq_self keeps, dropEnd_eq_self keeps]

theorem filter_dropWhile (drops : Char → Bool) (text : List Char) :
    (text.dropWhile drops).filter (fun c => !drops c) =
      text.filter fun c => !drops c := by
  induction text with
  | nil => rfl
  | cons c rest ih =>
      cases dropped : drops c with
      | true => simp [dropped, ih]
      | false => simp [dropped]

theorem filter_trim (drops : Char → Bool) (text : List Char) :
    (trim drops text).filter (fun c => !drops c) =
      text.filter fun c => !drops c := by
  rw [trim, dropEnd, List.filter_reverse, filter_dropWhile,
    List.filter_reverse, List.reverse_reverse, filter_dropWhile]

/-- Trimming takes characters that are dropped off the two ends of a text. -/
theorem exists_trim (drops : Char → Bool) (text : List Char) :
    ∃ before after, text = before ++ trim drops text ++ after ∧
      (∀ c ∈ before, drops c = true) ∧ ∀ c ∈ after, drops c = true := by
  have front : text.takeWhile drops ++ text.dropWhile drops = text :=
    List.takeWhile_append_dropWhile
  have back : (text.dropWhile drops).reverse.takeWhile drops ++
      (text.dropWhile drops).reverse.dropWhile drops =
        (text.dropWhile drops).reverse :=
    List.takeWhile_append_dropWhile
  have back := congrArg List.reverse back
  rw [List.reverse_append, List.reverse_reverse] at back
  refine ⟨text.takeWhile drops,
    ((text.dropWhile drops).reverse.takeWhile drops).reverse, ?_, ?_, ?_⟩
  · rw [List.append_assoc, trim, dropEnd, back, front]
  · intro c member
    exact List.all_eq_true.1 List.all_takeWhile c member
  · intro c member
    exact List.all_eq_true.1 List.all_takeWhile c (List.mem_reverse.1 member)

theorem trim_append {drops : Char → Bool} {before middle after : List Char}
    (front : ∀ c ∈ before, drops c = true)
    (back : ∀ c ∈ after, drops c = true) (some : middle ≠ [])
    (keeps : ∀ c ∈ middle, drops c = false) :
    trim drops (before ++ middle ++ after) = middle := by
  have cut : (before ++ middle ++ after).dropWhile drops = middle ++ after := by
    rw [List.append_assoc, List.dropWhile_append_of_pos front]
    cases middle with
    | nil => exact absurd rfl some
    | cons first others =>
        rw [List.cons_append, List.dropWhile_cons_of_neg (by
          simp [keeps first List.mem_cons_self])]
  rw [trim, cut, dropEnd_append _ back, dropEnd_eq_self keeps]

theorem trim_eq_nil {drops : Char → Bool} {text : List Char} :
    trim drops text = [] ↔ ∀ c ∈ text, drops c = true := by
  constructor
  · intro none
    have kept := filter_trim drops text
    rw [none, List.filter_nil, eq_comm, List.filter_eq_nil_iff] at kept
    simpa using kept
  · intro all
    have cut : text.dropWhile drops = [] := by
      rw [← List.append_nil text, List.dropWhile_append_of_pos all,
        List.dropWhile_nil]
    rw [trim, cut]
    rfl

theorem trimSlashes_eq_empty {name : String} :
    trimSlashes name = "" ↔ ∀ c ∈ name.toList, c = '/' := by
  rw [trimSlashes, String.ofList_eq_empty_iff, trim_eq_nil]
  simp [isSlash]

end Text

end KeyCustody
