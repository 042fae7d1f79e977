import KeyCustody.Proofs.Text.Percent
import Mathlib.Data.List.TakeWhile

/-!
# Addresses beneath a server

A url that goes on with encoded names behind the name of a server is read as
that server's, with the names as the segments of its path.  Nothing in an
encoded name has a meaning in a url except segments of one or two dots, which
are resolved; so such a url keeps its segments exactly if none of the names is
dots.
-/

namespace KeyCustody

namespace Http

namespace Url

open Text

/-- A segment that a url resolves instead of keeping it. -/
def IsDots (segment : List Char) : Prop :=
  segment = ['.'] ∨ segment = ['.', '.']

instance (segment : List Char) : Decidable (IsDots segment) :=
  inferInstanceAs (Decidable (_ ∨ _))

/-- Whether a url resolves a segment, which may have its dots escaped. -/
def resolves (segment : List Char) : Bool :=
  isSingleDot segment || isDoubleDot segment

theorem resolves_eq_false {segment : List Char} :
    resolves segment = false ↔
      isSingleDot segment = false ∧ isDoubleDot segment = false := by
  rw [resolves, Bool.or_eq_false_iff]

theorem resolves_encodeSegment {segment : List Char} :
    resolves (encodeSegment segment) = true ↔ IsDots segment := by
  have same {dots : List Char} (own : decodeSegment? dots = some dots)
      (shows : plainDots (encodeSegment segment) = dots) : segment = dots := by
    have decoded := decodeSegment?_encodeSegment segment
    rw [decodeSegment?, ← percentDecoded_plainDots, shows,
      ← decodeSegment?, own] at decoded
    exact (Option.some.inj decoded).symm
  rw [resolves, isSingleDot, isDoubleDot, Bool.or_eq_true, beq_iff_eq,
    beq_iff_eq]
  constructor
  · exact Or.imp (same (by decide)) (same (by decide))
  · rintro (rfl | rfl)
    · exact Or.inl (by decide)
    · exact Or.inr (by decide)

theorem resolveDots_of_none {kept later : List (List Char)}
    (none : ∀ segment ∈ later, resolves segment = false) :
    resolveDots kept later = kept.reverse ++ later := by
  fun_induction resolveDots kept later with
  | case1 kept => simp
  | case2 kept last double => simp_all [resolves]
  | case3 kept last _ single => simp_all [resolves]
  | case4 kept last _ _ => simp
  | case5 kept segment later _ double ih => simp_all [resolves]
  | case6 kept segment later _ _ single ih => simp_all [resolves]
  | case7 kept segment later _ _ _ ih =>
      rw [List.forall_mem_cons] at none
      rw [ih none.2]
      simp

/-- What is left of a path is empty or was there before and is not resolved. -/
theorem of_mem_resolveDots {kept later : List (List Char)}
    {segment : List Char} (member : segment ∈ resolveDots kept later) :
    segment ∈ kept ∨ segment = [] ∨
      segment ∈ later ∧ resolves segment = false := by
  fun_induction resolveDots kept later with
  | case1 kept => exact Or.inl (List.mem_reverse.1 member)
  | case2 kept last double =>
      rw [List.mem_reverse, List.mem_cons] at member
      exact member.elim (fun empty => Or.inr (Or.inl empty))
        (fun before => Or.inl (List.mem_of_mem_tail before))
  | case3 kept last _ single =>
      rw [List.mem_reverse, List.mem_cons] at member
      exact member.elim (fun empty => Or.inr (Or.inl empty)) Or.inl
  | case4 kept last double single =>
      rw [List.mem_reverse, List.mem_cons] at member
      rcases member with rfl | before
      · exact Or.inr (Or.inr ⟨List.mem_singleton_self _,
          resolves_eq_false.2 ⟨by simpa using single, by simpa using double⟩⟩)
      · exact Or.inl before
  | case5 kept segment later _ double ih =>
      rcases ih member with before | empty | ⟨after, keeps⟩
      · exact Or.inl (List.mem_of_mem_tail before)
      · exact Or.inr (Or.inl empty)
      · exact Or.inr (Or.inr ⟨List.mem_cons_of_mem _ after, keeps⟩)
  | case6 kept segment later _ _ single ih =>
      rcases ih member with before | empty | ⟨after, keeps⟩
      · exact Or.inl before
      · exact Or.inr (Or.inl empty)
      · exact Or.inr (Or.inr ⟨List.mem_cons_of_mem _ after, keeps⟩)
  | case7 kept segment later _ double single ih =>
      rcases ih member with before | empty | ⟨after, keeps⟩
      · rcases List.mem_cons.1 before with rfl | before
        · exact Or.inr (Or.inr ⟨List.mem_cons_self,
            resolves_eq_false.2
              ⟨by simpa using single, by simpa using double⟩⟩)
        · exact Or.inl before
      · exact Or.inr (Or.inl empty)
      · exact Or.inr (Or.inr ⟨List.mem_cons_of_mem _ after, keeps⟩)

theorem resolveDots_ne_nil {kept later : List (List Char)}
    (some : later ≠ []) : resolveDots kept later ≠ [] := by
  fun_induction resolveDots kept later with
  | case1 kept => exact absurd rfl some
  | case2 kept last double => simp
  | case3 kept last _ single => simp
  | case4 kept last _ _ => simp
  | case5 kept segment later more double ih => exact ih more
  | case6 kept segment later more _ single ih => exact ih more
  | case7 kept segment later more _ _ ih => exact ih more

/-- A character that a url may show behind its server and that has no meaning
of its own there. -/
def isPlain (c : Char) : Bool := c == '/' || isShown c

theorem ne_of_isPlain {c d : Char} (plain : isPlain c = true)
    (meant : isPlain d = false) : c ≠ d := by
  rintro rfl
  rw [plain] at meant
  exact Bool.noConfusion meant

theorem toNat_of_isPlain {c : Char} (plain : isPlain c = true) :
    0x20 < c.toNat ∧ c.toNat ≤ 0x7E := by
  simp only [isPlain, isShown, Bool.or_eq_true, beq_iff_eq,
    Bool.and_eq_true, decide_eq_true_iff] at plain
  rcases plain with rfl | rfl | ⟨ascii, unreserved⟩
  · decide
  · decide
  · simp only [isUnreserved, toNat_ofNat_byte (Nat.lt_trans ascii (by decide)),
      Bool.or_eq_true, Bool.and_eq_true, decide_eq_true_iff,
      beq_iff_eq] at unreserved
    omega

theorem escapedInPath_of_isPlain {c : Char} (plain : isPlain c = true) :
    escapedInPath c = false := by
  have bounds := toNat_of_isPlain plain
  have meant {d : Char} (meant : isPlain d = false) : (c == d) = false :=
    beq_eq_false_iff_ne.2 (ne_of_isPlain plain meant)
  have shown : ['"', '#', '<', '>', '?', '`', '\x7b', '\x7d'].contains c =
      false := by
    simp only [List.contains_cons, List.contains_nil, Bool.or_false,
      Bool.or_eq_false_iff]
    refine ⟨?_, ?_, ?_, ?_, ?_, ?_, ?_, ?_⟩ <;> exact meant (by decide)
  rw [escapedInPath, shown, Bool.or_false, Bool.or_eq_false_iff,
    decide_eq_false_iff_not, decide_eq_false_iff_not]
  omega

theorem isSeparator_of_isPlain {c : Char} (plain : isPlain c = true) :
    isSeparator c = (c == '/') := by
  have notBackslash : (c == '\\') = false :=
    beq_eq_false_iff_ne.2 (ne_of_isPlain plain (by decide))
  rw [isSeparator, notBackslash, Bool.or_false]

theorem escapeWhere_of_isPlain {text : List Char}
    (plain : ∀ c ∈ text, isPlain c = true) :
    escapeWhere escapedInPath text = text := by
  induction text with
  | nil => rfl
  | cons c rest ih =>
      rw [List.forall_mem_cons] at plain
      rw [escapeWhere, List.flatMap_cons, if_neg (by
        rw [escapedInPath_of_isPlain plain.1]
        exact Bool.false_ne_true)]
      exact congrArg _ (ih plain.2)

/-- A path of plain characters shows its segments as they are, but for dots. -/
theorem pathOf_of_isPlain {text : List Char}
    (plain : ∀ c ∈ text, isPlain c = true) :
    pathOf ('/' :: text) = resolveDots [] (segments (· == '/') text) := by
  change (resolveDots [] (segments isSeparator text)).map
    (escapeWhere escapedInPath) = _
  have cut : segments isSeparator text = segments (· == '/') text :=
    segments_congr fun c member => isSeparator_of_isPlain (plain c member)
  rw [cut]
  refine Eq.trans (List.map_congr_left fun segment member => ?_)
    (List.map_id _)
  apply escapeWhere_of_isPlain
  rcases of_mem_resolveDots member with before | rfl | ⟨after, _⟩
  · exact absurd before List.not_mem_nil
  · simp
  · exact fun c inside => plain c (of_mem_segments after c inside).2

/-- A character that the name of a server may show. -/
def isServerChar (c : Char) : Bool := 0x20 < c.toNat && !endsAuthority c

/-- The url of a server that is named by an authority, with the given path. -/
def ofAuthority? (authority : List Char) (path : List (List Char)) :
    Option Url := do
  let (hostText, portText) := cutPort false (afterLastAt authority)
  let host ← hostOf? hostText
  let port ← portOf? 80 portText
  return { encrypted := false, host, port, path, query := none }

/-! A text that is an open scheme, the name of a server and either nothing or a
slash with plain characters behind it. -/

section Open

variable {server tail : List Char} (named : server ≠ [])
variable (within : ∀ c ∈ server, isServerChar c = true)
variable (plain : ∀ c ∈ tail, isPlain c = true)
variable (rooted : tail = [] ∨ tail.head? = some '/')

include within plain in
theorem visible_of_isPlain :
    ∀ c ∈ "http://".toList ++ server ++ tail, 0x20 < c.toNat := by
  intro c member
  rcases List.mem_append.1 member with front | behind
  · rcases List.mem_append.1 front with scheme | inside
    · have all : "http://".toList.all (fun c => 0x20 < c.toNat) = true := by
        decide
      exact of_decide_eq_true (List.all_eq_true.1 all c scheme)
    · have shown := within c inside
      rw [isServerChar, Bool.and_eq_true, decide_eq_true_iff] at shown
      exact shown.1
  · exact (toNat_of_isPlain (plain c behind)).1

include within rooted in
/-- The name of the server is all that stands before the first slash. -/
theorem cut_authority :
    (server ++ tail).takeWhile (fun c => !endsAuthority c) = server ∧
    (server ++ tail).dropWhile (fun c => !endsAuthority c) = tail := by
  have names : ∀ c ∈ server, (!endsAuthority c) = true := by
    intro c member
    have shown := within c member
    rw [isServerChar, Bool.and_eq_true] at shown
    exact shown.2
  rw [List.takeWhile_append_of_pos names, List.dropWhile_append_of_pos names]
  cases tail with
  | nil => exact ⟨List.append_nil _, rfl⟩
  | cons c rest =>
      obtain rfl : c = '/' := by simpa using rooted
      exact ⟨List.append_nil _, rfl⟩

include named within in
theorem dropWhile_isSeparator :
    ('/' :: '/' :: (server ++ tail)).dropWhile isSeparator =
      server ++ tail := by
  cases server with
  | nil => exact absurd rfl named
  | cons first others =>
      have shown := within first List.mem_cons_self
      rw [isServerChar, endsAuthority, Bool.and_eq_true, Bool.not_eq_true',
        Bool.or_eq_false_iff, Bool.or_eq_false_iff] at shown
      change ((first :: others) ++ tail).dropWhile isSeparator = _
      rw [List.cons_append, List.dropWhile_cons_of_neg (by simp [shown.2.1.1])]

include named within plain rooted in
theorem ofString?_open :
    ofString? (.ofList ("http://".toList ++ server ++ tail)) =
      ofAuthority? server (pathOf tail) := by
  have visible := visible_of_isPlain within plain
  have trimmed : trim (fun c => c.toNat ≤ 0x20)
      ("http://".toList ++ server ++ tail) =
        "http://".toList ++ server ++ tail :=
    trim_eq_self fun c member => by
      have shown := visible c member
      simp
      omega
  have unbroken : ("http://".toList ++ server ++ tail).filter
      (fun c => c != '\t' && c != '\n' && c != '\r') =
        "http://".toList ++ server ++ tail := by
    rw [List.filter_eq_self]
    intro c member
    have shown := visible c member
    simp only [Bool.and_eq_true, bne_iff_ne]
    refine ⟨⟨?_, ?_⟩, ?_⟩ <;> rintro rfl <;> exact absurd shown (by decide)
  have scheme : (("http://".toList ++ server ++ tail).takeWhile
      (· != ':')).map smallLetter = "http".toList :=
    rfl
  have after : ((("http://".toList ++ server ++ tail).dropWhile
      (· != ':')).drop 1).dropWhile isSeparator = server ++ tail :=
    dropWhile_isSeparator named within
  obtain ⟨authority, behind⟩ := cut_authority within rooted
  have noFragment : tail.takeWhile (· != '#') = tail :=
    List.takeWhile_eq_self_iff.2 fun c member =>
      bne_iff_ne.2 (ne_of_isPlain (plain c member) (by decide))
  have noQuery : ∀ c ∈ tail, (c != '?') = true := fun c member =>
    bne_iff_ne.2 (ne_of_isPlain (plain c member) (by decide))
  unfold ofString?
  rw [String.toList_ofList, trimmed]
  dsimp only
  rw [unbroken, scheme, after, if_pos rfl, authority, behind, noFragment,
    List.takeWhile_eq_self_iff.2 noQuery, List.dropWhile_eq_nil_iff.2 noQuery]
  rfl

end Open

end Url

end Http

end KeyCustody
