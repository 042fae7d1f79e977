import KeyCustody.Proofs.Operation.Write

/-!
# What the operations of a session have done

Of a session that only writes entries, everything that ever reached the stored
bundles is told by its deeds: which operation's action succeeded, in which
phase and in which order.  Operations are numbered over all writes that were
ever queued, so that numbers stay valid when the queue is emptied.

Replaying the deeds at one entry gives the value that the entry has to have.
What is left there depends on the last write that was executed and on whether
anything was undone there since.
-/

namespace KeyCustody

/-- An action that succeeded: the number of its operation and the phase. -/
structure Deed where
  number : Nat
  phase : Phase
deriving DecidableEq, Repr

/-- The deed that a note tells of, if the action succeeded.  `first` is the
number of the operation at the head of the queue. -/
def Note.deed? (first : Nat) : Note → Option Deed
  | .acted index _ phase (.value ()) => some ⟨first + index, phase⟩
  | _ => none

namespace Note

variable (first index : Nat) (label : Option String) (phase : Phase)

@[simp]
theorem deed?_value : (acted index label phase (.value ())).deed? first =
    some ⟨first + index, phase⟩ :=
  rfl

@[simp]
theorem deed?_fault (error : StoreError) :
    (acted index label phase (.fault error)).deed? first = none :=
  rfl

@[simp]
theorem deed?_warned (warning : Warning) :
    (warned warning).deed? first = none :=
  rfl

theorem first_le_of_deed? {first : Nat} {note : Note} {deed : Deed}
    (told : note.deed? first = some deed) : first ≤ deed.number := by
  unfold deed? at told
  split at told
  next =>
    cases told
    exact Nat.le_add_right _ _
  next => simp at told

end Note

namespace Deed

/-- The deeds after the execution of an operation. -/
def since (deeds : List Deed) (number : Nat) : List Deed :=
  (deeds.dropWhile (· ≠ ⟨number, .execute⟩)).tail

/-- An operation is in effect if its execution has succeeded and its undoing
has not succeeded since. -/
def InEffect (deeds : List Deed) (number : Nat) : Prop :=
  ⟨number, .execute⟩ ∈ deeds ∧ ⟨number, .rollback⟩ ∉ since deeds number

instance (deeds : List Deed) (number : Nat) :
    Decidable (InEffect deeds number) :=
  inferInstanceAs (Decidable (_ ∧ _))

/-- Whether a deed is about an entry. -/
def Touches (writes : List Write) (place : Location) (key : String)
    (deed : Deed) : Prop :=
  ∃ write, writes[deed.number]? = some write ∧ write.Names place key

/-- Whether an entry has been dropped by undoing since an operation was
executed. -/
def DroppedSince (writes : List Write) (deeds : List Deed) (number : Nat)
    (place : Location) (key : String) : Prop :=
  ∃ deed ∈ since deeds number, deed.phase = .rollback ∧
    deed.Touches writes place key

def effect (writes : List Write) (place : Location) (key : String)
    (value : Option Json) (deed : Deed) : Option Json :=
  match writes[deed.number]? with
  | some write =>
      if write.Names place key then
        match deed.phase with
        | .execute => some (.string write.value)
        | .rollback => none
      else value
  | none => value

/-- The value of an entry after deeds. -/
def replay (writes : List Write) (place : Location) (key : String)
    (deeds : List Deed) (value : Option Json) : Option Json :=
  deeds.foldl (effect writes place key) value

variable {writes : List Write} {place : Location} {key : String}

@[simp]
theorem replay_append (first second : List Deed) (value : Option Json) :
    replay writes place key (first ++ second) value =
      replay writes place key second (replay writes place key first value) :=
  List.foldl_append

theorem effect_of_not_touches {deed : Deed}
    (elsewhere : ¬ deed.Touches writes place key) (value : Option Json) :
    effect writes place key value deed = value := by
  unfold effect
  split
  next write found =>
    rw [if_neg fun names => elsewhere ⟨write, found, names⟩]
  next => rfl

theorem effect_execute {number : Nat} {write : Write}
    (found : writes[number]? = some write) (value : Option Json) :
    effect writes place key value ⟨number, .execute⟩ =
      if write.Names place key then some (.string write.value) else value := by
  simp [effect, found]

theorem effect_rollback {number : Nat} {write : Write}
    (found : writes[number]? = some write) (value : Option Json) :
    effect writes place key value ⟨number, .rollback⟩ =
      if write.Names place key then none else value := by
  simp [effect, found]

theorem replay_queue_append {deeds : List Deed}
    (known : ∀ deed ∈ deeds, deed.number < writes.length)
    (more : List Write) (value : Option Json) :
    replay (writes ++ more) place key deeds value =
      replay writes place key deeds value := by
  induction deeds generalizing value with
  | nil => rfl
  | cons deed later ih =>
      have here : deed.number < writes.length := known deed List.mem_cons_self
      have same : effect (writes ++ more) place key value deed =
          effect writes place key value deed := by
        simp only [effect, List.getElem?_append_left here]
      simp only [replay, List.foldl_cons, same]
      exact ih (fun other member => known other (List.mem_cons_of_mem _ member))
        _

theorem effect_of_rollback {deed : Deed} (undoes : deed.phase = .rollback)
    (touches : deed.Touches writes place key) (value : Option Json) :
    effect writes place key value deed = none := by
  obtain ⟨write, found, names⟩ := touches
  simp [effect, found, names, undoes]

/-- Where nothing is executed and nothing undone, an entry keeps its value. -/
theorem replay_of_not_touches {deeds : List Deed}
    (elsewhere : ∀ deed ∈ deeds, ¬ deed.Touches writes place key)
    (value : Option Json) : replay writes place key deeds value = value := by
  induction deeds generalizing value with
  | nil => rfl
  | cons deed later ih =>
      have here := effect_of_not_touches
        (elsewhere deed List.mem_cons_self) value
      have rest := ih (fun other member =>
        elsewhere other (List.mem_cons_of_mem _ member)) value
      rw [replay, List.foldl_cons, here]
      exact rest

theorem replay_none {deeds : List Deed}
    (undoing : ∀ deed ∈ deeds, deed.Touches writes place key →
      deed.phase = .rollback) :
    replay writes place key deeds none = none := by
  induction deeds with
  | nil => rfl
  | cons deed later ih =>
      have rest := ih (fun other member =>
        undoing other (List.mem_cons_of_mem _ member))
      have here : effect writes place key none deed = none := by
        by_cases touches : deed.Touches writes place key
        · exact effect_of_rollback (undoing deed List.mem_cons_self touches)
            touches none
        · exact effect_of_not_touches touches none
      rw [replay, List.foldl_cons, here]
      exact rest

/-- Where nothing is executed, an entry has no value once something is undone
there. -/
theorem replay_of_rollback {deeds : List Deed}
    (undoing : ∀ deed ∈ deeds, deed.Touches writes place key →
      deed.phase = .rollback)
    (undone : ∃ deed ∈ deeds, deed.Touches writes place key)
    (value : Option Json) : replay writes place key deeds value = none := by
  obtain ⟨deed, member, touches⟩ := undone
  obtain ⟨before, after, rfl⟩ := List.append_of_mem member
  have dropped := effect_of_rollback (undoing deed member touches) touches
    (replay writes place key before value)
  have stays : replay writes place key after none = none :=
    replay_none fun other later =>
      undoing other (List.mem_append_right _ (List.mem_cons_of_mem _ later))
  rw [replay_append, replay, List.foldl_cons, dropped]
  exact stays

theorem eq_append_since {deeds : List Deed} {number : Nat}
    (member : ⟨number, .execute⟩ ∈ deeds) :
    ∃ earlier, (⟨number, .execute⟩ : Deed) ∉ earlier ∧
      deeds = earlier ++ ⟨number, .execute⟩ :: since deeds number := by
  induction deeds with
  | nil => simp at member
  | cons deed later ih =>
      by_cases here : deed = ⟨number, .execute⟩
      · refine ⟨[], by simp, ?_⟩
        simp [since, here]
      · rcases List.mem_cons.1 member with same | further
        · exact absurd same.symm here
        · obtain ⟨earlier, absent, split⟩ := ih further
          have same : since (deed :: later) number = since later number := by
            simp [since, here]
          refine ⟨deed :: earlier, ?_, ?_⟩
          · intro found
            rcases List.mem_cons.1 found with equal | found
            · exact here equal.symm
            · exact absent found
          · rw [same, List.cons_append, ← split]

theorem since_of_first {earlier : List Deed} {number : Nat}
    (absent : (⟨number, .execute⟩ : Deed) ∉ earlier) (later : List Deed) :
    since (earlier ++ ⟨number, .execute⟩ :: later) number = later := by
  have passed : ∀ deed ∈ earlier,
      decide (deed ≠ ⟨number, .execute⟩) = true := by
    intro deed member
    rw [decide_eq_true_eq]
    rintro rfl
    exact absent member
  rw [since, List.dropWhile_append_of_pos passed,
    List.dropWhile_cons_of_neg (by simp), List.tail_cons]

theorem InEffect.append {deeds more : List Deed} {number : Nat}
    (inEffect : InEffect deeds number)
    (others : ∀ deed ∈ more, deed.number ≠ number) :
    InEffect (deeds ++ more) number := by
  obtain ⟨executed, kept⟩ := inEffect
  have same : since (deeds ++ more) number = since deeds number ++ more := by
    obtain ⟨earlier, absent, split⟩ := eq_append_since executed
    calc since (deeds ++ more) number
        = since (earlier ++ ⟨number, .execute⟩ ::
            (since deeds number ++ more)) number := by
          rw [← List.cons_append, ← List.append_assoc, ← split]
      _ = since deeds number ++ more := since_of_first absent _
  refine ⟨List.mem_append_left _ executed, ?_⟩
  rw [same]
  intro undone
  rcases List.mem_append.1 undone with early | late
  · exact kept early
  · exact others _ late rfl

/-- An operation whose execution is its last deed, or whose last deeds are its
execution and its undoing, is in effect in the first case only. -/
theorem inEffect_iff_of_past {deeds : List Deed} {number : Nat}
    {executed undone : Bool} (proper : undone → executed)
    (past : deeds.filter (·.number = number) =
      (if executed then [⟨number, .execute⟩] else []) ++
        if undone then [⟨number, .rollback⟩] else []) :
    InEffect deeds number ↔ executed ∧ undone = false := by
  have mentioned (phase : Phase) : (⟨number, phase⟩ : Deed) ∈ deeds ↔
      ⟨number, phase⟩ ∈ deeds.filter (·.number = number) := by
    simp
  cases executed with
  | false =>
      have kept : undone = false := by simpa using proper
      have absent : (⟨number, .execute⟩ : Deed) ∉ deeds := by
        rw [mentioned, past, kept]
        simp
      simp [InEffect, absent]
  | true =>
      have member : (⟨number, .execute⟩ : Deed) ∈ deeds := by
        rw [mentioned, past]
        simp
      obtain ⟨earlier, absent, split⟩ := eq_append_since member
      have later : (⟨number, .rollback⟩ : Deed) ∈ since deeds number ↔
          ⟨number, .rollback⟩ ∈
            (since deeds number).filter (·.number = number) := by
        simp
      have none : (⟨number, .execute⟩ : Deed) ∉
          earlier.filter (·.number = number) := by
        simpa using absent
      rw [split, List.filter_append, List.filter_cons_of_pos (by simp)] at past
      rw [InEffect, later]
      generalize earlier.filter (·.number = number) = before at past none
      generalize (since deeds number).filter (·.number = number) = after
        at past ⊢
      cases before with
      | nil =>
          have rest : after = if undone then [⟨number, .rollback⟩] else [] := by
            simpa using past
          rw [rest]
          cases undone <;> simp [member]
      | cons deed others =>
          have first : deed = ⟨number, .execute⟩ := by
            simpa using (List.cons.inj past).1
          exact absurd (first ▸ List.mem_cons_self) none

end Deed

end KeyCustody
