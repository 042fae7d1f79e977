import KeyCustody.Dialogue

/-!
# Two runs in lockstep

To say that something has no influence on a piece of work, two runs of it are
compared that differ only in this.  Work here is any function from a state to a
result and a state that is left.  Two pieces of work go in lockstep if they lead
from related states to related results and related states again, and then so
does whatever is put together from such pieces.
-/

namespace KeyCustody

variable {σ τ α β γ δ : Type}

namespace Outcome

/-- Two outcomes that are the same up to their values, which are related. -/
inductive Paired (values : α → β → Prop) : Outcome α → Outcome β → Prop
  | value {first : α} {second : β} (related : values first second) :
      Paired values (.value first) (.value second)
  | fault (error : StoreError) : Paired values (.fault error) (.fault error)
  | crash (message : String) :
      Paired values (.crash message) (.crash message)

variable {values : α → β → Prop} {one : Outcome α} {other : Outcome β}

theorem paired_of_eq {values : α → α → Prop}
    (refl : ∀ value, values value value) (outcome : Outcome α) :
    Paired values outcome outcome := by
  cases outcome with
  | value result => exact .value (refl result)
  | fault error => exact .fault error
  | crash message => exact .crash message

namespace Paired

theorem inBackground (paired : Paired values one other) :
    Paired values one.inBackground other.inBackground := by
  cases paired with
  | value related => exact .value related
  | fault error => exact .fault error
  | crash message => exact .fault _

theorem map {further : γ → δ → Prop} (paired : Paired values one other)
    {f : α → γ} {g : β → δ}
    (related : ∀ first second, values first second →
      further (f first) (g second)) :
    Paired further (one.map f) (other.map g) := by
  cases paired with
  | value here => exact .value (related _ _ here)
  | fault error => exact .fault error
  | crash message => exact .crash message

theorem map_eq (paired : Paired values one other) {f : α → γ} {g : β → γ}
    (same : ∀ first second, values first second → f first = g second) :
    one.map f = other.map g := by
  cases paired with
  | value here => exact congrArg Outcome.value (same _ _ here)
  | fault error => rfl
  | crash message => rfl

theorem isValue_eq (paired : Paired values one other) :
    one.isValue = other.isValue := by
  cases paired <;> rfl

end Paired

end Outcome

/-- Two pieces of work that lead from related states to related results and
related states. -/
def Lockstep (states : σ → τ → Prop) (results : α → β → Prop)
    (one : σ → α × σ) (other : τ → β × τ) : Prop :=
  ∀ first second, states first second →
    results (one first).1 (other second).1 ∧
      states (one first).2 (other second).2

namespace Lockstep

variable {states : σ → τ → Prop} {middle : α → β → Prop}
variable {one : σ → α × σ} {other : τ → β × τ}

/-- Pieces of work that go in lockstep can be put one behind the other. -/
theorem andThen {further : γ → δ → Prop}
    {next : α → σ → γ × σ} {following : β → τ → δ × τ}
    (lockstep : Lockstep states middle one other)
    (rest : ∀ first second, middle first second →
      Lockstep states further (next first) (following second)) :
    Lockstep states further
      (fun state => next (one state).1 (one state).2)
      (fun state => following (other state).1 (other state).2) := by
  intro first second related
  obtain ⟨result, left⟩ := lockstep first second related
  exact rest _ _ result _ _ left

end Lockstep

end KeyCustody
