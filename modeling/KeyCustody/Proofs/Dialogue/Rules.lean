import KeyCustody.Proofs.Dialogue.Trace

/-!
# Dialogues that keep to rules

Rules tell which call may follow the last exchange of a party.  A dialogue
abides by them if it makes every call by the rules, whatever the replies are.
-/

namespace KeyCustody

/-- A call and what it was answered with. -/
structure Exchange where
  call : Call
  reply : Outcome call.Reply

/-- Which call may follow the last exchange of a party, if it had one. -/
abbrev Rules := Option Exchange → Call → Prop

namespace Dialogue

variable {α β : Type} {rules : Rules} {kind : α → Prop}
  {dialogue : Dialogue α} {last : Option Exchange}

/-- Whatever the replies are, a dialogue makes its calls by the rules and ends
only with results of a kind. -/
def Abides (rules : Rules) (kind : α → Prop) :
    Dialogue α → Option Exchange → Prop
  | .result value, _ => kind value
  | .connect next, last => ∀ reply, (next reply).Abides rules kind last
  | .ask _ call next, last =>
      rules last call ∧
        ∀ reply, (next reply).Abides rules kind (some ⟨call, reply⟩)
  | .note _ next, last => next.Abides rules kind last

theorem Abides.bind {ending : β → Prop} {after : α → Dialogue β}
    (first : dialogue.Abides rules kind last)
    (rest : ∀ value last, kind value →
      (after value).Abides rules ending last) :
    (dialogue.bind after).Abides rules ending last := by
  induction dialogue generalizing last with
  | result value => exact rest value last first
  | connect next ih => exact fun reply => ih reply (first reply)
  | ask client call next ih =>
      exact ⟨first.1, fun reply => ih reply (first.2 reply)⟩
  | note entry next ih => exact ih first

/-- Calls that may always be made are made by the rules. -/
theorem Assures.abides {allowed : Event → Prop}
    (assures : dialogue.Assures allowed kind)
    (permitted : ∀ client call last, allowed (.asked client call) →
      rules last call) (last : Option Exchange) :
    dialogue.Abides rules kind last := by
  induction dialogue generalizing last with
  | result value => exact assures
  | connect next ih => exact fun reply => ih reply (assures.2 _) last
  | ask client call next ih =>
      exact ⟨permitted client call last assures.1,
        fun reply => ih reply (assures.2 _) _⟩
  | note entry next ih => exact ih assures.2 last

/-- What the rules allow at most is all that is asked. -/
theorem Abides.asks {calls : Call → Prop}
    (abides : dialogue.Abides rules kind last)
    (permitted : ∀ last call, rules last call → calls call) :
    dialogue.Assures (Event.Asks calls) kind := by
  induction dialogue generalizing last with
  | result value => exact abides
  | connect next ih => exact ⟨nofun, fun reply => ih reply (abides reply)⟩
  | ask client call next ih =>
      exact ⟨Event.asks_asked.2 (permitted last call abides.1),
        fun reply => ih reply (abides.2 reply)⟩
  | note entry next ih => exact ⟨Event.asks_noted calls entry, ih abides⟩

end Dialogue

end KeyCustody
