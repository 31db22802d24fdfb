import Mathlib.Data.List.Basic
import Mathlib.Data.Sigma.Basic

/-! Two components of one interface, each with a state of its own: where a relation of
their states is kept by every call, they answer whole sequences of calls alike. -/
namespace Simulation

variable {State Other Call : Type} {Answer : Call → Type}

/-- What a component answers to a call, and its state afterwards. -/
abbrev Component (State Call : Type) (Answer : Call → Type) : Type :=
  State → (call : Call) → Answer call × State

/-- The answers to calls, one after the other. -/
def answers (component : Component State Call Answer) : List Call → State → List (Sigma Answer)
  | [], _ => []
  | call :: rest, state =>
      ⟨call, (component state call).1⟩ :: answers component rest (component state call).2

/-- The state after calls. -/
def after (component : Component State Call Answer) (calls : List Call) (state : State) : State :=
  calls.foldl (fun state call => (component state call).2) state

/-- Something holds of every call, at the state in which it is made. -/
def Along (component : Component State Call Answer) (holds : State → Call → Prop) :
    List Call → State → Prop
  | [], _ => True
  | call :: rest, state => holds state call ∧ Along component holds rest (component state call).2

variable {component : Component State Call Answer} {other : Component Other Call Answer}

/-- What can be decided of each call can be decided of all of them. -/
def decideAlong {holds : State → Call → Prop} [∀ state call, Decidable (holds state call)] :
    ∀ calls state, Decidable (Along component holds calls state)
  | [], _ => isTrue trivial
  | call :: rest, state =>
      let _ : Decidable (Along component holds rest (component state call).2) :=
        decideAlong rest (component state call).2
      inferInstanceAs (Decidable (holds state call ∧ _))

instance {holds : State → Call → Prop} [∀ state call, Decidable (holds state call)]
    (calls : List Call) (state : State) : Decidable (Along component holds calls state) :=
  decideAlong calls state

/-- What every call keeps, given what holds of it, is kept by all of them. -/
theorem after_invariant {assumed : State → Call → Prop} {kept : State → Prop}
    (hStep : ∀ state call, kept state → assumed state call → kept (component state call).2)
    {calls : List Call} {state : State} (hStart : kept state)
    (hAssumed : Along component assumed calls state) : kept (after component calls state) := by
  induction calls generalizing state with
  | nil => exact hStart
  | cons call rest ih => exact ih (hStep state call hStart hAssumed.1) hAssumed.2

end Simulation
