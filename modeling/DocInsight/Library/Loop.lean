import Mathlib.Data.Nat.Basic

/-! Loops whose body says how to go on or what to stop with. A measure that falls on
every turn makes the loop total, and invariants are carried from turn to turn. -/
namespace Loop

variable {State Result : Type*}

/-- What one turn of a loop decides. -/
inductive Turn (State Result : Type*) where
  | next (state : State)
  | stop (result : Result)

/-- At most the given number of turns. -/
def run (body : State → Turn State Result) : Nat → State → Option Result
  | 0, _ => none
  | turns + 1, state =>
      match body state with
      | .next later => run body turns later
      | .stop result => some result

variable {body body' : State → Turn State Result} {measure : State → Nat}

/-- The turns the measure allows are enough. -/
theorem run_isSome
    (decreases : ∀ state later, body state = .next later → measure later < measure state)
    {turns : Nat} {state : State} (hTurns : measure state < turns) :
    (run body turns state).isSome = true := by
  induction turns generalizing state with
  | zero => exact absurd hTurns (Nat.not_lt_zero _)
  | succ turns ih =>
      cases hBody : body state with
      | next later =>
          have hLater := decreases state later hBody
          simp only [run, hBody]
          exact ih (by omega)
      | stop result => simp only [run, hBody, Option.isSome_some]

/-- Repeat the body until it stops. -/
def repeatUntil (body : State → Turn State Result) (measure : State → Nat)
    (decreases : ∀ state later, body state = .next later → measure later < measure state)
    (state : State) : Result :=
  (run body (measure state + 1) state).get (run_isSome decreases (Nat.lt_succ_self _))

/-- More turns than needed change nothing. -/
theorem run_mono {turns more : Nat} (hMore : turns ≤ more) {state : State} {result : Result}
    (h : run body turns state = some result) : run body more state = some result := by
  induction turns generalizing state more with
  | zero => cases h
  | succ turns ih =>
      obtain ⟨more, rfl⟩ : ∃ rest, more = rest + 1 := ⟨more - 1, by omega⟩
      cases hBody : body state with
      | next later =>
          simp only [run, hBody] at h ⊢
          exact ih (by omega) h
      | stop other =>
          simp only [run, hBody] at h ⊢
          exact h

section Spec
variable (decreases : ∀ state later, body state = .next later → measure later < measure state)

theorem run_eq_repeatUntil {turns : Nat} {state : State} (hTurns : measure state < turns) :
    run body turns state = some (repeatUntil body measure decreases state) := by
  refine run_mono hTurns ?_
  rw [repeatUntil, Option.some_get]

/-- One turn of the loop, unrolled. -/
theorem repeatUntil_eq (state : State) : repeatUntil body measure decreases state =
    match body state with
    | .next later => repeatUntil body measure decreases later
    | .stop result => result := by
  have hRun := run_eq_repeatUntil decreases (Nat.lt_succ_self (measure state))
  cases hBody : body state with
  | next later =>
      have hLater := run_eq_repeatUntil decreases (decreases state later hBody)
      simp only [run, hBody] at hRun
      exact Option.some.inj (hRun.symm.trans hLater)
  | stop result =>
      simp only [run, hBody] at hRun
      exact (Option.some.inj hRun).symm

/-- What every turn keeps holds when the loop stops. -/
theorem repeatUntil_invariant (holds : State → Prop) (post : Result → Prop)
    (hNext : ∀ state later, holds state → body state = .next later → holds later)
    (hStop : ∀ state result, holds state → body state = .stop result → post result)
    {state : State} (hStart : holds state) : post (repeatUntil body measure decreases state) := by
  induction hMeasure : measure state using Nat.strong_induction_on generalizing state with
  | _ size ih =>
      rw [repeatUntil_eq]
      cases hBody : body state with
      | next later =>
          have hLess := decreases state later hBody
          exact ih (measure later) (hMeasure ▸ hLess) (hNext state later hStart hBody) rfl
      | stop result => exact hStop state result hStart hBody

/-- Two loops whose bodies agree wherever the first one leads do the same. -/
theorem repeatUntil_congr {measure' : State → Nat}
    (decreases' : ∀ state later, body' state = .next later → measure' later < measure' state)
    (holds : State → Prop) (hSame : ∀ state, holds state → body state = body' state)
    (hNext : ∀ state later, holds state → body state = .next later → holds later)
    {state : State} (hStart : holds state) :
    repeatUntil body measure decreases state = repeatUntil body' measure' decreases' state := by
  induction hMeasure : measure state using Nat.strong_induction_on generalizing state with
  | _ size ih =>
      rw [repeatUntil_eq, repeatUntil_eq, ← hSame state hStart]
      cases hBody : body state with
      | next later =>
          have hLess := decreases state later hBody
          exact ih (measure later) (hMeasure ▸ hLess) (hNext state later hStart hBody) rfl
      | stop result => rfl

end Spec

end Loop
