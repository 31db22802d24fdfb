import DocInsight.Library.Interaction

/-! An environment with an account beside its state. An observer brings the account up to
date after each call and never takes part, so every run has an account. -/
namespace Interaction

variable {Agent State Call Ghost : Type} {Response : Call → Type} {Error Result : Type}

/-- How an agent's call, by the state after it and its answer, changes the account. -/
abbrev Observer (Agent State Call : Type) (Response : Call → Type) (Error Ghost : Type) : Type :=
  Agent → State → (request : Call) → Except Error (Response request) → Ghost → Ghost

def Environment.observed (environment : Environment Agent State Call Response Error)
    (see : Observer Agent State Call Response Error Ghost) :
    Environment Agent (State × Ghost) Call Response Error where
  Choice := environment.Choice
  Event := environment.Event
  perform agent now request choice :=
    (environment.perform agent now.1 request choice).map fun (answer, after) =>
      (answer, after, see agent after request answer now.2)
  event now event := (environment.event now.1 event).map fun after => (after, now.2)
  crash agent now := (environment.crash agent now.1, now.2)

/-- The same programs over the same state, with an account beside it. -/
def Pool.observed (pool : Pool Agent State Call Response Error Result) (ghost : Ghost) :
    Pool Agent (State × Ghost) Call Response Error Result where
  state := (pool.state, ghost)
  programs := pool.programs

variable {environment : Environment Agent State Call Response Error}
  {see : Observer Agent State Call Response Error Ghost}

/-- What an observed call does without its observer, and to the account. -/
theorem Environment.observed_cases {agent : Agent} {now after : State × Ghost} {request : Call}
    {choice : environment.Choice} {answer : Except Error (Response request)}
    (h : (environment.observed see).perform agent now request choice = some (answer, after)) :
    environment.perform agent now.1 request choice = some (answer, after.1) ∧
      after.2 = see agent after.1 request answer now.2 := by
  obtain ⟨⟨own, later⟩, hPerform, hAfter⟩ := Option.map_eq_some_iff.mp h
  cases hAfter
  exact ⟨hPerform, rfl⟩

/-- The observer never gets in the way of a step. -/
theorem Pool.observed_step [DecidableEq Agent]
    {pool next : Pool Agent State Call Response Error Result}
    {action : Action Agent environment.Choice environment.Event}
    (h : pool.step environment action = some next) (ghost : Ghost) :
    ∃ later, (pool.observed ghost).step (environment.observed see) action =
      some (next.observed later) := by
  cases action with
  | advance agent choice =>
      simp only [Pool.step] at h
      split at h
      · rename_i request rest hProgram
        obtain ⟨⟨answer, state⟩, hPerform, rfl⟩ := Option.map_eq_some_iff.mp h
        refine ⟨see agent state request answer ghost, ?_⟩
        have hSame : (pool.observed ghost).programs agent = some (.call request rest) := hProgram
        have hObserved : (environment.observed see).perform agent (pool.observed ghost).state
            request choice = some (answer, state, see agent state request answer ghost) := by
          show Option.map _ (environment.perform agent pool.state request choice) = _
          rw [hPerform]
          rfl
        simp only [Pool.step, hSame, hObserved]
        rfl
      · cases h
  | crash agent =>
      cases h
      exact ⟨ghost, rfl⟩
  | event event =>
      obtain ⟨state, hEvent, rfl⟩ := Option.map_eq_some_iff.mp h
      refine ⟨ghost, ?_⟩
      show Option.map _ (Option.map _ (environment.event pool.state event)) = _
      rw [hEvent]
      rfl

end Interaction
