import DocInsight.Library.Observation

/-! One program alone with what answers its calls. Each call is recorded with its answer,
so that what a program asked for, and in which order, can be stated and carried along. -/
namespace Interaction

variable {State Call Choice : Type} {Response : Call → Type} {Error Result : Type}

/-- A call with the answer it was given. -/
abbrev Exchange (Call : Type) (Response : Call → Type) (Error : Type) : Type :=
  (request : Call) × Except Error (Response request)

/-- What answers the calls of one program: a call may have several answers, or none. -/
abbrev Answers (State Call Choice : Type) (Response : Call → Type) (Error : Type) : Type :=
  State → (request : Call) → Choice → Option (Except Error (Response request) × State)

/-- The environment of a single agent: nothing happens but its calls. -/
def Environment.single (answers : Answers State Call Choice Response Error) :
    Environment Unit State Call Response Error where
  Choice := Choice
  Event := Empty
  perform _ := answers
  event _ event := nomatch event
  crash _ state := state

/-- The exchanges of a single agent are recorded beside its state. -/
def Environment.alone (answers : Answers State Call Choice Response Error) :
    Environment Unit (State × List (Exchange Call Response Error)) Call Response Error :=
  (Environment.single answers).observed fun _ _ request answer made => made ++ [⟨request, answer⟩]

/-- A program before its first call. -/
def Program.alone (program : Program Call Response Error Result) (state : State) :
    Pool Unit (State × List (Exchange Call Response Error)) Call Response Error Result where
  state := (state, [])
  programs _ := some program

namespace Discipline

section Alone
variable (answers : Answers State Call Choice Response Error)
  (Inv : State → List (Exchange Call Response Error) → Prop)
  (Guard : State → List (Exchange Call Response Error) → Call → Prop)

/-- Nobody else takes a step, so an agent relies on everything to stay as it is. -/
def alone (hCall : ∀ state made request choice answer after, Inv state made →
      Guard state made request → answers state request choice = some (answer, after) →
      Inv after (made ++ [⟨request, answer⟩])) :
    Discipline (Environment.alone answers) where
  Inv now := Inv now.1 now.2
  Guard _ now request := Guard now.1 now.2 request
  Rely _ now later := later = now
  rely_refl _ _ := rfl
  rely_trans _ _ _ _ h h' := h'.trans h
  call_inv _ now request choice answer next hInv hGuard h := by
    obtain ⟨hAnswers, hMade⟩ := Environment.observed_cases h
    rw [hMade]
    exact hCall now.1 now.2 request choice answer next.1 hInv hGuard hAnswers
  call_rely agent other _ _ _ _ _ hOther := absurd rfl hOther
  event_inv _ event := nomatch event
  event_rely _ _ event := nomatch event
  crash_inv _ _ hInv := hInv
  crash_rely agent other _ hOther := absurd rfl hOther

variable {answers Inv Guard}
  {hCall : ∀ state made request choice answer after, Inv state made →
      Guard state made request → answers state request choice = some (answer, after) →
      Inv after (made ++ [⟨request, answer⟩])}

/-- One call of a program that is alone. -/
theorem Safe.alone_perform {request : Call} {state : State}
    {made : List (Exchange Call Response Error)}
    {post : Except Error (Response request) → State × List (Exchange Call Response Error) → Prop}
    (hGuard : Inv state made → Guard state made request)
    (hPost : ∀ choice answer after, Inv state made →
      answers state request choice = some (answer, after) →
      Inv after (made ++ [⟨request, answer⟩]) → post answer (after, made ++ [⟨request, answer⟩])) :
    (alone answers Inv Guard hCall).Safe () (Program.perform request) post (state, made) := by
  apply Safe.perform
  intro now hRely hInv
  cases hRely
  refine ⟨hGuard hInv, fun choice answer after hPerform hAfter => ?_⟩
  obtain ⟨later, record⟩ := after
  obtain ⟨hAnswers, rfl⟩ := Environment.observed_cases hPerform
  exact hPost choice answer later hInv hAnswers hAfter

/-- Wherever a safe program stands when it runs alone, the invariant holds; so does the
guard of the call it is about to make, or the postcondition once it is done. -/
theorem Safe.alone_run {program : Program Call Response Error Result} {state : State}
    {post : Except Error Result → State × List (Exchange Call Response Error) → Prop}
    (hInv : Inv state [])
    (safe : (alone answers Inv Guard hCall).Safe () program post (state, []))
    {actions : List (Action Unit Choice Empty)}
    {finish : Pool Unit (State × List (Exchange Call Response Error)) Call Response Error Result}
    (hRun : Transition.run (Pool.step (Environment.alone answers)) actions
      (program.alone state) = some finish) :
    Inv finish.state.1 finish.state.2 ∧
      (∀ request next, finish.programs () = some (.call request next) →
        Guard finish.state.1 finish.state.2 request) ∧
      ∀ outcome, finish.programs () = some (.done outcome) → post outcome finish.state := by
  have hStart : (alone answers Inv Guard hCall).PoolSafe (fun _ => post) (program.alone state) := by
    refine ⟨hInv, fun agent started hStarted => ?_⟩
    cases hStarted
    exact safe
  have hFinish := hStart.run (fun _ _ _ _ hRely hHolds => hRely ▸ hHolds) hRun
  refine ⟨hFinish.1, fun request next hCalls => ?_, fun outcome hDone => hFinish.2 () _ hDone⟩
  exact PoolSafe.guard hFinish hCalls

end Alone

end Discipline

end Interaction
