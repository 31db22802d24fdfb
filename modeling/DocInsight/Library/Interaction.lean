import DocInsight.Library.Transition

/-! Programs that call a shared environment, pools of them interleaved one call at a
time, and the rules that carry what one program knows across every other's steps. -/
namespace Interaction

/-- A sequential program: an outcome, or a call and what follows each answer to it.
An answer is a response or an error that the call raises. -/
inductive Program (Call : Type) (Response : Call → Type) (Error : Type) (Result : Type) where
  | done (outcome : Except Error Result)
  | call (request : Call)
      (next : Except Error (Response request) → Program Call Response Error Result)

namespace Program

variable {Call : Type} {Response : Call → Type} {Error Result Next Other : Type}

/-- Go on with whatever outcome the program comes to. -/
def andThen : Program Call Response Error Result →
    (Except Error Result → Program Call Response Error Next) →
    Program Call Response Error Next
  | done outcome, rest => rest outcome
  | call request next, rest => call request fun answer => (next answer).andThen rest

def perform (request : Call) : Program Call Response Error (Response request) :=
  call request done

def bind (program : Program Call Response Error Result)
    (rest : Result → Program Call Response Error Next) : Program Call Response Error Next :=
  program.andThen fun
    | .ok result => rest result
    | .error error => done (.error error)

def tryCatch (program : Program Call Response Error Result)
    (handler : Error → Program Call Response Error Result) :
    Program Call Response Error Result :=
  program.andThen fun
    | .ok result => done (.ok result)
    | .error error => handler error

/-- Run the cleanup on every outcome; an error of its own replaces the outcome. -/
def tryFinally (program : Program Call Response Error Result)
    (cleanup : Program Call Response Error Unit) : Program Call Response Error Result :=
  program.andThen fun outcome => cleanup.andThen fun
    | .ok _ => done outcome
    | .error error => done (.error error)

instance : Monad (Program Call Response Error) where
  pure result := done (.ok result)
  bind := bind

instance : MonadExcept Error (Program Call Response Error) where
  throw error := done (.error error)
  tryCatch := tryCatch

@[simp] theorem pure_eq (result : Result) :
    (pure result : Program Call Response Error Result) = done (.ok result) := rfl

@[simp] theorem throw_eq (error : Error) :
    (throw error : Program Call Response Error Result) = done (.error error) := rfl

@[simp] theorem bind_eq (program : Program Call Response Error Result)
    (rest : Result → Program Call Response Error Next) :
    (program >>= rest) = program.bind rest := rfl

@[simp] theorem done_ok_bind (result : Result)
    (rest : Result → Program Call Response Error Next) :
    (done (.ok result)).bind rest = rest result := rfl

@[simp] theorem done_error_bind (error : Error)
    (rest : Result → Program Call Response Error Next) :
    (done (.error error)).bind rest = done (.error error) := rfl

/-- Whatever its calls are answered, the program makes only such calls. -/
def Makes (allowed : Call → Prop) : Program Call Response Error Result → Prop
  | done _ => True
  | call request next => allowed request ∧ ∀ answer, (next answer).Makes allowed

section Makes
variable {allowed : Call → Prop}

theorem Makes.perform {request : Call} (h : allowed request) :
    (perform request : Program Call Response Error (Response request)).Makes allowed :=
  ⟨h, fun _ => trivial⟩

theorem Makes.andThen {program : Program Call Response Error Result}
    {rest : Except Error Result → Program Call Response Error Next}
    (h : program.Makes allowed) (hRest : ∀ outcome, (rest outcome).Makes allowed) :
    (program.andThen rest).Makes allowed := by
  induction program with
  | done outcome => exact hRest outcome
  | call request next ih => exact ⟨h.1, fun answer => ih answer (h.2 answer)⟩

theorem Makes.bind {program : Program Call Response Error Result}
    {rest : Result → Program Call Response Error Next} (h : program.Makes allowed)
    (hRest : ∀ result, (rest result).Makes allowed) : (program.bind rest).Makes allowed := by
  apply h.andThen
  intro outcome
  cases outcome with
  | ok result => exact hRest result
  | error error => trivial

theorem Makes.tryCatch {program : Program Call Response Error Result}
    {handler : Error → Program Call Response Error Result} (h : program.Makes allowed)
    (hHandler : ∀ error, (handler error).Makes allowed) :
    (program.tryCatch handler).Makes allowed := by
  apply h.andThen
  intro outcome
  cases outcome with
  | ok result => trivial
  | error error => exact hHandler error

theorem Makes.tryFinally {program : Program Call Response Error Result}
    {cleanup : Program Call Response Error Unit} (h : program.Makes allowed)
    (hCleanup : cleanup.Makes allowed) : (program.tryFinally cleanup).Makes allowed := by
  apply h.andThen
  intro outcome
  apply hCleanup.andThen
  intro cleaned
  cases cleaned with
  | ok _ => trivial
  | error error => trivial

end Makes

/-- What a program comes to where nobody else takes steps and every call is answered. -/
def interpret {State : Type}
    (answer : State → (request : Call) → Except Error (Response request) × State) :
    Program Call Response Error Result → State → Except Error Result × State
  | done outcome, state => (outcome, state)
  | call request next, state =>
      let answered := answer state request
      (next answered.1).interpret answer answered.2

section Interpret
variable {State : Type}
  {answer : State → (request : Call) → Except Error (Response request) × State}

theorem interpret_andThen (program : Program Call Response Error Result)
    (rest : Except Error Result → Program Call Response Error Next) (state : State) :
    (program.andThen rest).interpret answer state =
      (rest (program.interpret answer state).1).interpret answer
        (program.interpret answer state).2 := by
  induction program generalizing state with
  | done outcome => rfl
  | call request next ih => exact ih (answer state request).1 (answer state request).2

theorem interpret_bind_ok {program : Program Call Response Error Result}
    {rest : Result → Program Call Response Error Next} {state after : State} {result : Result}
    (h : program.interpret answer state = (.ok result, after)) :
    (program.bind rest).interpret answer state = (rest result).interpret answer after := by
  rw [bind, interpret_andThen, h]

end Interpret

end Program

/-- The shared state under programs. A choice settles what a call leaves open; an
event is a step that no program takes; a crash ends a program where it stands. -/
structure Environment (Agent State Call : Type) (Response : Call → Type) (Error : Type) where
  Choice : Type
  Event : Type
  perform : Agent → State → (request : Call) → Choice →
    Option (Except Error (Response request) × State)
  event : State → Event → Option State
  crash : Agent → State → State

variable {Agent State Call : Type} {Response : Call → Type} {Error Result Next : Type}

/-- The shared state, and what each agent has still to do; a crashed agent has nothing. -/
structure Pool (Agent State Call : Type) (Response : Call → Type) (Error Result : Type) where
  state : State
  programs : Agent → Option (Program Call Response Error Result)

inductive Action (Agent Choice Event : Type) where
  | advance (agent : Agent) (choice : Choice)
  | crash (agent : Agent)
  | event (event : Event)
  deriving DecidableEq, Repr

/-- One call of one agent, one crash or one event. -/
def Pool.step [DecidableEq Agent] (environment : Environment Agent State Call Response Error)
    (pool : Pool Agent State Call Response Error Result) :
    Action Agent environment.Choice environment.Event →
      Option (Pool Agent State Call Response Error Result)
  | .advance agent choice =>
      match pool.programs agent with
      | some (.call request next) =>
          (environment.perform agent pool.state request choice).map fun (answer, state) =>
            { state
              programs := fun other =>
                if other = agent then some (next answer) else pool.programs other }
      | _ => none
  | .crash agent =>
      some { state := environment.crash agent pool.state
             programs := fun other => if other = agent then none else pool.programs other }
  | .event event =>
      (environment.event pool.state event).map fun state => { pool with state }

/-- An agent's step performs its next call and goes on with the answer. -/
theorem Pool.step_advance [DecidableEq Agent]
    {environment : Environment Agent State Call Response Error}
    {pool next : Pool Agent State Call Response Error Result} {agent : Agent}
    {choice : environment.Choice} (h : pool.step environment (.advance agent choice) = some next) :
    ∃ request rest answer, pool.programs agent = some (.call request rest) ∧
      environment.perform agent pool.state request choice = some (answer, next.state) ∧
      ∀ other, next.programs other =
        if other = agent then some (rest answer) else pool.programs other := by
  simp only [Pool.step] at h
  split at h
  · rename_i request rest hProgram
    simp only [Option.map_eq_some_iff] at h
    obtain ⟨⟨answer, state⟩, hPerform, rfl⟩ := h
    exact ⟨request, rest, answer, hProgram, hPerform, fun _ => rfl⟩
  · cases h

/-- How agents agree to use an environment: an invariant of the state, what an agent
must know before a call, and what it may rely on while others take their steps. -/
structure Discipline (environment : Environment Agent State Call Response Error) where
  Inv : State → Prop
  Guard : Agent → State → Call → Prop
  Rely : Agent → State → State → Prop
  rely_refl : ∀ agent state, Rely agent state state
  rely_trans : ∀ agent first second third,
    Rely agent first second → Rely agent second third → Rely agent first third
  call_inv : ∀ agent state request choice answer next, Inv state → Guard agent state request →
    environment.perform agent state request choice = some (answer, next) → Inv next
  call_rely : ∀ agent other state request choice answer next, other ≠ agent → Inv state →
    Guard agent state request →
    environment.perform agent state request choice = some (answer, next) → Rely other state next
  event_inv : ∀ state event next, Inv state → environment.event state event = some next → Inv next
  event_rely : ∀ agent state event next, Inv state →
    environment.event state event = some next → Rely agent state next
  crash_inv : ∀ agent state, Inv state → Inv (environment.crash agent state)
  crash_rely : ∀ agent other state, other ≠ agent → Inv state →
    Rely other state (environment.crash agent state)

namespace Discipline

variable {environment : Environment Agent State Call Response Error}
  (discipline : Discipline environment)

/-- From this state on, whatever others do between its calls, the program meets the
guard of every call it makes, and its outcome satisfies the postcondition. -/
def Safe (agent : Agent) : Program Call Response Error Result →
    (Except Error Result → State → Prop) → State → Prop
  | .done outcome, post, state => post outcome state
  | .call request next, post, state =>
      ∀ now, discipline.Rely agent state now → discipline.Inv now →
        discipline.Guard agent now request ∧
          ∀ choice answer after,
            environment.perform agent now request choice = some (answer, after) →
              discipline.Inv after → Safe agent (next answer) post after

variable {discipline} {agent : Agent}

theorem Safe.mono {program : Program Call Response Error Result}
    {post post' : Except Error Result → State → Prop} {state : State}
    (h : discipline.Safe agent program post state)
    (hPost : ∀ outcome state, post outcome state → post' outcome state) :
    discipline.Safe agent program post' state := by
  induction program generalizing state with
  | done outcome => exact hPost outcome state h
  | call request next ih =>
      intro now hRely hInv
      obtain ⟨hGuard, hNext⟩ := h now hRely hInv
      exact ⟨hGuard, fun choice answer after hPerform hAfter =>
        ih answer (hNext choice answer after hPerform hAfter)⟩

/-- A program whose outcome others cannot spoil stays safe while they take steps. -/
theorem Safe.stable {program : Program Call Response Error Result}
    {post : Except Error Result → State → Prop} {state now : State}
    (h : discipline.Safe agent program post state) (hRely : discipline.Rely agent state now)
    (hPost : ∀ outcome, post outcome state → post outcome now) :
    discipline.Safe agent program post now := by
  cases program with
  | done outcome => exact hPost outcome h
  | call request next =>
      intro later hLater hInv
      exact h later (discipline.rely_trans agent _ _ _ hRely hLater) hInv

theorem Safe.andThen {program : Program Call Response Error Result}
    {rest : Except Error Result → Program Call Response Error Next}
    {post : Except Error Next → State → Prop} {state : State}
    (h : discipline.Safe agent program
      (fun outcome now => discipline.Safe agent (rest outcome) post now) state) :
    discipline.Safe agent (program.andThen rest) post state := by
  induction program generalizing state with
  | done outcome => exact h
  | call request next ih =>
      intro now hRely hInv
      obtain ⟨hGuard, hNext⟩ := h now hRely hInv
      exact ⟨hGuard, fun choice answer after hPerform hAfter =>
        ih answer (hNext choice answer after hPerform hAfter)⟩

/-- One call: its guard must hold wherever others can lead, and every answer to it
must establish the postcondition. -/
theorem Safe.perform {request : Call}
    {post : Except Error (Response request) → State → Prop} {state : State}
    (h : ∀ now, discipline.Rely agent state now → discipline.Inv now →
      discipline.Guard agent now request ∧
        ∀ choice answer after,
          environment.perform agent now request choice = some (answer, after) →
            discipline.Inv after → post answer after) :
    discipline.Safe agent (Program.perform request) post state := h

theorem Safe.bind {program : Program Call Response Error Result}
    {rest : Result → Program Call Response Error Next}
    {post : Except Error Next → State → Prop} {state : State}
    (h : discipline.Safe agent program
      (fun outcome now => match outcome with
        | .ok result => discipline.Safe agent (rest result) post now
        | .error error => post (.error error) now) state) :
    discipline.Safe agent (program.bind rest) post state := by
  refine Safe.andThen (h.mono fun outcome now hOutcome => ?_)
  cases outcome with
  | ok result => exact hOutcome
  | error error => exact hOutcome

theorem Safe.tryCatch {program : Program Call Response Error Result}
    {handler : Error → Program Call Response Error Result}
    {post : Except Error Result → State → Prop} {state : State}
    (h : discipline.Safe agent program
      (fun outcome now => match outcome with
        | .ok result => post (.ok result) now
        | .error error => discipline.Safe agent (handler error) post now) state) :
    discipline.Safe agent (program.tryCatch handler) post state := by
  refine Safe.andThen (h.mono fun outcome now hOutcome => ?_)
  cases outcome with
  | ok result => exact hOutcome
  | error error => exact hOutcome

theorem Safe.tryFinally {program : Program Call Response Error Result}
    {cleanup : Program Call Response Error Unit}
    {post : Except Error Result → State → Prop} {state : State}
    (h : discipline.Safe agent program
      (fun outcome now => discipline.Safe agent cleanup
        (fun cleaned later => match cleaned with
          | .ok _ => post outcome later
          | .error error => post (.error error) later) now) state) :
    discipline.Safe agent (program.tryFinally cleanup) post state := by
  refine Safe.andThen (h.mono fun outcome now hOutcome => Safe.andThen
    (hOutcome.mono fun cleaned later hCleaned => ?_))
  cases cleaned with
  | ok _ => exact hCleaned
  | error error => exact hCleaned

/-- A program whose calls are of a kind that keeps what is known, and which that knowledge
permits, ends with it. -/
theorem Safe.of_makes {program : Program Call Response Error Result} {allowed : Call → Prop}
    {known : State → Prop} {state : State}
    (hGuard : ∀ now request, discipline.Inv now → known now → allowed request →
      discipline.Guard agent now request)
    (hOthers : ∀ now later, discipline.Rely agent now later → known now → known later)
    (hOwn : ∀ now request choice answer after, discipline.Inv now → allowed request →
      environment.perform agent now request choice = some (answer, after) →
      known now → known after)
    (hKnown : known state) (h : program.Makes allowed) :
    discipline.Safe agent program (fun _ now => known now) state := by
  induction program generalizing state with
  | done outcome => exact hKnown
  | call request next ih =>
      intro now hRely hInv
      have hNow := hOthers state now hRely hKnown
      exact ⟨hGuard now request hInv hNow h.1, fun choice answer after hPerform _ =>
        ih answer (hOwn now request choice answer after hInv h.1 hPerform hNow) (h.2 answer)⟩

/-- What neither others nor the program's own calls can spoil still holds at the end. -/
theorem Safe.frame {program : Program Call Response Error Result}
    {post : Except Error Result → State → Prop} {known : State → Prop} {state : State}
    (hOthers : ∀ now later, discipline.Rely agent now later → known now → known later)
    (hOwn : ∀ now request choice answer after, discipline.Inv now →
      discipline.Guard agent now request →
      environment.perform agent now request choice = some (answer, after) →
      known now → known after)
    (hKnown : known state) (h : discipline.Safe agent program post state) :
    discipline.Safe agent program (fun outcome now => post outcome now ∧ known now) state := by
  induction program generalizing state with
  | done outcome => exact ⟨h, hKnown⟩
  | call request next ih =>
      intro now hRely hInv
      obtain ⟨hGuard, hNext⟩ := h now hRely hInv
      have hNow := hOthers state now hRely hKnown
      exact ⟨hGuard, fun choice answer after hPerform hAfter =>
        ih answer (hOwn now request choice answer after hInv hGuard hPerform hNow)
          (hNext choice answer after hPerform hAfter)⟩

/-- The state keeps its invariant, every agent is safe in what it still has to do, and
one that is done has left its postcondition. -/
def PoolSafe (discipline : Discipline environment)
    (post : Agent → Except Error Result → State → Prop)
    (pool : Pool Agent State Call Response Error Result) : Prop :=
  discipline.Inv pool.state ∧ ∀ agent program, pool.programs agent = some program →
    discipline.Safe agent program (post agent) pool.state

variable {post : Agent → Except Error Result → State → Prop}

/-- An agent that is about to make a call meets its guard. -/
theorem PoolSafe.guard {pool : Pool Agent State Call Response Error Result}
    (safe : discipline.PoolSafe post pool) {agent : Agent} {request : Call}
    {next : Except Error (Response request) → Program Call Response Error Result}
    (h : pool.programs agent = some (.call request next)) :
    discipline.Guard agent pool.state request :=
  (safe.2 agent _ h pool.state (discipline.rely_refl agent pool.state) safe.1).1

variable [DecidableEq Agent]

/-- No step of any agent spoils another's safety, once others cannot spoil the
postconditions. -/
theorem PoolSafe.step
    (hPost : ∀ agent outcome state now, discipline.Rely agent state now →
      post agent outcome state → post agent outcome now)
    {pool next : Pool Agent State Call Response Error Result}
    {action : Action Agent environment.Choice environment.Event}
    (safe : discipline.PoolSafe post pool) (h : pool.step environment action = some next) :
    discipline.PoolSafe post next := by
  obtain ⟨hInv, hAgents⟩ := safe
  have hStable {other : Agent} {program : Program Call Response Error Result} {now : State}
      (hOther : pool.programs other = some program)
      (hRely : discipline.Rely other pool.state now) :
      discipline.Safe other program (post other) now :=
    (hAgents other program hOther).stable hRely fun outcome => hPost other outcome _ _ hRely
  cases action with
  | advance agent choice =>
      simp only [Pool.step] at h
      split at h
      · rename_i request rest hProgram
        simp only [Option.map_eq_some_iff] at h
        obtain ⟨⟨answer, state⟩, hPerform, rfl⟩ := h
        obtain ⟨hGuard, hNext⟩ := hAgents agent _ hProgram pool.state
          (discipline.rely_refl agent pool.state) hInv
        have hAfter := discipline.call_inv agent _ request choice answer state hInv hGuard hPerform
        refine ⟨hAfter, fun other program hOther => ?_⟩
        simp only at hOther
        split_ifs at hOther with hSame
        · cases hOther
          subst hSame
          exact hNext choice answer state hPerform hAfter
        · exact hStable hOther (discipline.call_rely agent other _ request choice answer state
            hSame hInv hGuard hPerform)
      · cases h
  | crash agent =>
      simp only [Pool.step, Option.some.injEq] at h
      subst h
      refine ⟨discipline.crash_inv agent _ hInv, fun other program hOther => ?_⟩
      simp only at hOther
      split_ifs at hOther with hSame
      exact hStable hOther (discipline.crash_rely agent other _ hSame hInv)
  | event event =>
      simp only [Pool.step, Option.map_eq_some_iff] at h
      obtain ⟨state, hEvent, rfl⟩ := h
      exact ⟨discipline.event_inv _ event state hInv hEvent, fun other program hOther =>
        hStable hOther (discipline.event_rely other _ event state hInv hEvent)⟩

/-- Every pool reached from a safe one is safe. -/
theorem PoolSafe.run
    (hPost : ∀ agent outcome state now, discipline.Rely agent state now →
      post agent outcome state → post agent outcome now)
    {start finish : Pool Agent State Call Response Error Result}
    {actions : List (Action Agent environment.Choice environment.Event)}
    (safe : discipline.PoolSafe post start)
    (hRun : Transition.run (Pool.step environment) actions start = some finish) :
    discipline.PoolSafe post finish :=
  Transition.run_invariant (Pool.step environment) (fun _ _ _ safe h => safe.step hPost h)
    safe hRun

end Discipline

end Interaction
