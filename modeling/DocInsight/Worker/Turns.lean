import DocInsight.Worker.Service

/-! What holds of a consumer from turn to turn, from what holds of each call of a turn. -/
namespace DocInsight.Worker

open DocInsight.Contracts Interaction Interaction.Discipline

variable {Agent State Call : Type} {Response : Call → Type}
  {environment : Environment Agent State Call Response Failure}

/-- An answer, or an error, establishes what is known of it. -/
def Answered {Result : Type} (ok : Result → State → Prop) (error : Failure → State → Prop) :
    Except Failure Result → State → Prop
  | .ok result => ok result
  | .error raised => error raised

/-- The rules of the turns of a consumer: what is known between its calls, when it is due
to claim, what it knows of claimed and of received messages, what an error leaves, and what
one leaves that is raised where no turn is under way. -/
structure TurnRules (discipline : Discipline environment) (agent : Agent)
    (backend : Backend Call Response) (codec : Codec) (settings : WorkerSettings) where
  Known : WorkerState → State → Prop
  Due : WorkerState → State → Prop
  Claimed : WorkerState → String → List StreamMessage → State → Prop
  Ready : WorkerState → List StreamMessage → State → Prop
  Ended : WorkerState → Failure → State → Prop
  Raised : Failure → State → Prop
  stopping : ∀ worker state, Known worker state → discipline.Safe agent
    (backend.outside .stopping) (Answered (fun _ => Known worker) Raised) state
  waiting : ∀ worker state, Known worker state → discipline.Safe agent
    (backend.outside .wait) (Answered (fun _ => Known worker) Raised) state
  heartbeat : ∀ worker state, Known worker state → discipline.Safe agent
    (backend.stream .heartbeat) (Answered (fun _ => Known worker) (Ended worker)) state
  createGroup : ∀ worker state, Known worker state → discipline.Safe agent
    (backend.stream .createGroup) (Answered (fun _ => Known worker) (Ended worker)) state
  readGroup : ∀ worker state, Known worker state → discipline.Safe agent
    (backend.stream .readGroup) (Answered (Ready worker) (Ended worker)) state
  clock : ∀ worker state, Known worker state → discipline.Safe agent (backend.outside .clock)
    (Answered (fun now later =>
      if worker.nextReclaim ≤ now then Due worker later else Known worker later)
      (Ended worker)) state
  scanning : ∀ worker state, Known worker state → worker.cursor ≠ "0-0" → Due worker state
  autoClaim : ∀ worker state, Due worker state → discipline.Safe agent
    (backend.stream (.autoClaim worker.cursor))
    (Answered (fun claimed => Claimed worker claimed.1 claimed.2) (Ended worker)) state
  continued : ∀ worker cursor messages state, Claimed worker cursor messages state →
    cursor ≠ "0-0" → Ready { worker with cursor } messages state
  wrapped : ∀ worker messages state, Claimed worker "0-0" messages state →
    discipline.Safe agent (backend.outside .clock)
      (Answered (fun now => Ready { worker with
          cursor := "0-0", nextReclaim := now + settings.reclaimSeconds } messages)
        (Ended { worker with cursor := "0-0" })) state
  nothing : ∀ worker state, Ready worker [] state ↔ Known worker state
  handleAll : ∀ worker messages state, Ready worker messages state → discipline.Safe agent
    (handleAll backend codec settings messages)
    (Answered (fun _ => Known worker) (Ended worker)) state
  created : ∀ worker state, Known worker state → Known { worker with ready := true } state
  raised : ∀ worker error state, Raised error state → Ended worker error state
  caught : ∀ worker error state, Ended worker error state →
    (error.isRedis || error.isTransient) = true → Known { worker with ready := false } state

namespace TurnRules

variable {discipline : Discipline environment} {agent : Agent} {backend : Backend Call Response}
  {codec : Codec} {settings : WorkerSettings}
  (rules : TurnRules discipline agent backend codec settings)

/-- What a turn leaves: what is known of the worker's state, or what an error left. -/
def Turned : Except Failure (WorkerState × Except Failure Unit) → State → Prop :=
  Answered (fun turn => Answered (fun _ => rules.Known turn.1) (rules.Ended turn.1) turn.2)
    fun _ _ => False

variable {rules}

theorem guarded {Result : Type} {worker : WorkerState} {state : State}
    {program : Program Call Response Failure Result}
    {next : Result → Program Call Response Failure (WorkerState × Except Failure Unit)}
    (h : discipline.Safe agent program (Answered (fun result later =>
      discipline.Safe agent (next result) rules.Turned later) (rules.Ended worker)) state) :
    discipline.Safe agent (guarded worker program next) rules.Turned state := by
  apply Safe.andThen
  apply h.mono
  intro outcome later hOutcome
  cases outcome with
  | ok result => exact hOutcome
  | error error => exact hOutcome

/-- A turn goes on after a call with what its answer has established. -/
theorem guarded_mono {Result : Type} {worker : WorkerState} {state : State}
    {program : Program Call Response Failure Result} {ok : Result → State → Prop}
    {next : Result → Program Call Response Failure (WorkerState × Except Failure Unit)}
    (h : discipline.Safe agent program (Answered ok (rules.Ended worker)) state)
    (hNext : ∀ result later, ok result later →
      discipline.Safe agent (next result) rules.Turned later) :
    discipline.Safe agent (Worker.guarded worker program next) rules.Turned state := by
  apply guarded
  apply h.mono
  intro outcome later hOutcome
  cases outcome with
  | ok result => exact hNext result later hOutcome
  | error error => exact hOutcome

theorem received {worker : WorkerState} {messages : List StreamMessage} {state : State}
    (ready : rules.Ready worker messages state) :
    discipline.Safe agent
      (Worker.guarded worker (Worker.handleAll backend codec settings messages) fun _ =>
        Worker.guarded worker (backend.stream .heartbeat) fun _ => pure (worker, .ok ()))
      rules.Turned state := by
  apply guarded_mono (rules.handleAll worker messages state ready)
  intro _ handled hHandled
  apply guarded_mono (rules.heartbeat worker handled hHandled)
  intro _ beaten hBeaten
  exact hBeaten

/-- Where nothing was reclaimed, new deliveries are read. -/
theorem receive {worker : WorkerState} {reclaimed : List StreamMessage} {state : State}
    (ready : rules.Ready worker reclaimed state) :
    discipline.Safe agent (receive backend codec settings worker reclaimed) rules.Turned
      state := by
  unfold Worker.receive
  cases reclaimed with
  | nil =>
      apply guarded_mono (rules.readGroup worker state ((rules.nothing worker state).mp ready))
      intro messages later hLater
      exact received hLater
  | cons message rest =>
      apply guarded
      exact received ready

theorem reclaim {worker : WorkerState} {state : State} (due : rules.Due worker state) :
    discipline.Safe agent (reclaim backend codec settings worker) rules.Turned state := by
  apply guarded_mono (rules.autoClaim worker state due)
  rintro ⟨cursor, messages⟩ claimed hClaimed
  simp only
  split_ifs with hWrapped
  · subst hWrapped
    apply guarded_mono (rules.wrapped worker messages claimed hClaimed)
    intro now later ready
    exact receive ready
  · exact receive (rules.continued worker cursor messages claimed hClaimed hWrapped)

theorem runOnce {worker : WorkerState} {state : State} (known : rules.Known worker state) :
    discipline.Safe agent (runOnce backend codec settings worker) rules.Turned state := by
  apply guarded
  apply (rules.stopping worker state known).mono
  intro answer asked hAsked
  cases answer with
  | error error => exact rules.raised worker error asked hAsked
  | ok stopping =>
      show discipline.Safe agent (if stopping then _ else _) rules.Turned asked
      split
      · exact hAsked
      · have hReady : discipline.Safe agent
            (if worker.ready then pure () else backend.stream .createGroup)
            (Answered (fun _ => rules.Known worker) (rules.Ended worker)) asked := by
          split_ifs
          · exact hAsked
          · exact rules.createGroup worker asked hAsked
        apply guarded_mono hReady
        intro _ created hCreated
        apply guarded_mono (rules.heartbeat _ created (rules.created worker created hCreated))
        intro _ beaten hBeaten
        split
        · rename_i hCursor
          exact reclaim (rules.scanning _ beaten hBeaten hCursor)
        · apply guarded_mono (rules.clock _ beaten hBeaten)
          intro now later hLater
          simp only at hLater ⊢
          split_ifs at hLater ⊢
          · exact reclaim hLater
          · exact receive ((rules.nothing _ later).mpr hLater)

/-- What the consumer comes to: it is told to stop, or its turns are over, or it is ended
by an error that its loop does not catch. -/
def Finished : Except Failure Unit → State → Prop :=
  Answered (fun _ state => ∃ worker, rules.Known worker state) fun error state =>
    rules.Raised error state ∨
      (error.isRedis || error.isTransient) = false ∧ ∃ worker, rules.Ended worker error state

/-- The loop goes on from what is known to what is known, turn by turn. -/
theorem run (turns : Nat) {worker : WorkerState} {state : State}
    (known : rules.Known worker state) :
    discipline.Safe agent (run backend codec settings turns worker) rules.Finished state := by
  induction turns generalizing worker state with
  | zero => exact ⟨worker, known⟩
  | succ turns ih =>
      apply Safe.bind
      apply (rules.stopping worker state known).mono
      intro stopping asked hAsked
      cases stopping with
      | error error => exact Or.inl hAsked
      | ok stopping =>
          simp only
          split_ifs
          · exact ⟨worker, hAsked⟩
          · apply Safe.bind
            apply (runOnce hAsked).mono
            intro turn turned hTurned
            cases turn with
            | error error => exact hTurned.elim
            | ok turn =>
                obtain ⟨next, outcome⟩ := turn
                cases outcome with
                | ok done => exact ih hTurned
                | error error =>
                    simp only
                    split_ifs with hCaught
                    · apply Safe.bind
                      apply (rules.waiting _ turned
                        (rules.caught next error turned hTurned hCaught)).mono
                      intro waited later hLater
                      cases waited with
                      | error error => exact Or.inl hLater
                      | ok waited => exact ih hLater
                    · exact Or.inr ⟨Bool.not_eq_true _ ▸ hCaught, next, hTurned⟩

end TurnRules

end DocInsight.Worker
