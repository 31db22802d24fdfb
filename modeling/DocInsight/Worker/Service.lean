import DocInsight.Worker.Processing

/-! Sequential stream consumer; durable persistence precedes acknowledgement. -/
namespace DocInsight.Worker

open DocInsight.Contracts Interaction

structure WorkerSettings where
  maxAttempts : Nat := 5
  reclaimSeconds : ℚ := 30
  deriving DecidableEq, Repr

/-- What a worker keeps from one turn to the next. -/
structure WorkerState where
  ready : Bool := false
  nextReclaim : ℚ := 0
  cursor : String := "0-0"
  deriving DecidableEq, Repr

/-- The fields of a dead letter. -/
def deadLetterFields (fields : Fields) (error : String) (attempts : Nat) : Fields :=
  setField (setField fields "error" error) "attempts" (toString attempts)

section Service
variable {Call : Type} {Response : Call → Type} (backend : Backend Call Response)
  (codec : Codec) (settings : WorkerSettings)

/-- Persist a terminal delivery to the dead-letter stream before acknowledging it. -/
def deadLetter (message : StreamMessage) (error : String) (attempts : Nat) :
    Program Call Response Failure Unit := do
  -- A crash between these calls may duplicate a dead letter, but cannot lose it.
  backend.stream (.addDeadLetter (deadLetterFields message.fields error attempts))
  backend.stream (.acknowledge message.id)

def fail (message : StreamMessage) (event : WorkerEvent) (error : String) (attempts : Nat) :
    Program Call Response Failure Unit := do
  backend.markStatus event.tenantId event.documentId .failed (some error)
  deadLetter backend message error attempts

/-- What follows an attempt to process a document. -/
def settle (message : StreamMessage) (event : WorkerEvent) (attempts : Nat) :
    Except Failure Unit → Program Call Response Failure Unit
  | .ok _ => backend.stream (.acknowledge message.id)
  | .error error =>
      if error.isTransient then throw error
      else fail backend message event (error.className ++ ": processing failed") attempts

/-- What follows the lookup of the document of an event. -/
def handleLooked (message : StreamMessage) (event : WorkerEvent) (attempts : Nat) :
    Except Failure StoredDocument → Program Call Response Failure Unit
  | .error error =>
      if error.isTransient then throw error
      else if error.isReference then
        deadLetter backend message (error.className ++ ": invalid document reference") attempts
      else throw error
  | .ok document =>
      -- Replay after a successful commit must succeed even past the delivery limit.
      if completed document.toDocumentRow then backend.stream (.acknowledge message.id)
      else if settings.maxAttempts < attempts then
        fail backend message event "DeliveryLimit: retry budget exhausted" attempts
      else (process backend event document).andThen (settle backend message event attempts)

/-- Check replay and retry limits, then acknowledge only a durable outcome. -/
def handleValid (message : StreamMessage) (event : WorkerEvent) (attempts : Nat) :
    Program Call Response Failure Unit :=
  (lookup backend event).andThen (handleLooked backend settings message event attempts)

/-- Validate one pending delivery; transient failures leave it pending. -/
def handle (message : StreamMessage) : Program Call Response Failure Unit := do
  let attempts ← backend.stream (.pending message.id)
  if attempts = 0 then pure ()
  else
    match WorkerEvent.modelValidate codec message.fields with
    | none => deadLetter backend message "ValidationError: invalid event" attempts
    | some event =>
        Program.tryCatch (handleValid backend settings message event attempts)
          fun error => if error.isTransient then pure () else throw error

/-- Handle a batch; stop between document attempts. -/
def handleAll : List StreamMessage → Program Call Response Failure Unit
  | [] => pure ()
  | message :: rest => do
      let stopping ← backend.outside .stopping
      if stopping then pure ()
      else do
        backend.stream .heartbeat
        handle backend codec settings message
        handleAll rest

/-- Go on after a program, or end the turn with its error and the state so far. -/
def guarded {Result : Type} (worker : WorkerState) (program : Program Call Response Failure Result)
    (next : Result → Program Call Response Failure (WorkerState × Except Failure Unit)) :
    Program Call Response Failure (WorkerState × Except Failure Unit) :=
  program.andThen fun
    | .ok result => next result
    | .error error => pure (worker, .error error)

/-- Handle what was reclaimed, or else new deliveries. -/
def receive (worker : WorkerState) (reclaimed : List StreamMessage) :
    Program Call Response Failure (WorkerState × Except Failure Unit) :=
  guarded worker (if reclaimed.isEmpty then backend.stream .readGroup else pure reclaimed)
    fun messages =>
  guarded worker (handleAll backend codec settings messages) fun _ =>
  guarded worker (backend.stream .heartbeat) fun _ =>
  pure (worker, .ok ())

/-- Advance the pending-entry scan; schedule cooldown only when the cursor wraps. -/
def reclaim (worker : WorkerState) :
    Program Call Response Failure (WorkerState × Except Failure Unit) :=
  guarded worker (backend.stream (.autoClaim worker.cursor)) fun (cursor, messages) =>
  -- An empty page can still have a continuation cursor; keep scanning next pass.
  if cursor = "0-0" then
    guarded { worker with cursor } (backend.outside .clock) fun now =>
    receive backend codec settings
      { worker with cursor, nextReclaim := now + settings.reclaimSeconds } messages
  else receive backend codec settings { worker with cursor } messages

/-- Reclaim idle work before new deliveries. -/
def runOnce (worker : WorkerState) :
    Program Call Response Failure (WorkerState × Except Failure Unit) :=
  guarded worker (backend.outside .stopping) fun stopping =>
  if stopping then pure (worker, .ok ())
  else
    guarded worker (if worker.ready then pure () else backend.stream .createGroup) fun _ =>
    let worker := { worker with ready := true }
    guarded worker (backend.stream .heartbeat) fun _ =>
    if worker.cursor ≠ "0-0" then reclaim backend codec settings worker
    else
      guarded worker (backend.outside .clock) fun now =>
      if worker.nextReclaim ≤ now then reclaim backend codec settings worker
      else receive backend codec settings worker []

/-- Keep consuming, with backoff when the queue or storage is unavailable. -/
def run : Nat → WorkerState → Program Call Response Failure Unit
  | 0, _ => pure ()
  | turns + 1, worker => do
      let stopping ← backend.outside .stopping
      if stopping then pure ()
      else do
        let (worker, outcome) ← runOnce backend codec settings worker
        match outcome with
        | .ok _ => run turns worker
        | .error error =>
            if error.isRedis || error.isTransient then do
              backend.outside .wait
              run turns { worker with ready := false }
            else throw error

end Service

end DocInsight.Worker
