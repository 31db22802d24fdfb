import DocInsight.Query.Generation
import DocInsight.Query.LedgerInvariant

/-! Attempts of any number of query processes over one ledger and one provider. Calls
of different attempts interleave, any of them may fail, and an attempt may crash. -/
namespace DocInsight.Query

open DocInsight.Contracts DocInsight.Python Interaction Table

/-- One request handled by some process. -/
structure Attempt where
  process : Nat
  tenant : String
  question : Text
  passages : List Text

/-- What an attempt has seen so far: the reservation answered to it, whether it was
refused before sending, and whether the ledger failed it at settlement. -/
structure AttemptRecord where
  reservation : Option UUID := none
  refused : Bool := false
  settleFailed : Bool := false
  deriving DecidableEq, Repr

/-- The state of one process: its free slots with the attempts that hold the others,
and its breaker. -/
structure ProcessState where
  free : Nat
  holders : List Nat := []
  breaker : CircuitBreaker
  deriving DecidableEq, Repr

/-- An HTTP call the provider was sent, under the reservation its attempt held then.
Billing is final once a response settles it. -/
structure ProviderCall where
  attempt : Nat
  reservation : Option UUID
  billed : Nat := 0
  final : Bool := false
  deriving DecidableEq, Repr

structure HostedState where
  ledger : LedgerSession := {}
  processes : Nat → ProcessState
  records : Nat → AttemptRecord := fun _ => {}
  calls : List ProviderCall := []

/-- How a transaction ends for its caller: answered, committed without an answer, or
rolled back. -/
inductive Ending where
  | committed
  | lost
  | failed
  deriving DecidableEq, Repr

inductive HostedChoice where
  | reserved (today : Day) (identifier : UUID) (ending : Ending)
  | settled (ending : Ending)
  | slot
  | clock (now : ℚ)
  | sent
  | unsent (error : HostedError)
  | response (response : HttpResponse)
  | raised (error : HostedError)

/-- The provider bills some tokens for an attempt's call. -/
inductive HostedEvent where
  | bill (attempt : Nat) (tokens : Nat)

/-- The billing a response settles: a client rejection is not billed, and well-formed
usage is what was billed. -/
def HttpResponse.settles (response : HttpResponse) (pydantic : Pydantic) : Option Nat :=
  if 400 ≤ response.status ∧ response.status < 500 then some 0
  else if response.isSuccess then
    match response.body with
    | none => none
    | some data =>
        match pydantic.responseUsage data response.requestId with
        | .ok (some usage) => some usage.total
        | _ => none
  else none

namespace HostedState

def callOf (state : HostedState) (attempt : Nat) : Option ProviderCall :=
  select ProviderCall.attempt attempt state.calls

def record (attempt : Nat) (change : AttemptRecord → AttemptRecord) (state : HostedState) :
    HostedState :=
  { state with
    records := fun other =>
      if other = attempt then change (state.records attempt) else state.records other }

def onProcess (process : Nat) (change : ProcessState → ProcessState) (state : HostedState) :
    HostedState :=
  { state with
    processes := fun other =>
      if other = process then change (state.processes process) else state.processes other }

def onCall (attempt : Nat) (change : ProviderCall → ProviderCall) (state : HostedState) :
    HostedState :=
  { state with calls := updateWhere (fun call => call.attempt = attempt) change state.calls }

@[simp] theorem record_self (attempt : Nat) (change : AttemptRecord → AttemptRecord)
    (state : HostedState) :
    (state.record attempt change).records attempt = change (state.records attempt) :=
  if_pos rfl

theorem record_of_ne {attempt other : Nat} (change : AttemptRecord → AttemptRecord)
    (state : HostedState) (h : other ≠ attempt) :
    (state.record attempt change).records other = state.records other :=
  if_neg h

theorem onProcess_of_ne {process other : Nat} (change : ProcessState → ProcessState)
    (state : HostedState) (h : other ≠ process) :
    (state.onProcess process change).processes other = state.processes other :=
  if_neg h

@[simp] theorem onProcess_self (process : Nat) (change : ProcessState → ProcessState)
    (state : HostedState) :
    (state.onProcess process change).processes process = change (state.processes process) :=
  if_pos rfl

def reserve (ledger : PostgresUsageLedger) (attempt : Nat) (tenant : String) (tokens : Int)
    (model : String) (today : Day) (identifier : UUID) (state : HostedState) :
    Ending → Except HostedError UUID × HostedState
  | .failed => (.error .database, state)
  | .lost =>
      (.error .database,
        { state with
          ledger := (state.ledger.reserve ledger today identifier tenant tokens model).2 })
  | .committed =>
      match state.ledger.reserve ledger today identifier tenant tokens model with
      | (.ok reservation, next) =>
          (.ok reservation, ({ state with ledger := next } : HostedState).record attempt
            ({ · with reservation := some reservation }))
      | (.error (.budgetExceeded refusal), next) =>
          (.error (.budgetExceeded refusal), { state with ledger := next })
      | (.error .integrity, next) => (.error .database, { state with ledger := next })

def settle (attempt : Nat) (tenant : String) (reservation : UUID) (usage : Option TokenUsage)
    (outcome : String) (state : HostedState) :
    Ending → Except HostedError Unit × HostedState
  | .failed => (.error .database, state.record attempt ({ · with settleFailed := true }))
  | .lost =>
      (.error .database,
        ({ state with ledger := (state.ledger.settle tenant reservation usage outcome).2 } :
          HostedState).record attempt ({ · with settleFailed := true }))
  | .committed =>
      match state.ledger.settle tenant reservation usage outcome with
      | (.ok _, next) => (.ok (), { state with ledger := next })
      | (.error _, next) =>
          (.error .database, ({ state with ledger := next } : HostedState).record attempt
            ({ · with settleFailed := true }))

/-- A free slot is taken; without one the attempt is refused. -/
def acquireSlot (attempt process : Nat) (state : HostedState) : Bool × HostedState :=
  if (state.processes process).free = 0 then
    (false, state.record attempt ({ · with refused := true }))
  else
    (true, state.onProcess process fun before =>
      { before with free := before.free - 1, holders := attempt :: before.holders })

/-- A bounded semaphore refuses a release beyond its capacity. -/
def releaseSlot (capacity attempt process : Nat) (state : HostedState) :
    Except HostedError Unit × HostedState :=
  if capacity ≤ (state.processes process).free then
    (.error (.value "Semaphore released too many times"), state)
  else
    (.ok (), state.onProcess process fun before =>
      { before with free := before.free + 1, holders := before.holders.erase attempt })

def acquireTicket (attempt process : Nat) (now : ℚ) (state : HostedState) :
    Option Nat × HostedState :=
  let answer := (state.processes process).breaker.acquire now
  let next := state.onProcess process ({ · with breaker := answer.2 })
  match answer.1 with
  | some ticket => (some ticket, next)
  | none => (none, next.record attempt ({ · with refused := true }))

def finishTicket (process ticket : Nat) (success : Bool) (now : ℚ) (state : HostedState) :
    HostedState :=
  state.onProcess process fun before =>
    { before with breaker := before.breaker.finish now ticket success }

def send (attempt : Nat) (state : HostedState) : HostedState :=
  { state with
    calls := state.calls ++
      [{ attempt, reservation := (state.records attempt).reservation }] }

/-- A response is possible when it agrees with what the provider has billed. -/
def receive (pydantic : Pydantic) (attempt : Nat) (response : HttpResponse)
    (state : HostedState) : Option HostedState :=
  match state.callOf attempt with
  | none => none
  | some call =>
      match response.settles pydantic with
      | none => some state
      | some billed =>
          if call.billed = billed then some (state.onCall attempt ({ · with final := true }))
          else none

/-- The row of the reservation a call was sent under. -/
def reservationOf (state : HostedState) (call : ProviderCall) : Option UsageRow :=
  call.reservation.bind fun id => select UsageRow.id id state.ledger.tables.llmUsage

/-- The tokens billed for the calls sent under one day's reservations. -/
def billed (state : HostedState) (key : String × Day) : Int :=
  sumWhere (fun call => (state.reservationOf call).any (·.budget = key)) (·.billed) state.calls

/-- The provider bills at most the reserved amount per call, and nothing once a
response has settled it. -/
def bill (attempt tokens : Nat) (state : HostedState) : Option HostedState :=
  match state.callOf attempt with
  | none => none
  | some call =>
      if call.final || (state.reservationOf call).any
          fun row => row.reservedTokens < (call.billed + tokens : Int) then none
      else some (state.onCall attempt fun call => { call with billed := call.billed + tokens })

end HostedState

/-- The validated settings that reach the ledger and the generators. -/
structure Settings where
  apiKey : String
  openaiModel : String
  llmMaxOutputTokens : Nat
  llmConcurrency : Nat
  llmDailyTokens : Nat
  breaker : BreakerSettings

/-- The settings shared by all processes, and the attempts made in them. -/
structure Deployment where
  settings : Settings
  pydantic : Pydantic
  fallback : Text → List Text → Generation
  attempts : Nat → Attempt

namespace Deployment

def ledger (deployment : Deployment) : PostgresUsageLedger :=
  { limit := deployment.settings.llmDailyTokens }

def primary (deployment : Deployment) : OpenAIGenerator :=
  { key := deployment.settings.apiKey
    concurrency := deployment.settings.llmConcurrency
    breaker := deployment.settings.breaker
    pydantic := deployment.pydantic }

/-- The generator as the runtime wires it when it has a primary. -/
def generator (deployment : Deployment) : FallbackGenerator :=
  { primary := some deployment.primary
    model := deployment.settings.openaiModel
    ledger := some deployment.ledger
    maxOutput := deployment.settings.llmMaxOutputTokens
    fallback := deployment.fallback }

/-- Refused before sending: by the process, or for want of a key. -/
def refused (deployment : Deployment) (records : Nat → AttemptRecord) (attempt : Nat) : Bool :=
  (records attempt).refused || deployment.primary.key.isEmpty

theorem refused_congr (deployment : Deployment) {records next : Nat → AttemptRecord}
    {attempt : Nat} (h : (next attempt).refused = (records attempt).refused) :
    deployment.refused next attempt = deployment.refused records attempt := by
  rw [refused, h, refused]

def perform (deployment : Deployment) (attempt : Nat) (state : HostedState) :
    (call : HostedCall) → HostedChoice → Option (Except HostedError call.Response × HostedState)
  | .reserve tenant tokens model, .reserved today identifier ending =>
      some (state.reserve deployment.ledger attempt tenant tokens model today identifier ending)
  | .settle tenant reservation usage outcome, .settled ending =>
      some (state.settle attempt tenant reservation usage outcome ending)
  | .acquireSlot, .slot =>
      let (slot, next) := state.acquireSlot attempt (deployment.attempts attempt).process
      some (.ok slot, next)
  | .releaseSlot, .slot =>
      some (state.releaseSlot deployment.primary.concurrency attempt
        (deployment.attempts attempt).process)
  | .acquireTicket, .clock now =>
      let (ticket, next) := state.acquireTicket attempt (deployment.attempts attempt).process now
      some (.ok ticket, next)
  | .finishTicket ticket success, .clock now =>
      some (.ok (), state.finishTicket (deployment.attempts attempt).process ticket success now)
  | .send _ _, .sent => some (.ok (), state.send attempt)
  | .send _ _, .unsent error => if error.transport then some (.error error, state) else none
  | .receive, .response response =>
      (state.receive deployment.primary.pydantic attempt response).map
        fun next => (.ok response, next)
  | .receive, .raised error => if error.transport then some (.error error, state) else none
  | _, _ => none

variable {deployment : Deployment} {attempt : Nat} {state next : HostedState}
  {choice : HostedChoice}

theorem perform_reserve {tenant : String} {tokens : Int} {model : String}
    {answer : Except HostedError UUID}
    (h : deployment.perform attempt state (.reserve tenant tokens model) choice =
      some (answer, next)) :
    ∃ today identifier ending,
      state.reserve deployment.ledger attempt tenant tokens model today identifier ending =
        (answer, next) := by
  cases choice with
  | reserved today identifier ending => exact ⟨today, identifier, ending, Option.some.inj h⟩
  | _ => cases h

theorem perform_settle {tenant : String} {reservation : UUID} {usage : Option TokenUsage}
    {outcome : String} {answer : Except HostedError Unit}
    (h : deployment.perform attempt state (.settle tenant reservation usage outcome) choice =
      some (answer, next)) :
    ∃ ending, state.settle attempt tenant reservation usage outcome ending = (answer, next) := by
  cases choice with
  | settled ending => exact ⟨ending, Option.some.inj h⟩
  | _ => cases h

theorem perform_acquireSlot {answer : Except HostedError Bool}
    (h : deployment.perform attempt state .acquireSlot choice = some (answer, next)) :
    ∃ slot, answer = .ok slot ∧
      state.acquireSlot attempt (deployment.attempts attempt).process = (slot, next) := by
  cases choice with
  | slot =>
      cases h
      exact ⟨_, rfl, rfl⟩
  | _ => cases h

theorem perform_releaseSlot {answer : Except HostedError Unit}
    (h : deployment.perform attempt state .releaseSlot choice = some (answer, next)) :
    state.releaseSlot deployment.primary.concurrency attempt
      (deployment.attempts attempt).process = (answer, next) := by
  cases choice with
  | slot => exact Option.some.inj h
  | _ => cases h

theorem perform_acquireTicket {answer : Except HostedError (Option Nat)}
    (h : deployment.perform attempt state .acquireTicket choice = some (answer, next)) :
    ∃ now ticket, answer = .ok ticket ∧
      state.acquireTicket attempt (deployment.attempts attempt).process now =
        (ticket, next) := by
  cases choice with
  | clock now =>
      cases h
      exact ⟨now, _, rfl, rfl⟩
  | _ => cases h

theorem perform_finishTicket {ticket : Nat} {success : Bool} {answer : Except HostedError Unit}
    (h : deployment.perform attempt state (.finishTicket ticket success) choice =
      some (answer, next)) :
    ∃ now, answer = .ok () ∧
      next = state.finishTicket (deployment.attempts attempt).process ticket success now := by
  cases choice with
  | clock now =>
      cases h
      exact ⟨now, rfl, rfl⟩
  | _ => cases h

theorem perform_send {question : Text} {passages : List Text} {answer : Except HostedError Unit}
    (h : deployment.perform attempt state (.send question passages) choice =
      some (answer, next)) :
    (answer = .ok () ∧ next = state.send attempt) ∨
      ∃ error, error.transport = true ∧ answer = .error error ∧ next = state := by
  cases choice with
  | sent =>
      cases h
      exact Or.inl ⟨rfl, rfl⟩
  | unsent error =>
      obtain ⟨hTransport, hSame⟩ := Option.ite_none_right_eq_some.mp h
      cases hSame
      exact Or.inr ⟨error, hTransport, rfl, rfl⟩
  | _ => cases h

theorem perform_receive {answer : Except HostedError HttpResponse}
    (h : deployment.perform attempt state .receive choice = some (answer, next)) :
    (∃ response, answer = .ok response ∧
        state.receive deployment.primary.pydantic attempt response = some next) ∨
      ∃ error, error.transport = true ∧ answer = .error error ∧ next = state := by
  cases choice with
  | response response =>
      obtain ⟨after, hReceive, hSame⟩ := Option.map_eq_some_iff.mp h
      cases hSame
      exact Or.inl ⟨response, rfl, hReceive⟩
  | raised error =>
      obtain ⟨hTransport, hSame⟩ := Option.ite_none_right_eq_some.mp h
      cases hSame
      exact Or.inr ⟨error, hTransport, rfl, rfl⟩
  | _ => cases h

/-- A crash leaves the shared state as it is: the database and the provider go on. -/
def environment (deployment : Deployment) :
    Environment Nat HostedState HostedCall HostedCall.Response HostedError where
  Choice := HostedChoice
  Event := HostedEvent
  perform := deployment.perform
  event := fun state (.bill attempt tokens) => state.bill attempt tokens
  crash := fun _ state => state

/-- Every process starts with its slots free and its breaker closed. -/
def start (deployment : Deployment) : HostedState where
  processes := fun _ =>
    { free := deployment.primary.concurrency, breaker := .new deployment.primary.breaker }

/-- Every attempt runs the generator over the shared ledger. -/
def pool (deployment : Deployment) :
    Pool Nat HostedState HostedCall HostedCall.Response HostedError
      (Generation × GenerationInfo) where
  state := deployment.start
  programs := fun attempt =>
    let request := deployment.attempts attempt
    some (deployment.generator.generate request.tenant request.question request.passages)

end Deployment

end DocInsight.Query
