import DocInsight.Ingest.Relay
import DocInsight.Worker.Service
import Mathlib.Data.List.Sort

/-! Any number of workers and relays over one database and one stream group. Their calls
interleave, each of them may fail before or after its effect, and each process may crash. -/
namespace DocInsight.Delivery

open DocInsight.Contracts DocInsight.Worker DocInsight.Ingest Interaction Table

/-- An entry that was delivered to some worker and not acknowledged since. -/
structure PendingEntry where
  id : Nat
  deliveries : Nat
  deriving DecidableEq, Repr

/-- An open transaction of a relay: its tenant, the rows whose events it has written to
the stream, and the rows it will have marked when it commits. -/
structure RelayTransaction where
  tenantId : String := ""
  published : List UUID := []
  marked : List UUID := []
  deriving DecidableEq, Repr

/-- The delivery a worker is at, and whether nothing is left of it but its dead letter
and its acknowledgement. -/
structure Attempt where
  entry : Option Nat := none
  settled : Bool := false
  deriving DecidableEq, Repr

/-- What has happened, newest first in a history. -/
inductive Logged where
  | looked (agent : Nat) (found : Option DocumentRow)
  | committed (row : DocumentRow)
  | deadLettered (agent : Nat) (fields : Fields)
  | acknowledged (agent : Nat) (entry : StreamMessage)
  | relayed (agent : Nat) (tenantId : String) (event : DocumentUploaded) (id : Nat)
  | abandoned (agent : Nat) (published : List UUID)
  deriving DecidableEq, Repr

structure DeliveryState where
  database : Database := {}
  entries : List StreamMessage := []
  delivered : Nat := 0
  pending : List PendingEntry := []
  deadLetters : List Fields := []
  locks : List (Nat × UUID) := []
  transactions : Nat → RelayTransaction := fun _ => {}
  attempts : Nat → Attempt := fun _ => {}
  history : List Logged := []

inductive Call where
  | outside (query : Outside)
  | stream (command : StreamCommand)
  | getDocument (tenantId : String) (id : UUID)
  | markStatus (tenantId : String) (id : UUID) (status : DocumentStatus) (error : Option String)
  | upsertDocument (tenantId filename : String) (document : Document)
  | begin (tenantId : String)
  | selectPending (tenantId : String) (batch : Nat)
  | publish (event : DocumentUploaded)
  | setPublished (tenantId : String) (id : UUID)
  | commit
  | rollback

abbrev Response : Call → Type
  | .outside query => query.Answer
  | .stream command => command.Answer
  | .getDocument _ _ => Option StoredDocument
  | .markStatus _ _ _ _ => Unit
  | .upsertDocument _ _ _ => Unit
  | .begin _ => Unit
  | .selectPending _ _ => List OutboxRow
  | .publish _ => Unit
  | .setPublished _ _ => Unit
  | .commit => Unit
  | .rollback => Unit

/-- What the outside settles about a call: its answers, the entries a claim finds idle,
new identifiers and times, and whether the call raises, with or without its effect. -/
structure Choice where
  answer : (query : Outside) → query.Answer
  claimed : List Nat := []
  cursor : String := "0-0"
  identifier : UUID := ⟨0⟩
  now : Timestamp := 0
  failure : Option (Failure × Bool) := none

/-- An upload that passes the validation of its event. -/
structure Upload where
  tenantId : String
  filename : String
  sha256 : String
  mediaType : MediaType
  sizeBytes : Nat
  documentId : UUID
  eventId : UUID
  createdAt : Timestamp
  traceparent : Option String := none
  valid_tenant : validTenant tenantId = true
  valid_digest : validDigest sha256 = true
  deriving Repr

def Upload.record (upload : Upload) : DocumentRow :=
  { id := upload.documentId, tenantId := upload.tenantId, filename := upload.filename,
    sha256 := upload.sha256, mediaType := upload.mediaType, status := .uploaded,
    sizeBytes := some upload.sizeBytes,
    objectKey := some (contentObjectKey upload.tenantId upload.sha256),
    createdAt := upload.createdAt }

def Upload.event (upload : Upload) : WorkerEvent :=
  { eventId := upload.eventId, tenantId := upload.tenantId, documentId := upload.documentId,
    sha256 := upload.sha256, objectKey := contentObjectKey upload.tenantId upload.sha256,
    mediaType := upload.mediaType, sizeBytes := upload.sizeBytes,
    occurredAt := upload.createdAt, traceparent := upload.traceparent,
    valid_tenant := upload.valid_tenant, valid_digest := upload.valid_digest, valid_key := rfl }

/-- An upload is registered, or some other producer writes to the stream. -/
inductive Event where
  | register (upload : Upload)
  | append (fields : Fields)
  deriving Repr

/-- What the processes share: the wire codec, the digest and identifiers of the standard
library, the batch of a read, and the errors each call may raise. -/
structure Setting where
  codec : Codec
  sha256 : Bytes → String
  uuid5 : UUID → String → UUID
  batch : Nat
  raises : Call → Failure → Bool

namespace DeliveryState

/-- Add an entry to the stream, under the next identifier. -/
def addEntry (fields : Fields) (state : DeliveryState) : DeliveryState :=
  { state with entries := state.entries ++ [⟨state.entries.length, fields⟩] }

def setAttempt (agent : Nat) (attempt : Attempt) (state : DeliveryState) : DeliveryState :=
  { state with
    attempts := fun other => if other = agent then attempt else state.attempts other }

@[simp] theorem setAttempt_self (agent : Nat) (attempt : Attempt) (state : DeliveryState) :
    (state.setAttempt agent attempt).attempts agent = attempt :=
  if_pos rfl

def setTransaction (agent : Nat) (transaction : RelayTransaction) (state : DeliveryState) :
    DeliveryState :=
  { state with
    transactions := fun other =>
      if other = agent then transaction else state.transactions other }

/-- The relay's transaction ends and its row locks are released. -/
def endTransaction (agent : Nat) (state : DeliveryState) : DeliveryState :=
  { state.setTransaction agent {} with
    locks := state.locks.filter fun lock => lock.1 ≠ agent }

def log (logged : Logged) (state : DeliveryState) : DeliveryState :=
  { state with history := logged :: state.history }

/-- The relay's transaction ends without its marks. -/
def abandon (agent : Nat) (state : DeliveryState) : DeliveryState :=
  (state.endTransaction agent).log (.abandoned agent (state.transactions agent).published)

/-- A transaction has committed, and this row is what it stored. -/
def store (database : Database) (row : Option DocumentRow) (state : DeliveryState) :
    DeliveryState :=
  match row with
  | some row => { state with database, history := .committed row :: state.history }
  | none => { state with database }

@[simp] theorem store_database (database : Database) (row : Option DocumentRow)
    (state : DeliveryState) : (state.store database row).database = database := by
  cases row <;> rfl

@[simp] theorem store_entries (database : Database) (row : Option DocumentRow)
    (state : DeliveryState) : (state.store database row).entries = state.entries := by
  cases row <;> rfl

@[simp] theorem store_attempts (database : Database) (row : Option DocumentRow)
    (state : DeliveryState) : (state.store database row).attempts = state.attempts := by
  cases row <;> rfl

@[simp] theorem store_transactions (database : Database) (row : Option DocumentRow)
    (state : DeliveryState) : (state.store database row).transactions = state.transactions := by
  cases row <;> rfl

/-- The pending rows of a tenant that no other relay has locked, oldest first. -/
def pendingRows (agent : Nat) (tenantId : String) (batch : Nat) (state : DeliveryState) :
    List OutboxRow :=
  let free := state.database.outbox.filter fun row =>
    row.tenantId = tenantId ∧ row.publishedAt = none ∧
      ¬ state.locks.any fun lock => lock.2 = row.id ∧ lock.1 ≠ agent
  (free.insertionSort fun first second =>
    first.createdAt < second.createdAt ∨
      (first.createdAt = second.createdAt ∧ first.id.bits.toNat ≤ second.id.bits.toNat)).take batch

end DeliveryState

section Effect
variable (setting : Setting) (agent : Nat) (state : DeliveryState) (choice : Choice)

/-- What a command on the stream does. -/
def streamEffect : (command : StreamCommand) → Option (command.Answer × DeliveryState)
  | .createGroup => some ((), state)
  | .heartbeat => some ((), state)
  | .readGroup =>
      let messages := (state.entries.drop state.delivered).take setting.batch
      some (messages,
        { state with
          delivered := state.delivered + messages.length
          pending := state.pending ++ messages.map fun message => ⟨message.id, 1⟩ })
  | .autoClaim _ =>
      -- Which entries are idle for long enough is a matter of time.
      if choice.claimed.all fun id => state.pending.any fun entry => entry.id = id then
        some ((choice.cursor, state.entries.filter fun entry => choice.claimed.contains entry.id),
          { state with
            pending := updateWhere (fun entry => choice.claimed.contains entry.id)
              (fun entry => { entry with deliveries := entry.deliveries + 1 }) state.pending })
      else none
  | .pending id =>
      some (((select PendingEntry.id id state.pending).map PendingEntry.deliveries).getD 0, state)
  | .addDeadLetter fields =>
      some ((), { state with
        deadLetters := state.deadLetters ++ [fields]
        history := .deadLettered agent fields :: state.history })
  | .acknowledge id =>
      match select PendingEntry.id id state.pending, select StreamMessage.id id state.entries with
      | some _, some entry =>
          some ((), { state with
            pending := state.pending.filter fun other => other.id ≠ id
            history := .acknowledged agent entry :: state.history })
      | _, _ => some ((), state)

/-- What a call does, with the errors that the code itself raises. -/
def effect : (call : Call) → Option (Except Failure (Response call) × DeliveryState)
  | .outside query => some (.ok (choice.answer query), state)
  | .stream command =>
      (streamEffect setting agent state choice command).map fun (answer, after) =>
        (.ok answer, after)
  | .getDocument tenantId id => some (.ok (state.database.getDocument tenantId id), state)
  | .markStatus tenantId id status error =>
      match state.database.findById tenantId id with
      | none => some (.error (.lookup "LookupError"), state)
      | some row =>
          some (.ok (), state.store (state.database.markStatus tenantId id status error)
            (some (statusRow status error row)))
  | .upsertDocument tenantId filename document =>
      match prepareDocument tenantId filename document choice.identifier choice.now with
      | .error _ => some (.error (.value "ValueError"), state)
      | .ok record =>
          -- A new row has a new identifier.
          if (state.database.findByContent tenantId document.sha256).isSome ∨
              (select DocumentRow.id choice.identifier state.database.documents).isNone then
            let database := state.database.upsertDocument setting.uuid5 record choice.now
            some (.ok (), state.store database (database.findByContent tenantId document.sha256))
          else none
  | .begin tenantId => some (.ok (), (state.abandon agent).setTransaction agent { tenantId })
  | .selectPending tenantId batch =>
      let rows := state.pendingRows agent tenantId batch
      some (.ok rows, { state with locks := state.locks ++ rows.map fun row => (agent, row.id) })
  | .publish event =>
      let transaction := state.transactions agent
      some (.ok (), ((state.addEntry (event.streamFields setting.codec)).log
        (.relayed agent transaction.tenantId event state.entries.length)).setTransaction agent
          { transaction with published := transaction.published ++ [event.eventId] })
  | .setPublished tenantId id =>
      let transaction := state.transactions agent
      let found := state.database.outbox.any fun row => row.tenantId = tenantId ∧ row.id = id
      some (.ok (), state.setTransaction agent
        { transaction with
          marked := if found then transaction.marked ++ [id] else transaction.marked })
  | .commit =>
      let marked := (state.transactions agent).marked
      let database := { state.database with
        outbox := updateWhere (fun row => marked.contains row.id)
          (fun row => { row with publishedAt := some choice.now }) state.database.outbox }
      some (.ok (), { state with database }.endTransaction agent)
  | .rollback => some (.ok (), state.abandon agent)

/-- What a worker's answer to a call leaves it with. Anything that fails on the stream
ends its attempt. -/
def note : (call : Call) → Except Failure (Response call) → DeliveryState → DeliveryState
  | .stream (.pending id), .ok _, after => after.setAttempt agent { entry := some id }
  | .stream (.acknowledge _), .ok _, after => after.setAttempt agent {}
  | .stream _, .error _, after => after.setAttempt agent {}
  | .getDocument _ _, .ok found, after =>
      let row := found.map StoredDocument.toDocumentRow
      (after.log (.looked agent row)).setAttempt agent
        { after.attempts agent with settled := row.all completed }
  | .getDocument _ _, .error _, after => after.log (.looked agent none)
  | .markStatus _ _ status _, .ok _, after =>
      if status = .processed ∨ status = .failed then
        after.setAttempt agent { after.attempts agent with settled := true }
      else after
  | _, _, after => after

/-- One call of one process. -/
def perform (call : Call) : Option (Except Failure (Response call) × DeliveryState) :=
  match effect setting agent state choice call with
  | none => none
  | some (answer, after) =>
      match choice.failure with
      | none => some (answer, note agent call answer after)
      | some (error, taken) =>
          if setting.raises call error then
            some (.error error, note agent call (.error error) (if taken then after else state))
          else none

end Effect

/-- A registration commits a row with its event, under new identifiers; other entries are
anyone's. -/
def occur (state : DeliveryState) : Event → Option DeliveryState
  | .register upload =>
      match state.database.findByContent upload.tenantId upload.sha256 with
      | some _ => some state
      | none =>
          if (select DocumentRow.id upload.documentId state.database.documents).isNone ∧
              (select OutboxRow.id upload.eventId state.database.outbox).isNone then
            some (state.store (state.database.register upload.record upload.eventId
              upload.event.toDocumentUploaded) (some upload.record))
          else none
  | .append fields => some (state.addEntry fields)

/-- A crash ends what the process held. -/
def crash (agent : Nat) (state : DeliveryState) : DeliveryState :=
  (state.abandon agent).setAttempt agent {}

def environment (setting : Setting) : Environment Nat DeliveryState Call Response Failure where
  Choice := Choice
  Event := Event
  perform agent state call choice := perform setting agent state choice call
  event := occur
  crash := crash

abbrev Task := Program Call Response Failure

/-- A single call as a program. -/
def call (request : Call) : Task (Response request) := .call request .done

/-- The worker's backend: each operation of the repository is one transaction. -/
def backend (setting : Setting) : Backend Call Response where
  outside query := call (.outside query)
  stream command := call (.stream command)
  getDocument tenantId id := call (.getDocument tenantId id)
  markStatus tenantId id status error := call (.markStatus tenantId id status error)
  upsertDocument tenantId filename document := call (.upsertDocument tenantId filename document)
  sha256 := setting.sha256

def relayBackend : RelayBackend Call Response where
  outside query := call (.outside query)
  begin tenantId := call (.begin tenantId)
  selectPending tenantId batch := call (.selectPending tenantId batch)
  publish event := call (.publish event)
  setPublished tenantId id := call (.setPublished tenantId id)
  commit := call .commit
  rollback := call .rollback

/-- A process: a worker or a relay, for any number of turns. -/
inductive Process where
  | worker (settings : WorkerSettings) (turns : Nat) (memory : WorkerState)
  | relay (tenants : List String) (batch turns : Nat)
  deriving DecidableEq, Repr

def Process.task (setting : Setting) : Process → Task Unit
  | .worker settings turns memory =>
      Worker.run (backend setting) setting.codec settings turns memory
  | .relay tenants batch turns => Ingest.run relayBackend tenants batch turns

abbrev Deployment := Pool Nat DeliveryState Call Response Failure Unit

/-- Nothing is stored yet and every process is about to start. -/
def start (setting : Setting) (processes : Nat → Process) : Deployment where
  state := {}
  programs agent := some ((processes agent).task setting)

abbrev Move := Action Nat Choice Event

def step (setting : Setting) : Deployment → Move → Option Deployment :=
  Pool.step (environment setting)

end DocInsight.Delivery
