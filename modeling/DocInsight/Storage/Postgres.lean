import DocInsight.Storage.History
import DocInsight.Worker.Processing
import Mathlib.Logic.Function.Basic

/-! The database and the object store under concurrent transactions, one statement at a
time. A statement sees what is committed and its own transaction's writes; a row or a key
that it writes stays locked until the transaction ends. -/
namespace DocInsight.Storage

open DocInsight.Contracts DocInsight.Worker Interaction Table

/-- What a transaction locks: the row of a content, or an identifier that it inserts. -/
inductive Lock where
  | content (tenantId sha256 : String)
  | document (id : UUID)
  | chunk (id : UUID)
  | entity (id : UUID)
  | event (id : UUID)
  deriving DecidableEq, Repr

def Write.locks : Write → List Lock
  | .insertDocument row => [.content row.tenantId row.sha256, .document row.id]
  | .replaceDocument row => [.content row.tenantId row.sha256]
  | .insertChunks rows => rows.map fun row => .chunk row.id
  | .insertEntities rows => rows.map fun row => .entity row.id
  | .insertOutbox row => [.event row.id]
  | .deleteChunks _ _ | .deleteEntities _ _ => []

/-- The statements of the repository. -/
inductive Statement where
  | selectByContent (tenantId sha256 : String)
  | selectDocument (tenantId : String) (documentId : UUID)
  | insertDocument (record : DocumentRow)
  | insertOutbox (row : OutboxRow)
  | upsertDocument (record : DocumentRow)
  | deleteChunks (tenantId : String) (documentId : UUID)
  | insertChunks (rows : List ChunkRow)
  | deleteEntities (tenantId : String) (documentId : UUID)
  | insertEntities (rows : List EntityRow)
  | updateStatus (tenantId : String) (documentId : UUID) (status : DocumentStatus)
      (error : Option String)
  | lockDocument (tenantId : String) (documentId : UUID)

abbrev Statement.Answer : Statement → Type
  | selectByContent _ _ => Option DocumentRow
  | selectDocument _ _ => Option StoredDocument
  | insertDocument _ => Option DocumentRow
  | insertOutbox _ => Unit
  | upsertDocument _ => DocumentRow
  | deleteChunks _ _ => Unit
  | insertChunks _ => Unit
  | deleteEntities _ _ => Unit
  | insertEntities _ => Unit
  | updateStatus _ _ _ _ => Option UUID
  | lockDocument _ _ => Option UUID

/-- A violated key or reference. -/
def integrityError : Failure := .other "IntegrityError"

/-- Rows can be inserted under new identifiers, below documents that are there. -/
def insertable {Row : Type} (id : Row → UUID) (owner : Row → String × UUID)
    (documents : List DocumentRow) (rows added : List Row) : Bool :=
  ((rows ++ added).map id).Nodup ∧
    ∀ row ∈ added, (select DocumentRow.ownerKey (owner row) documents).isSome

/-- What a statement answers and writes where it sees this database. -/
def Statement.execute (database : Database) (now : Timestamp) :
    (statement : Statement) → Except Failure (statement.Answer × List Write)
  | .selectByContent tenantId sha256 => .ok (database.findByContent tenantId sha256, [])
  | .selectDocument tenantId documentId => .ok (database.getDocument tenantId documentId, [])
  | .insertDocument record =>
      -- `ON CONFLICT (tenant_id, sha256) DO NOTHING`
      match database.findByContent record.tenantId record.sha256 with
      | some _ => .ok (none, [])
      | none =>
          if (select DocumentRow.id record.id database.documents).isSome then
            .error integrityError
          else .ok (some record, [.insertDocument record])
  | .insertOutbox row =>
      if insertable OutboxRow.id (fun row => (row.tenantId, row.aggregateId))
          database.documents database.outbox [row] then
        .ok ((), [.insertOutbox row])
      else .error integrityError
  | .upsertDocument record =>
      -- `ON CONFLICT (tenant_id, sha256) DO UPDATE`
      match database.findByContent record.tenantId record.sha256 with
      | some row =>
          let replaced := replacedRow record now row
          .ok (replaced, [.replaceDocument replaced])
      | none =>
          if (select DocumentRow.id record.id database.documents).isSome then
            .error integrityError
          else
            let inserted := insertedRow record now
            .ok (inserted, [.insertDocument inserted])
  | .deleteChunks tenantId documentId => .ok ((), [.deleteChunks tenantId documentId])
  | .insertChunks rows =>
      if insertable ChunkRow.id (fun row => (row.tenantId, row.documentId))
          database.documents database.chunks rows then
        .ok ((), [.insertChunks rows])
      else .error integrityError
  | .deleteEntities tenantId documentId => .ok ((), [.deleteEntities tenantId documentId])
  | .insertEntities rows =>
      if insertable EntityRow.id (fun row => (row.tenantId, row.documentId))
          database.documents database.entities rows then
        .ok ((), [.insertEntities rows])
      else .error integrityError
  | .updateStatus tenantId documentId status error =>
      match database.findById tenantId documentId with
      | some row => .ok (some row.id, [.replaceDocument (statusRow status error row)])
      | none => .ok (none, [])
  | .lockDocument tenantId documentId =>
      -- `FOR UPDATE` locks the row as a write that changes nothing would.
      match database.findById tenantId documentId with
      | some row => .ok (some row.id, [.replaceDocument row])
      | none => .ok (none, [])

inductive Call where
  | begin
  | execute (statement : Statement)
  | commit
  | rollback
  | putObject (key : String) (stream : Bytes) (size : Nat)
  | identifier
  | clock
  | outside (query : Outside)
  | stream (command : StreamCommand)

abbrev Response : Call → Type
  | .begin => Unit
  | .execute statement => statement.Answer
  | .commit => Unit
  | .rollback => Unit
  | .putObject _ _ _ => Unit
  | .identifier => UUID
  | .clock => Timestamp
  | .outside query => query.Answer
  | .stream command => command.Answer

/-- What the surroundings settle about a call: its answers, and whether it raises. An
object may be stored although its put raises, and a transaction committed although the answer
to its commit is lost. -/
structure Choice where
  answer : (query : Outside) → query.Answer
  reply : (command : StreamCommand) → command.Answer
  identifier : UUID := ⟨0⟩
  now : Timestamp := 0
  failure : Option Failure := none
  stored : Bool := false

/-- Surroundings that have an identifier to give, and nothing else to say. -/
def giving (identifier : Nat) : Choice where
  answer
    | .stopping => false
    | .clock => (0 : ℚ)
    | .wait => ()
    | .makeDirectory => ()
    | .removeDirectory => ()
    | .openObject _ => ()
    | .readObject => []
    | .compute _ =>
        { pages := [], chunks := [], entities := [], embedModel := none, embedDimension := none }
    | .traceparent => none
  reply
    | .createGroup => ()
    | .heartbeat => ()
    | .readGroup => []
    | .autoClaim _ => ("0-0", [])
    | .pending _ => (0 : Nat)
    | .addDeadLetter _ => ()
    | .acknowledge _ => ()
  identifier := ⟨BitVec.ofNat 128 identifier⟩

/-- The committed tables, the open transactions with their locks, the stored objects, and
the commits so far, newest first. -/
structure Server where
  committed : Database := {}
  transactions : Nat → List Write := fun _ => []
  locks : List (Nat × Lock) := []
  objects : String → Option Bytes := fun _ => none
  history : List Commit := []

namespace Server

/-- What an agent's transaction sees. -/
def view (agent : Nat) (server : Server) : Database :=
  applyAll (server.transactions agent) server.committed

/-- Another transaction holds one of the locks. -/
def blocked (agent : Nat) (wanted : List Lock) (server : Server) : Bool :=
  server.locks.any fun held => held.1 ≠ agent ∧ held.2 ∈ wanted

/-- Add to an agent's transaction. -/
def stage (agent : Nat) (writes : List Write) (server : Server) : Server :=
  { server with
    transactions := Function.update server.transactions agent
      (server.transactions agent ++ writes)
    locks := (writes.flatMap Write.locks).map (Prod.mk agent) ++ server.locks }

/-- Release what an agent's transaction holds. -/
def finish (agent : Nat) (server : Server) : Server :=
  { server with
    transactions := Function.update server.transactions agent []
    locks := server.locks.filter fun held => held.1 ≠ agent }

/-- Make what an agent's transaction wrote visible to all. -/
def publish (agent : Nat) (answered : Bool) (server : Server) : Server :=
  let writes := server.transactions agent
  if writes.isEmpty then server
  else
    { server with
      committed := applyAll writes server.committed
      history := { agent, writes, answered } :: server.history }

/-- Store as many bytes of a stream as its caller says it has. -/
def putObject (key : String) (stream : Bytes) (size : Nat) (server : Server) : Server :=
  { server with objects := Function.update server.objects key (some (stream.take size)) }

def perform (agent : Nat) (server : Server) (request : Call) (choice : Choice) :
    Option (Except Failure (Response request) × Server) :=
  match request, choice.failure with
  | .begin, none => some (.ok (), server)
  | .execute statement, none =>
      match statement.execute (server.view agent) choice.now with
      | .error error => some (.error error, server)
      | .ok (answer, writes) =>
          if server.blocked agent (writes.flatMap Write.locks) then none
          else some (.ok answer, server.stage agent writes)
  | .commit, none => some (.ok (), (server.publish agent true).finish agent)
  | .commit, some error =>
      some (.error error,
        if choice.stored then (server.publish agent false).finish agent
        else server.finish agent)
  | .rollback, none => some (.ok (), server.finish agent)
  | .rollback, some error => some (.error error, server.finish agent)
  | .putObject key stream size, none =>
      if stream.length < size then some (.error (.value "ValueError"), server)
      else some (.ok (), server.putObject key stream size)
  | .putObject key stream size, some error =>
      some (.error error,
        if choice.stored ∧ size ≤ stream.length then server.putObject key stream size
        else server)
  | .identifier, none => some (.ok choice.identifier, server)
  | .clock, none => some (.ok choice.now, server)
  | .outside query, none => some (.ok (choice.answer query), server)
  | .stream command, none => some (.ok (choice.reply command), server)
  | .begin, some error => some (.error error, server)
  | .execute _, some error => some (.error error, server)
  | .identifier, some error => some (.error error, server)
  | .clock, some error => some (.error error, server)
  | .outside _, some error => some (.error error, server)
  | .stream _, some error => some (.error error, server)

end Server

/-- A crashed agent's connection is closed, which rolls its transaction back. -/
def environment : Environment Nat Server Call Response Failure where
  Choice := Choice
  Event := Empty
  perform := Server.perform
  event _ event := nomatch event
  crash := Server.finish

end DocInsight.Storage
