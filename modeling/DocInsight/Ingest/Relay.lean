import DocInsight.Worker.Processing
import DocInsight.Worker.Repository

/-! At-least-once publishing with transaction-held row locks. -/
namespace DocInsight.Ingest

open DocInsight.Contracts DocInsight.Worker Interaction Table

/-- The rows of a tenant that are still to publish, oldest first. -/
def pendingBatch (tenantId : String) (batch : Nat) (database : Database) : List OutboxRow :=
  let pending := database.outbox.filter fun row =>
    row.tenantId = tenantId ∧ row.publishedAt = none
  (orderBy (fun row => toLex (row.createdAt, row.id.bits.toNat)) pending).take batch

def setPublished (tenantId : String) (id : UUID) (now : Timestamp) (database : Database) :
    Database :=
  { database with
    outbox := updateWhere (fun row => row.tenantId = tenantId ∧ row.id = id)
      (fun row => { row with publishedAt := some now }) database.outbox }

/-- What a relay is given: its statements in a transaction, and the stream it writes to. -/
structure RelayBackend (Call : Type) (Response : Call → Type) where
  outside : (query : Outside) → Program Call Response Failure query.Answer
  begin : String → Program Call Response Failure Unit
  selectPending : String → Nat → Program Call Response Failure (List OutboxRow)
  publish : DocumentUploaded → Program Call Response Failure Unit
  setPublished : String → UUID → Program Call Response Failure Unit
  commit : Program Call Response Failure Unit
  rollback : Program Call Response Failure Unit

section Relay
variable {Call : Type} {Response : Call → Type} (backend : RelayBackend Call Response)

/-- `with engine.begin()`: commit what succeeds, roll back what raises. -/
def transaction {Result : Type} (tenantId : String)
    (body : Program Call Response Failure Result) : Program Call Response Failure Result := do
  backend.begin tenantId
  body.andThen fun
    | .error error => backend.rollback.andThen fun _ => throw error
    | .ok result => backend.commit.andThen fun
        | .ok _ => pure result
        | .error error => backend.rollback.andThen fun _ => throw error

/-- Publish each row of a locked batch, and mark it. -/
def publishRows (tenantId : String) : List OutboxRow → Program Call Response Failure Unit
  | [] => pure ()
  | row :: rest => do
      let traceparent ← backend.outside .traceparent
      backend.publish { row.payload with traceparent }
      backend.setPublished tenantId row.id
      publishRows tenantId rest

/-- Publish a locked batch for one tenant and return its committed row count. -/
def runOnce (tenantId : String) (batch : Nat) : Program Call Response Failure Nat :=
  if batch < 1 then throw (.value "ValueError")
  else
    transaction backend tenantId do
      let rows ← backend.selectPending tenantId batch
      publishRows backend tenantId rows
      pure rows.length

def runTenants (batch : Nat) : List String → Program Call Response Failure Unit
  | [] => pure ()
  | tenant :: rest => do
      let _ ← runOnce backend tenant batch
      runTenants batch rest

/-- Poll each configured tenant in its own transaction until shutdown. -/
def run (tenants : List String) (batch : Nat) : Nat → Program Call Response Failure Unit
  | 0 => pure ()
  | turns + 1 => do
      let stopping ← backend.outside .stopping
      if stopping then pure ()
      else do
        runTenants backend batch tenants
        backend.outside .wait
        run tenants batch turns

end Relay

end DocInsight.Ingest
