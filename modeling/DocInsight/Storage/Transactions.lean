import DocInsight.Storage.Postgres

/-! The repository's operations as the statements of their transactions. -/
namespace DocInsight.Storage

open DocInsight.Contracts DocInsight.Worker Interaction

/-- A program of calls to the database, the object store and the surroundings. -/
abbrev Procedure (Result : Type) := Program Call Response Failure Result

abbrev perform (request : Call) : Procedure (Response request) := Program.perform request

abbrev execute (statement : Statement) : Procedure statement.Answer :=
  perform (.execute statement)

/-- `with engine.begin()`: commit what succeeds, roll back what raises. -/
def transaction {Result : Type} (body : Procedure Result) : Procedure Result := do
  perform .begin
  body.andThen fun
    | .error error => (perform .rollback).andThen fun _ => throw error
    | .ok result => (perform .commit).andThen fun
        | .ok _ => pure result
        | .error error => throw error

/-- A row as a document without its derived output. -/
def storedRow (row : DocumentRow) : StoredDocument := { row with }

/-- Look up a duplicate only within the requesting tenant. -/
def findBySha256 (tenantId sha256 : String) : Procedure (Option StoredDocument) :=
  transaction do
    let row ← execute (.selectByContent tenantId sha256)
    pure (row.map storedRow)

/-- The event of a registration, unless its tenant or its digest is not valid. -/
def uploadedEvent (record : DocumentRow) (eventId : UUID) (traceparent : Option String) :
    Except Failure DocumentUploaded :=
  if hValid : validTenant record.tenantId = true ∧ validDigest record.sha256 = true then
    .ok { eventId, tenantId := record.tenantId, documentId := record.id, sha256 := record.sha256,
          objectKey := record.objectKey.getD "", mediaType := record.mediaType,
          sizeBytes := record.sizeBytes.getD 0, occurredAt := record.createdAt, traceparent,
          valid_tenant := hValid.1, valid_digest := hValid.2 }
  else .error (.value "ValidationError")

/-- Persist the event and active trace parent in the document transaction. -/
def enqueue (record : DocumentRow) : Procedure Unit := do
  let eventId ← perform .identifier
  let traceparent ← perform (.outside .traceparent)
  match uploadedEvent record eventId traceparent with
  | .error error => throw error
  | .ok event => execute (.insertOutbox (outboxRow event))

/-- Let the tenant/hash constraint choose one winner and enqueue only that insert. -/
def registerRecord (record : DocumentRow) : Procedure StoredDocument :=
  transaction do
    let inserted ← execute (.insertDocument record)
    match inserted with
    | some row => do
        enqueue record
        pure (storedRow row)
    | none => do
        -- Another upload won the unique key; return its ID without a second event.
        let found ← execute (.selectByContent record.tenantId record.sha256)
        match found with
        | some row => pure (storedRow row)
        | none => throw (.other "NoResultFound")

/-- Register uploaded metadata and an outbox event, or return the existing record. -/
def registerUpload (tenantId filename sha256 : String) (mediaType : MediaType)
    (sizeBytes : Nat) (objectKey : String) : Procedure StoredDocument := do
  let id ← perform .identifier
  let createdAt ← perform .clock
  registerRecord
    { id, tenantId, filename, sha256, mediaType, status := .uploaded,
      sizeBytes := some sizeBytes, objectKey := some objectKey, createdAt }

/-- Update tenant-owned status; retain a sanitized error only for failures. -/
def markStatus (tenantId : String) (documentId : UUID) (status : DocumentStatus)
    (error : Option String) : Procedure Unit :=
  transaction do
    let found ← execute (.updateStatus tenantId documentId status error)
    match found with
    | some _ => pure ()
    | none => throw (.lookup "LookupError")

section Upsert
variable (uuid5 : UUID → String → UUID) (dimension : Nat)

def replaceChunks (tenantId : String) (documentId : UUID) (chunks : List Chunk) :
    Procedure Unit := do
  execute (.deleteChunks tenantId documentId)
  if chunks.isEmpty then pure ()
  else execute (.insertChunks (chunkRows uuid5 tenantId documentId chunks))

def replaceEntities (tenantId : String) (documentId : UUID) (entities : List Entity) :
    Procedure Unit := do
  execute (.deleteEntities tenantId documentId)
  if entities.isEmpty then pure ()
  else execute (.insertEntities (entityRows uuid5 tenantId documentId entities))

/-- Replace validated derived rows within the caller-owned document transaction. -/
def replace (tenantId : String) (documentId : UUID) (chunks : List Chunk)
    (entities : List Entity) : Procedure Unit :=
  match chunks.forM fun chunk => validateVector (chunk.embedding.getD []) dimension with
  | .error _ => throw (.value "ValueError")
  | .ok _ => do
      replaceChunks uuid5 tenantId documentId chunks
      replaceEntities uuid5 tenantId documentId entities

/-- Lock the tenant-owned parent before atomically replacing its derived rows. -/
def replaceChunksAndEntities (tenantId : String) (documentId : UUID) (chunks : List Chunk)
    (entities : List Entity) : Procedure Unit :=
  transaction do
    let owner ← execute (.lockDocument tenantId documentId)
    match owner with
    | none => throw (.lookup "LookupError")
    | some _ => replace uuid5 dimension tenantId documentId chunks entities

/-- Commit metadata and derived output together, deduplicating by tenant and hash. -/
def upsertDocument (tenantId filename : String) (document : Document) :
    Procedure StoredDocument := do
  let id ← perform .identifier
  let now ← perform .clock
  match prepareDocument tenantId filename document id now with
  | .error _ => throw (.value "ValueError")
  | .ok record =>
      -- The conflict update locks this document until its replacement commits.
      transaction do
        let row ← execute (.upsertDocument record.toDocumentRow)
        replace uuid5 dimension tenantId row.id record.chunks record.entities
        pure { row with chunks := record.chunks, entities := record.entities }

end Upsert

/-- Read a document with its derived output in one snapshot. -/
def getDocument (tenantId : String) (documentId : UUID) : Procedure (Option StoredDocument) := do
  perform .begin
  Program.tryFinally (execute (.selectDocument tenantId documentId)) (perform .rollback)

/-- A worker's repository, with each operation as a transaction. -/
def backend (uuid5 : UUID → String → UUID) (dimension : Nat) (sha256 : Bytes → String) :
    Backend Call Response where
  outside query := perform (.outside query)
  stream command := perform (.stream command)
  getDocument
  markStatus
  upsertDocument tenantId filename document := do
    let _ ← upsertDocument uuid5 dimension tenantId filename document
    pure ()
  sha256

end DocInsight.Storage
