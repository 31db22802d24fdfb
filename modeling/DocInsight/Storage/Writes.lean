import DocInsight.Worker.Repository

/-! What the statements of one transaction write, and the repository operation that the
writes of a whole transaction amount to. -/
namespace DocInsight.Storage

open DocInsight.Contracts DocInsight.Worker Table

/-- What one statement changes. -/
inductive Write where
  | insertDocument (row : DocumentRow)
  | replaceDocument (row : DocumentRow)
  | deleteChunks (tenantId : String) (documentId : UUID)
  | insertChunks (rows : List ChunkRow)
  | deleteEntities (tenantId : String) (documentId : UUID)
  | insertEntities (rows : List EntityRow)
  | insertOutbox (row : OutboxRow)
  deriving DecidableEq, Repr

def Write.apply (database : Database) : Write → Database
  | .insertDocument row => { database with documents := database.documents ++ [row] }
  | .replaceDocument row =>
      { database with
        documents := updateWhere (fun old => old.contentKey = row.contentKey) (fun _ => row)
          database.documents }
  | .deleteChunks tenantId documentId =>
      { database with
        chunks := database.chunks.filter fun child =>
          ¬ (child.tenantId = tenantId ∧ child.documentId = documentId) }
  | .insertChunks rows => { database with chunks := database.chunks ++ rows }
  | .deleteEntities tenantId documentId =>
      { database with
        entities := database.entities.filter fun child =>
          ¬ (child.tenantId = tenantId ∧ child.documentId = documentId) }
  | .insertEntities rows => { database with entities := database.entities ++ rows }
  | .insertOutbox row => { database with outbox := database.outbox ++ [row] }

/-- The writes of a transaction, one after the other. -/
def applyAll (writes : List Write) (database : Database) : Database :=
  writes.foldl Write.apply database

@[simp] theorem applyAll_nil (database : Database) : applyAll [] database = database := rfl

@[simp] theorem applyAll_cons (write : Write) (writes : List Write) (database : Database) :
    applyAll (write :: writes) database = applyAll writes (write.apply database) := rfl

theorem applyAll_append (first second : List Write) (database : Database) :
    applyAll (first ++ second) database = applyAll second (applyAll first database) :=
  List.foldl_append

/-- Delete what was derived from a document, and insert what there is now. -/
def childWrites (uuid5 : UUID → String → UUID) (tenantId : String) (documentId : UUID)
    (chunks : List Chunk) (entities : List Entity) : List Write :=
  (.deleteChunks tenantId documentId ::
    if chunks.isEmpty then []
    else [.insertChunks (chunkRows uuid5 tenantId documentId chunks)]) ++
  (.deleteEntities tenantId documentId ::
    if entities.isEmpty then []
    else [.insertEntities (entityRows uuid5 tenantId documentId entities)])

theorem applyAll_childWrites (uuid5 : UUID → String → UUID) (tenantId : String)
    (documentId : UUID) (chunks : List Chunk) (entities : List Entity) (database : Database) :
    applyAll (childWrites uuid5 tenantId documentId chunks entities) database =
      database.replaceChildren uuid5 tenantId documentId chunks entities := by
  -- No insert statement runs for an empty list, and none has any rows to insert.
  cases chunks with
  | nil =>
      cases entities with
      | nil => simp [childWrites, Write.apply, Database.replaceChildren, chunkRows, entityRows]
      | cons entity rest => simp [childWrites, Write.apply, Database.replaceChildren, chunkRows]
  | cons chunk rest =>
      cases entities with
      | nil => simp [childWrites, Write.apply, Database.replaceChildren, entityRows]
      | cons entity rest => simp [childWrites, Write.apply, Database.replaceChildren]

/-- The outbox row of an event. -/
def outboxRow (event : DocumentUploaded) : OutboxRow :=
  { id := event.eventId, tenantId := event.tenantId, aggregateId := event.documentId,
    payload := event, createdAt := event.occurredAt }

/-- The operations of the repository that write. -/
inductive Operation where
  | register (record : DocumentRow) (event : DocumentUploaded)
  | output (record : StoredDocument) (now : Timestamp)
  | status (tenantId : String) (documentId : UUID) (status : DocumentStatus)
      (error : Option String)

namespace Operation

/-- An operation as it takes effect at once. -/
def apply (uuid5 : UUID → String → UUID) (database : Database) : Operation → Database
  | .register record event => database.register record event.eventId event
  | .output record now => database.upsertDocument uuid5 record now
  | .status tenantId documentId next error =>
      database.markStatus tenantId documentId next error

/-- The row that an upsert leaves. -/
def outputRow (database : Database) (record : DocumentRow) (now : Timestamp) : DocumentRow :=
  match database.findByContent record.tenantId record.sha256 with
  | some row => replacedRow record now row
  | none => insertedRow record now

/-- What the statement of an upsert writes to the table of documents. -/
def outputWrite (database : Database) (record : DocumentRow) (now : Timestamp) : Write :=
  match database.findByContent record.tenantId record.sha256 with
  | some row => .replaceDocument (replacedRow record now row)
  | none => .insertDocument (insertedRow record now)

/-- An operation as the statements of its transaction write it. -/
def writes (uuid5 : UUID → String → UUID) (database : Database) : Operation → List Write
  | .register record event => [.insertDocument record, .insertOutbox (outboxRow event)]
  | .output record now =>
      outputWrite database record.toDocumentRow now ::
        childWrites uuid5 record.tenantId (outputRow database record.toDocumentRow now).id
          record.chunks record.entities
  | .status tenantId documentId next error =>
      match database.findById tenantId documentId with
      | some row => [.replaceDocument (statusRow next error row)]
      | none => []

end Operation

/-- The event of a record: its metadata under a new identifier. -/
structure Announces (event : DocumentUploaded) (record : DocumentRow) : Prop where
  documentId : event.documentId = record.id
  tenantId : event.tenantId = record.tenantId
  sha256 : event.sha256 = record.sha256
  mediaType : event.mediaType = record.mediaType
  sizeBytes : record.sizeBytes = some event.sizeBytes
  objectKey : record.objectKey = some event.objectKey
  occurredAt : event.occurredAt = record.createdAt

section Effect
variable {uuid5 : UUID → String → UUID} {database : Database}

/-- Replacing the row with a content is updating it. -/
theorem apply_replaceDocument (unique : database.Unique) {row : DocumentRow}
    (hRow : row ∈ database.documents) {condition : DocumentRow → Bool}
    (hCondition : ∀ old ∈ database.documents, condition old = true ↔ old = row)
    {change : DocumentRow → DocumentRow} (hSame : SameIdentity row (change row)) :
    Write.apply database (.replaceDocument (change row)) =
      { database with documents := updateWhere condition change database.documents } := by
  simp only [Write.apply, Database.mk.injEq, and_self, and_true]
  refine List.map_congr_left fun old hOld => ?_
  by_cases hOldRow : old = row
  · subst hOldRow
    rw [if_pos (decide_eq_true hSame.contentKey.symm), if_pos ((hCondition old hOld).mpr rfl)]
  · have hKey : ¬ old.contentKey = (change row).contentKey := by
      intro hKey
      exact hOldRow (unique.contents.eq_of_key hOld hRow (hKey.trans hSame.contentKey))
    have hSkip : ¬ condition old = true := fun h => hOldRow ((hCondition old hOld).mp h)
    rw [if_neg (by simpa using hKey), if_neg hSkip]

/-- The statement of an upsert has the effect of an upsert of the row. -/
theorem apply_outputWrite (unique : database.Unique) (record : DocumentRow) (now : Timestamp) :
    Write.apply database (Operation.outputWrite database record now) =
      database.upsertRow record now := by
  rw [Operation.outputWrite, Database.upsertRow]
  cases hFound : database.findByContent record.tenantId record.sha256 with
  | none => rfl
  | some row =>
      obtain ⟨hRow, hKey⟩ := select_mem hFound
      refine apply_replaceDocument unique hRow (fun old hOld => ?_)
        (sameIdentity_replacedRow record now row)
      simp only [decide_eq_true_eq]
      constructor
      · intro hOldKey
        exact unique.contents.eq_of_key hOld hRow (hOldKey.trans hKey.symm)
      · rintro rfl
        exact hKey

/-- The row that an upsert leaves is found under its content. -/
theorem findByContent_upsertRow (record : StoredDocument) (now : Timestamp) :
    (database.upsertRow record.toDocumentRow now).findByContent record.tenantId record.sha256 =
      some (Operation.outputRow database record.toDocumentRow now) := by
  have hStored := Database.findByContent_upsertDocument database (fun id _ => id) record now
  rw [Database.findByContent, Database.upsertDocument_documents] at hStored
  rw [Database.findByContent, hStored, Operation.outputRow]
  cases database.findByContent record.tenantId record.sha256 <;> rfl

/-- An upsert stores its row and replaces what was derived from the document. -/
theorem upsertDocument_eq (record : StoredDocument) (now : Timestamp) :
    database.upsertDocument uuid5 record now =
      (database.upsertRow record.toDocumentRow now).replaceChildren uuid5 record.tenantId
        (Operation.outputRow database record.toDocumentRow now).id record.chunks
        record.entities := by
  rw [Database.upsertDocument]
  simp only [findByContent_upsertRow]

/-- The statements of a transaction together have the effect of its operation. -/
theorem applyAll_writes (unique : database.Unique) (operation : Operation)
    (hAbsent : ∀ record event, operation = .register record event →
      database.findByContent record.tenantId record.sha256 = none ∧ Announces event record) :
    applyAll (operation.writes uuid5 database) database = operation.apply uuid5 database := by
  cases operation with
  | register record event =>
      obtain ⟨hNone, announces⟩ := hAbsent record event rfl
      simp only [Operation.writes, Operation.apply, applyAll_cons, applyAll_nil, Write.apply,
        Database.register, hNone, outboxRow, announces.tenantId, announces.documentId,
        announces.occurredAt]
  | output record now =>
      rw [Operation.writes, applyAll_cons, applyAll_childWrites, apply_outputWrite unique,
        Operation.apply, upsertDocument_eq]
  | status tenantId documentId status error =>
      rw [Operation.writes, Operation.apply, Database.markStatus]
      cases hFound : database.findById tenantId documentId with
      | none =>
          rw [applyAll_nil, updateWhere_of_none]
          intro row hRow
          simpa using select_eq_none.mp hFound row hRow
      | some row =>
          obtain ⟨hRow, hKey⟩ := select_mem hFound
          rw [applyAll_cons, applyAll_nil]
          refine apply_replaceDocument unique hRow (fun old hOld => ?_)
            (sameIdentity_statusRow status error row)
          simp only [decide_eq_true_eq]
          constructor
          · intro hOldKey
            have hId := congrArg Prod.snd (hOldKey.trans hKey.symm)
            exact unique.eq_of_id hOld hRow hId
          · rintro rfl
            exact hKey

end Effect

end DocInsight.Storage
