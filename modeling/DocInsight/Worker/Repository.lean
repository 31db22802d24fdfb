import DocInsight.Contracts.Streams
import DocInsight.Library.Table

/-! The tables of documents and what each repository operation makes of them, as one
committed transaction. -/
namespace DocInsight.Worker

open DocInsight.Contracts Table

structure ChunkRow where
  id : UUID
  tenantId : String
  documentId : UUID
  chunk : Chunk
  deriving DecidableEq, Repr

structure EntityRow where
  id : UUID
  tenantId : String
  documentId : UUID
  entity : Entity
  deriving DecidableEq, Repr

structure OutboxRow where
  id : UUID
  tenantId : String
  aggregateId : UUID
  payload : DocumentUploaded
  createdAt : Timestamp
  publishedAt : Option Timestamp := none
  deriving DecidableEq, Repr

structure Database where
  documents : List DocumentRow := []
  chunks : List ChunkRow := []
  entities : List EntityRow := []
  outbox : List OutboxRow := []
  deriving DecidableEq, Repr

/-- Stable child IDs make replacement independent of delivery attempts. -/
def chunkRows (uuid5 : UUID → String → UUID) (tenantId : String) (documentId : UUID)
    (chunks : List Chunk) : List ChunkRow :=
  chunks.zipIdx.map fun (chunk, index) =>
    { id := uuid5 documentId ("chunks:" ++ toString index), tenantId, documentId, chunk }

def entityRows (uuid5 : UUID → String → UUID) (tenantId : String) (documentId : UUID)
    (entities : List Entity) : List EntityRow :=
  entities.zipIdx.map fun (entity, index) =>
    { id := uuid5 documentId ("entities:" ++ toString index), tenantId, documentId, entity }

/-- What a status change makes of a row; only a failure keeps an error. -/
def statusRow (status : DocumentStatus) (error : Option String) (row : DocumentRow) :
    DocumentRow :=
  { row with status, error := if status = .failed then error else none }

/-- A new row of processed output; only a registration knows size and object. -/
def insertedRow (record : DocumentRow) (now : Timestamp) : DocumentRow :=
  { record with sizeBytes := none, objectKey := none, processedAt := some now }

/-- What an upsert makes of the row it conflicts with. -/
def replacedRow (record : DocumentRow) (now : Timestamp) (row : DocumentRow) : DocumentRow :=
  { record with
    id := row.id, tenantId := row.tenantId, sha256 := row.sha256, createdAt := row.createdAt,
    sizeBytes := row.sizeBytes, objectKey := row.objectKey, processedAt := some now }

namespace Database

def findById (tenantId : String) (id : UUID) (database : Database) : Option DocumentRow :=
  select DocumentRow.ownerKey (tenantId, id) database.documents

def findByContent (tenantId sha256 : String) (database : Database) : Option DocumentRow :=
  select DocumentRow.contentKey (tenantId, sha256) database.documents

/-- Read tenant-owned metadata and ordered children. -/
def getDocument (tenantId : String) (id : UUID) (database : Database) : Option StoredDocument :=
  (database.findById tenantId id).map fun row =>
    let chunks := database.chunks.filter fun child =>
      child.tenantId = tenantId ∧ child.documentId = id
    let entities := database.entities.filter fun child =>
      child.tenantId = tenantId ∧ child.documentId = id
    { row with
      chunks := (orderBy (fun child => toLex (child.chunk.page, child.chunk.ord)) chunks).map
        ChunkRow.chunk
      entities := (orderBy (fun child => toLex (child.entity.page, child.entity.charStart))
        entities).map EntityRow.entity }

/-- Update tenant-owned status. -/
def markStatus (tenantId : String) (id : UUID) (status : DocumentStatus) (error : Option String)
    (database : Database) : Database :=
  { database with
    documents := updateWhere (fun row => row.ownerKey = (tenantId, id))
      (statusRow status error) database.documents }

/-- Insert a row of processed output, or replace the one with the same content. -/
def upsertRow (record : DocumentRow) (now : Timestamp) (database : Database) : Database :=
  match database.findByContent record.tenantId record.sha256 with
  | some _ =>
      { database with
        documents := updateWhere (fun row => row.contentKey = record.contentKey)
          (replacedRow record now) database.documents }
  | none => { database with documents := database.documents ++ [insertedRow record now] }

/-- Replace the derived rows of one document. -/
def replaceChildren (uuid5 : UUID → String → UUID) (tenantId : String) (id : UUID)
    (chunks : List Chunk) (entities : List Entity) (database : Database) : Database :=
  { database with
    chunks := (database.chunks.filter fun child =>
        ¬ (child.tenantId = tenantId ∧ child.documentId = id)) ++
      chunkRows uuid5 tenantId id chunks
    entities := (database.entities.filter fun child =>
        ¬ (child.tenantId = tenantId ∧ child.documentId = id)) ++
      entityRows uuid5 tenantId id entities }

/-- Metadata and derived output together, deduplicated by tenant and hash. -/
def upsertDocument (uuid5 : UUID → String → UUID) (record : StoredDocument) (now : Timestamp)
    (database : Database) : Database :=
  let stored := database.upsertRow record.toDocumentRow now
  match stored.findByContent record.tenantId record.sha256 with
  | some row => stored.replaceChildren uuid5 record.tenantId row.id record.chunks record.entities
  | none => stored

/-- Register an upload with its event, unless its content is registered already. -/
def register (record : DocumentRow) (eventId : UUID) (event : DocumentUploaded)
    (database : Database) : Database :=
  match database.findByContent record.tenantId record.sha256 with
  | some _ => database
  | none =>
      { database with
        documents := database.documents ++ [record]
        outbox := database.outbox ++
          [{ id := eventId, tenantId := record.tenantId, aggregateId := record.id,
             payload := event, createdAt := record.createdAt }] }

/-- No two rows have one identifier or one content. -/
structure Unique (database : Database) : Prop where
  ids : Keyed DocumentRow.id database.documents
  contents : Keyed DocumentRow.contentKey database.documents

end Database

/-- What no operation ever changes about a document. -/
structure SameIdentity (row later : DocumentRow) : Prop where
  id : later.id = row.id
  tenantId : later.tenantId = row.tenantId
  sha256 : later.sha256 = row.sha256
  sizeBytes : later.sizeBytes = row.sizeBytes
  objectKey : later.objectKey = row.objectKey
  createdAt : later.createdAt = row.createdAt

theorem SameIdentity.refl (row : DocumentRow) : SameIdentity row row :=
  ⟨rfl, rfl, rfl, rfl, rfl, rfl⟩

theorem SameIdentity.trans {first second third : DocumentRow} (h : SameIdentity first second)
    (h' : SameIdentity second third) : SameIdentity first third :=
  ⟨h'.id.trans h.id, h'.tenantId.trans h.tenantId, h'.sha256.trans h.sha256,
    h'.sizeBytes.trans h.sizeBytes, h'.objectKey.trans h.objectKey,
    h'.createdAt.trans h.createdAt⟩

theorem SameIdentity.ownerKey {row later : DocumentRow} (h : SameIdentity row later) :
    later.ownerKey = row.ownerKey := by
  rw [DocumentRow.ownerKey, h.tenantId, h.id, DocumentRow.ownerKey]

theorem SameIdentity.contentKey {row later : DocumentRow} (h : SameIdentity row later) :
    later.contentKey = row.contentKey := by
  rw [DocumentRow.contentKey, h.tenantId, h.sha256, DocumentRow.contentKey]

theorem sameIdentity_statusRow (status : DocumentStatus) (error : Option String)
    (row : DocumentRow) : SameIdentity row (statusRow status error row) :=
  ⟨rfl, rfl, rfl, rfl, rfl, rfl⟩

theorem sameIdentity_replacedRow (record : DocumentRow) (now : Timestamp) (row : DocumentRow) :
    SameIdentity row (replacedRow record now row) :=
  ⟨rfl, rfl, rfl, rfl, rfl, rfl⟩

namespace Database
variable {database : Database}

theorem Unique.eq_of_id (unique : database.Unique) {row other : DocumentRow}
    (hRow : row ∈ database.documents) (hOther : other ∈ database.documents)
    (h : row.id = other.id) : row = other :=
  unique.ids.eq_of_key hRow hOther h

theorem Unique.findById (unique : database.Unique) {row : DocumentRow}
    (hRow : row ∈ database.documents) : database.findById row.tenantId row.id = some row := by
  cases hFound : database.findById row.tenantId row.id with
  | none => exact absurd rfl (select_eq_none.mp hFound row hRow)
  | some found =>
      obtain ⟨hMem, hKey⟩ := select_mem hFound
      rw [unique.eq_of_id hMem hRow (congrArg Prod.snd hKey)]

theorem Unique.findByContent (unique : database.Unique) {row : DocumentRow}
    (hRow : row ∈ database.documents) :
    database.findByContent row.tenantId row.sha256 = some row :=
  unique.contents.select_eq_some.mpr ⟨hRow, rfl⟩

/-- Rows that change keep their identity, so they stay unique. -/
theorem Unique.update (unique : database.Unique) {condition : DocumentRow → Bool}
    {change : DocumentRow → DocumentRow} (hChange : ∀ row, SameIdentity row (change row)) :
    ({ database with documents := updateWhere condition change database.documents } :
      Database).Unique where
  ids := unique.ids.updateWhere fun row _ => (hChange row).id
  contents := unique.contents.updateWhere fun row _ => (hChange row).contentKey

theorem Unique.insert (unique : database.Unique) (record : DocumentRow)
    (hId : select DocumentRow.id record.id database.documents = none)
    (hContent : database.findByContent record.tenantId record.sha256 = none) :
    ({ database with documents := database.documents ++ [record] } : Database).Unique where
  ids := unique.ids.append hId
  contents := unique.contents.append hContent

theorem Unique.markStatus (unique : database.Unique) (tenantId : String) (id : UUID)
    (status : DocumentStatus) (error : Option String) :
    (database.markStatus tenantId id status error).Unique :=
  unique.update fun row => sameIdentity_statusRow status error row

/-- An upsert of content that has a row, or whose own identifier is new. -/
theorem Unique.upsertRow (unique : database.Unique) {record : DocumentRow} (now : Timestamp)
    (hId : database.findByContent record.tenantId record.sha256 = none →
      select DocumentRow.id record.id database.documents = none) :
    (database.upsertRow record now).Unique := by
  unfold Database.upsertRow
  cases hFound : database.findByContent record.tenantId record.sha256 with
  | some row => exact unique.update fun row => sameIdentity_replacedRow record now row
  | none => exact unique.insert (insertedRow record now) (hId hFound) hFound

section Upsert
variable {uuid5 : UUID → String → UUID} {record : StoredDocument} {now : Timestamp}

/-- Derived output is replaced beside the rows of documents. -/
theorem upsertDocument_documents (uuid5 : UUID → String → UUID) (record : StoredDocument)
    (now : Timestamp) (database : Database) :
    (database.upsertDocument uuid5 record now).documents =
      (database.upsertRow record.toDocumentRow now).documents := by
  unfold Database.upsertDocument
  simp only
  split <;> rfl

theorem upsertDocument_outbox (uuid5 : UUID → String → UUID) (record : StoredDocument)
    (now : Timestamp) (database : Database) :
    (database.upsertDocument uuid5 record now).outbox = database.outbox := by
  have hRow : (database.upsertRow record.toDocumentRow now).outbox = database.outbox := by
    unfold Database.upsertRow
    split <;> rfl
  unfold Database.upsertDocument
  simp only
  split
  · exact hRow
  · exact hRow

theorem upsertRow_found {row : DocumentRow}
    (hFound : database.findByContent record.tenantId record.sha256 = some row) :
    (database.upsertRow record.toDocumentRow now).documents =
      updateWhere (fun row => row.contentKey = record.contentKey)
        (replacedRow record.toDocumentRow now) database.documents := by
  rw [Database.upsertRow, hFound]

theorem upsertRow_absent
    (hAbsent : database.findByContent record.tenantId record.sha256 = none) :
    (database.upsertRow record.toDocumentRow now).documents =
      database.documents ++ [insertedRow record.toDocumentRow now] := by
  rw [Database.upsertRow, hAbsent]

/-- The row that an upsert stores: the one it found with its output replaced, or a new
one. -/
theorem findByContent_upsertDocument (database : Database) (uuid5 : UUID → String → UUID)
    (record : StoredDocument) (now : Timestamp) :
    (database.upsertDocument uuid5 record now).findByContent record.tenantId record.sha256 =
      match database.findByContent record.tenantId record.sha256 with
      | some row => some (replacedRow record.toDocumentRow now row)
      | none => some (insertedRow record.toDocumentRow now) := by
  rw [Database.findByContent, upsertDocument_documents]
  cases hFound : database.findByContent record.tenantId record.sha256 with
  | some row =>
      rw [upsertRow_found hFound, select_updateWhere _ _ fun row _ =>
        (sameIdentity_replacedRow record.toDocumentRow now row).contentKey]
      rw [Database.findByContent] at hFound
      have hKey := (select_mem hFound).2
      have hSame : row.contentKey = record.contentKey := hKey
      rw [hFound, Option.map_some, if_pos (decide_eq_true hSame)]
  | none =>
      rw [upsertRow_absent hFound]
      rw [Database.findByContent] at hFound
      simp only [select, List.find?_append] at hFound ⊢
      rw [hFound]
      simp [insertedRow, DocumentRow.contentKey]

theorem Unique.upsertDocument (unique : database.Unique) (uuid5 : UUID → String → UUID)
    (now : Timestamp) (hId : database.findByContent record.tenantId record.sha256 = none →
      select DocumentRow.id record.id database.documents = none) :
    (database.upsertDocument uuid5 record now).Unique := by
  have hRow := unique.upsertRow now hId
  constructor
  · rw [upsertDocument_documents]
    exact hRow.ids
  · rw [upsertDocument_documents]
    exact hRow.contents

end Upsert

end Database

end DocInsight.Worker
