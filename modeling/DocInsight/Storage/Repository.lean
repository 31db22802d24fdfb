import DocInsight.Library.Simulation
import DocInsight.Storage.DerivedRows
import DocInsight.Storage.Transactions
import DocInsight.Worker.QueryRepository

/-! The repository over PostgreSQL as one caller at a time sees it: each call is a
transaction that commits as a whole or leaves the tables as they are. -/
namespace DocInsight.Storage

open DocInsight.Contracts DocInsight.Python DocInsight.Worker Simulation Table

/-- Where a chunk is read. -/
def chunkPlace (chunk : Chunk) : Nat ×ₗ Int := toLex (chunk.page, chunk.ord)

/-- Where an entity is read. -/
def entityPlace (entity : Entity) : Nat ×ₗ Int := toLex (entity.page, entity.charStart)

/-- The identifiers and the time that are new to a call. -/
structure Supply where
  identifier : UUID
  eventId : UUID
  now : Timestamp
  traceparent : Option String := none
  deriving Repr

inductive RepositoryRequest where
  | registerUpload (tenantId filename sha256 : String) (mediaType : MediaType) (sizeBytes : Nat)
      (objectKey : String)
  | findBySha256 (tenantId sha256 : String)
  | listDocuments (tenantId : String) (limit offset : Int)
  | markStatus (tenantId : String) (documentId : UUID) (status : String) (error : Option String)
  | upsertDocument (tenantId filename : String) (document : Document)
  | replaceChunksAndEntities (tenantId : String) (documentId : UUID) (chunks : List Chunk)
      (entities : List Entity)
  | getDocument (tenantId : String) (documentId : UUID)

abbrev RepositoryRequest.Result : RepositoryRequest → Type
  | registerUpload _ _ _ _ _ _ => StoredDocument
  | findBySha256 _ _ => Option StoredDocument
  | listDocuments _ _ _ => List StoredDocument
  | markStatus _ _ _ _ => Unit
  | upsertDocument _ _ _ => StoredDocument
  | replaceChunksAndEntities _ _ _ _ => Unit
  | getDocument _ _ => Option StoredDocument

/-- A request with what is new to it. -/
structure RepositoryCall where
  request : RepositoryRequest
  fresh : Supply

abbrev RepositoryCall.Answer (call : RepositoryCall) : Type := Except Failure call.request.Result

/-- The statuses that a document may have, by their names. -/
def statusNamed : String → Option DocumentStatus
  | "uploaded" => some .uploaded
  | "processing" => some .processing
  | "processed" => some .processed
  | "failed" => some .failed
  | _ => none

/-- The record of an upload. -/
def uploadRecord (tenantId filename sha256 : String) (mediaType : MediaType) (sizeBytes : Nat)
    (objectKey : String) (fresh : Supply) : DocumentRow :=
  { id := fresh.identifier, tenantId, filename, sha256, mediaType, status := .uploaded,
    sizeBytes := some sizeBytes, objectKey := some objectKey, createdAt := fresh.now }

/-- `for chunk in chunks: validate_vector(chunk.embedding or [], dimension)` -/
def validateChunks (dimension : Nat) (chunks : List Chunk) : Except ValueError Unit :=
  chunks.forM fun chunk => validateVector (chunk.embedding.getD []) dimension

/-- A policy for rows compares their tenant with that of the session, where an empty one is
none; such a row is refused. -/
def rowRefused (tenantId : String) : Bool := tenantId.isEmpty

namespace PostgresRepository
variable (uuid5 : UUID → String → UUID) (dimension : Nat)

/-- Register uploaded metadata and an outbox event, or return the existing record. -/
def registerUpload (record : DocumentRow) (fresh : Supply) (database : Database) :
    Except Failure StoredDocument × Database :=
  if rowRefused record.tenantId then (.error (.other "ProgrammingError"), database)
  else
    match database.findByContent record.tenantId record.sha256 with
    | some row => (.ok (storedRow row), database)
    | none =>
        match uploadedEvent record fresh.eventId fresh.traceparent with
        | .error error => (.error error, database)
        | .ok event => (.ok (storedRow record), database.register record event.eventId event)

/-- Look up a duplicate only within the requesting tenant. -/
def findBySha256 (tenantId sha256 : String) (database : Database) : Option StoredDocument :=
  (database.findByContent tenantId sha256).map storedRow

/-- Update tenant-owned status; retain a sanitized error only for failures. -/
def markStatus (tenantId : String) (documentId : UUID) (status : String) (error : Option String)
    (database : Database) : Except Failure Unit × Database :=
  match statusNamed status with
  | none => (.error (.value "ValueError"), database)
  | some status =>
      match database.findById tenantId documentId with
      | none => (.error (.lookup "LookupError"), database)
      | some _ => (.ok (), database.markStatus tenantId documentId status error)

/-- Commit metadata and derived output together, deduplicating by tenant and hash. -/
def upsertDocument (tenantId filename : String) (document : Document) (fresh : Supply)
    (database : Database) : Except Failure StoredDocument × Database :=
  match prepareDocument tenantId filename document fresh.identifier fresh.now with
  | .error _ => (.error (.value "ValueError"), database)
  | .ok record =>
      match validateChunks dimension record.chunks with
      | .error _ => (.error (.value "ValueError"), database)
      | .ok _ =>
          let row := Operation.outputRow database record.toDocumentRow fresh.now
          (.ok { row with chunks := record.chunks, entities := record.entities },
            database.upsertDocument uuid5 record fresh.now)

/-- Lock the tenant-owned parent before atomically replacing its derived rows. -/
def replaceChunksAndEntities (tenantId : String) (documentId : UUID) (chunks : List Chunk)
    (entities : List Entity) (database : Database) : Except Failure Unit × Database :=
  match database.findById tenantId documentId with
  | none => (.error (.lookup "LookupError"), database)
  | some _ =>
      match validateChunks dimension chunks with
      | .error _ => (.error (.value "ValueError"), database)
      | .ok _ => (.ok (), database.replaceChildren uuid5 tenantId documentId chunks entities)

/-- The repository: what each call answers and makes of the tables. -/
def repository : Component Database RepositoryCall RepositoryCall.Answer
  | database, ⟨.registerUpload tenantId filename sha256 mediaType sizeBytes objectKey, fresh⟩ =>
      registerUpload (uploadRecord tenantId filename sha256 mediaType sizeBytes objectKey fresh)
        fresh database
  | database, ⟨.findBySha256 tenantId sha256, _⟩ =>
      (.ok (findBySha256 tenantId sha256 database), database)
  | database, ⟨.listDocuments tenantId limit offset, _⟩ =>
      (listDocuments tenantId limit offset database, database)
  | database, ⟨.markStatus tenantId documentId status error, _⟩ =>
      markStatus tenantId documentId status error database
  | database, ⟨.upsertDocument tenantId filename document, fresh⟩ =>
      upsertDocument uuid5 dimension tenantId filename document fresh database
  | database, ⟨.replaceChunksAndEntities tenantId documentId chunks entities, _⟩ =>
      replaceChunksAndEntities uuid5 dimension tenantId documentId chunks entities database
  | database, ⟨.getDocument tenantId documentId, _⟩ =>
      (.ok (database.getDocument tenantId documentId), database)

end PostgresRepository

/-- The identifier of a call is not that of a document. -/
def IsFresh (database : Database) (call : RepositoryCall) : Prop :=
  ∀ row ∈ database.documents, row.id ≠ call.fresh.identifier

/-- The tables as the repository keeps them: documents are unique, every derived row has a
document, and the rows derived from a document are numbered from its identifier. -/
structure Filed (uuid5 : UUID → String → UUID) (database : Database) : Prop where
  unique : database.Unique
  owned : Owned database
  derived : ∀ row ∈ database.documents, ∃ chunks entities,
    chunksOf database row = chunkRows uuid5 row.tenantId row.id chunks ∧
      entitiesOf database row = entityRows uuid5 row.tenantId row.id entities

section Filed
variable {uuid5 : UUID → String → UUID} {dimension : Nat} {database : Database}

theorem chunkRows_chunk (tenantId : String) (documentId : UUID) (chunks : List Chunk) :
    (chunkRows uuid5 tenantId documentId chunks).map ChunkRow.chunk = chunks := by
  rw [chunkRows, List.map_map]
  exact List.zipIdx_map_fst 0 chunks

theorem entityRows_entity (tenantId : String) (documentId : UUID) (entities : List Entity) :
    (entityRows uuid5 tenantId documentId entities).map EntityRow.entity = entities := by
  rw [entityRows, List.map_map]
  exact List.zipIdx_map_fst 0 entities

theorem filed_empty : Filed uuid5 {} where
  unique := ⟨List.nodup_nil, List.nodup_nil⟩
  owned := ⟨fun _ h => absurd h List.not_mem_nil, fun _ h => absurd h List.not_mem_nil⟩
  derived _ h := absurd h List.not_mem_nil

/-- Documents change and are added, while the derived rows stay. -/
theorem Filed.documents {after : Database} (filed : Filed uuid5 database) (unique : after.Unique)
    (persists : Persists database after) (hChunks : after.chunks = database.chunks)
    (hEntities : after.entities = database.entities)
    (hRows : ∀ row ∈ after.documents, (∃ earlier ∈ database.documents,
      row.ownerKey = earlier.ownerKey) ∨ ∀ earlier ∈ database.documents, earlier.id ≠ row.id) :
    Filed uuid5 after where
  unique := unique
  owned := filed.owned.of_persists persists hChunks hEntities
  derived row hRow := by
    rw [chunksOf, entitiesOf, hChunks, hEntities]
    rcases hRows row hRow with ⟨earlier, hEarlier, hKey⟩ | hNew
    · obtain ⟨hTenant, hId⟩ := Prod.mk.inj hKey
      rw [hTenant, hId]
      exact filed.derived earlier hEarlier
    · have hOther : ∀ earlier ∈ database.documents, earlier.ownerKey ≠ row.ownerKey :=
        fun earlier hEarlier hKey => hNew earlier hEarlier (congrArg Prod.snd hKey)
      exact ⟨[], [], filed.owned.chunksOf_eq_nil hOther, filed.owned.entitiesOf_eq_nil hOther⟩

/-- The rows derived from one document are replaced. -/
theorem Filed.replaceChildren (filed : Filed uuid5 database) {row : DocumentRow}
    (hRow : row ∈ database.documents) (chunks : List Chunk) (entities : List Entity) :
    Filed uuid5 (database.replaceChildren uuid5 row.tenantId row.id chunks entities) where
  unique := ⟨filed.unique.ids, filed.unique.contents⟩
  owned := filed.owned.replaceChildren hRow chunks entities
  derived other hOther := by
    by_cases hSame : other.id = row.id
    · obtain rfl := filed.unique.eq_of_id hOther hRow hSame
      exact ⟨chunks, entities, chunksOf_replaceChildren _ _ _, entitiesOf_replaceChildren _ _ _⟩
    · rw [chunksOf_replaceChildren_of_ne _ _ hSame, entitiesOf_replaceChildren_of_ne _ _ hSame]
      exact filed.derived other hOther

/-- A new record that is not known yet. -/
theorem Filed.register (filed : Filed uuid5 database) {record : DocumentRow} (eventId : UUID)
    (event : DocumentUploaded) (hFresh : ∀ row ∈ database.documents, row.id ≠ record.id)
    (hAbsent : database.findByContent record.tenantId record.sha256 = none) :
    Filed uuid5 (database.register record eventId event) := by
  have hId : select DocumentRow.id record.id database.documents = none :=
    select_eq_none.mpr hFresh
  have hAfter : (database.register record eventId event).documents =
      database.documents ++ [record] := by
    rw [Database.register, hAbsent]
  apply filed.documents
  · rw [Database.register, hAbsent]
    exact ⟨filed.unique.ids.append hId, filed.unique.contents.append hAbsent⟩
  · intro row hRow
    rw [hAfter]
    exact ⟨row, List.mem_append_left _ hRow, SameIdentity.refl row⟩
  · rw [Database.register, hAbsent]
  · rw [Database.register, hAbsent]
  · intro row hRow
    rw [hAfter] at hRow
    rcases List.mem_append.mp hRow with hOld | hNew
    · exact Or.inl ⟨row, hOld, rfl⟩
    · rw [List.mem_singleton.mp hNew]
      exact Or.inr hFresh

theorem Filed.markStatus (filed : Filed uuid5 database) (tenantId : String) (documentId : UUID)
    (status : DocumentStatus) (error : Option String) :
    Filed uuid5 (database.markStatus tenantId documentId status error) := by
  apply filed.documents (filed.unique.markStatus tenantId documentId status error)
  · exact persists_updateWhere fun row => sameIdentity_statusRow status error row
  · rfl
  · rfl
  · intro row hRow
    obtain ⟨earlier, hEarlier, rfl⟩ := mem_updateWhere.mp hRow
    refine Or.inl ⟨earlier, hEarlier, ?_⟩
    split_ifs
    · exact (sameIdentity_statusRow status error earlier).ownerKey
    · rfl

theorem Filed.upsertRow (filed : Filed uuid5 database) {record : DocumentRow} (now : Timestamp)
    (hFresh : ∀ row ∈ database.documents, row.id ≠ record.id) :
    Filed uuid5 (database.upsertRow record now) := by
  have hUnique : (database.upsertRow record now).Unique :=
    filed.unique.upsertRow now fun _ => select_eq_none.mpr hFresh
  cases hFound : database.findByContent record.tenantId record.sha256 with
  | none =>
      rw [Database.upsertRow, hFound] at hUnique ⊢
      apply filed.documents hUnique
      · exact persists_append database _
      · rfl
      · rfl
      · intro row hRow
        rcases List.mem_append.mp hRow with hOld | hNew
        · exact Or.inl ⟨row, hOld, rfl⟩
        · rw [List.mem_singleton.mp hNew]
          exact Or.inr hFresh
  | some found =>
      rw [Database.upsertRow, hFound] at hUnique ⊢
      apply filed.documents hUnique
      · exact persists_updateWhere fun row => sameIdentity_replacedRow record now row
      · rfl
      · rfl
      · intro row hRow
        obtain ⟨earlier, hEarlier, rfl⟩ := mem_updateWhere.mp hRow
        refine Or.inl ⟨earlier, hEarlier, ?_⟩
        split_ifs
        · exact (sameIdentity_replacedRow record now earlier).ownerKey
        · rfl

theorem Filed.upsertDocument (filed : Filed uuid5 database) {record : StoredDocument}
    (now : Timestamp) (hFresh : ∀ row ∈ database.documents, row.id ≠ record.id) :
    Filed uuid5 (database.upsertDocument uuid5 record now) := by
  have hRow : Operation.outputRow database record.toDocumentRow now ∈
      (database.upsertRow record.toDocumentRow now).documents := outputRow_mem record now
  have hContent : (Operation.outputRow database record.toDocumentRow now).contentKey =
      record.contentKey := contentKey_outputRow record.toDocumentRow now
  have hTenant : (Operation.outputRow database record.toDocumentRow now).tenantId =
      record.tenantId := congrArg Prod.fst hContent
  rw [upsertDocument_eq, ← hTenant]
  exact (filed.upsertRow now hFresh).replaceChildren hRow record.chunks record.entities

end Filed

section Calls
variable {uuid5 : UUID → String → UUID} {dimension : Nat} {database : Database}
  {call : RepositoryCall}

/-- What a call makes of the tables: nothing, or one committed operation. -/
inductive CallEffect (uuid5 : UUID → String → UUID) (database : Database) (call : RepositoryCall) :
    Database → Prop where
  | none : CallEffect uuid5 database call database
  | register {record : DocumentRow} (event : DocumentUploaded)
      (hId : record.id = call.fresh.identifier)
      (hAbsent : database.findByContent record.tenantId record.sha256 = .none) :
      CallEffect uuid5 database call (database.register record event.eventId event)
  | markStatus (tenantId : String) (documentId : UUID) (status : DocumentStatus)
      (error : Option String) :
      CallEffect uuid5 database call (database.markStatus tenantId documentId status error)
  | upsertDocument {record : StoredDocument} (hId : record.id = call.fresh.identifier) :
      CallEffect uuid5 database call (database.upsertDocument uuid5 record call.fresh.now)
  | replaceChildren {row : DocumentRow} (hRow : row ∈ database.documents) (chunks : List Chunk)
      (entities : List Entity) :
      CallEffect uuid5 database call
        (database.replaceChildren uuid5 row.tenantId row.id chunks entities)

theorem repository_effect (database : Database) (call : RepositoryCall) :
    CallEffect uuid5 database call
      (PostgresRepository.repository uuid5 dimension database call).2 := by
  obtain ⟨request, fresh⟩ := call
  cases request with
  | registerUpload tenantId filename sha256 mediaType sizeBytes objectKey =>
      simp only [PostgresRepository.repository, PostgresRepository.registerUpload]
      split_ifs
      · exact .none
      · split
        · exact .none
        · rename_i hAbsent
          split
          · exact .none
          · exact .register _ rfl hAbsent
  | findBySha256 | listDocuments | getDocument => exact .none
  | markStatus tenantId documentId status error =>
      simp only [PostgresRepository.repository, PostgresRepository.markStatus]
      split
      · exact .none
      · split
        · exact .none
        · exact .markStatus _ _ _ _
  | upsertDocument tenantId filename document =>
      simp only [PostgresRepository.repository, PostgresRepository.upsertDocument]
      split
      · exact .none
      · rename_i record hPrepared
        split
        · exact .none
        · exact .upsertDocument (congrArg (fun stored => stored.id) (prepareDocument_ok hPrepared))
  | replaceChunksAndEntities tenantId documentId chunks entities =>
      simp only [PostgresRepository.repository, PostgresRepository.replaceChunksAndEntities]
      split
      · exact .none
      · rename_i row hFound
        obtain ⟨hRow, hKey⟩ := select_mem hFound
        obtain ⟨rfl, rfl⟩ := Prod.mk.inj hKey
        split
        · exact .none
        · exact .replaceChildren hRow chunks entities

theorem Filed.effect {after : Database} (filed : Filed uuid5 database)
    (hFresh : IsFresh database call) (effect : CallEffect uuid5 database call after) :
    Filed uuid5 after := by
  cases effect with
  | none => exact filed
  | register event hId hAbsent => exact filed.register _ event (hId ▸ hFresh) hAbsent
  | markStatus tenantId documentId status error => exact filed.markStatus _ _ _ _
  | upsertDocument hId => exact filed.upsertDocument _ (hId ▸ hFresh)
  | replaceChildren hRow chunks entities => exact filed.replaceChildren hRow chunks entities

/-- Whatever has been called, the tables are filed. -/
theorem filed_after {calls : List RepositoryCall} (filed : Filed uuid5 database)
    (hFresh : Along (PostgresRepository.repository uuid5 dimension) IsFresh calls database) :
    Filed uuid5 (after (PostgresRepository.repository uuid5 dimension) calls database) :=
  after_invariant (fun _ _ filed hFresh => filed.effect hFresh (repository_effect _ _)) filed hFresh

/-- No call deletes a document or changes its identity. -/
theorem CallEffect.persists {after : Database} (effect : CallEffect uuid5 database call after) :
    Persists database after := by
  cases effect with
  | none => exact Persists.refl database
  | @register record event hId hAbsent => exact @persists_apply uuid5 _ (.register record event)
  | markStatus tenantId documentId status error =>
      exact @persists_apply uuid5 _ (.status tenantId documentId status error)
  | @upsertDocument record hId => exact persists_apply (.output record call.fresh.now)
  | replaceChildren hRow chunks entities => exact fun row hRow => ⟨row, hRow, SameIdentity.refl row⟩

theorem persists_after (calls : List RepositoryCall) (database : Database) :
    Persists database (after (PostgresRepository.repository uuid5 dimension) calls database) := by
  induction calls generalizing database with
  | nil => exact Persists.refl database
  | cons call rest ih => exact (repository_effect database call).persists.trans (ih _)

end Calls

end DocInsight.Storage
