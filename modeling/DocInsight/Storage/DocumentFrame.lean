import DocInsight.Storage.DerivedRows
import DocInsight.Worker.Processing

/-! What a worker's writes to one document leave alone, and what they make of it. -/
namespace DocInsight.Storage

open DocInsight.Contracts DocInsight.Worker Table

/-- No document is new or gone, and all rows of other documents are what they were. -/
structure ChangesOnly (key : String × UUID) (before after : Database) : Prop where
  owners : after.documents.map DocumentRow.ownerKey = before.documents.map DocumentRow.ownerKey
  documents : (after.documents.filter fun row => row.ownerKey ≠ key) =
    before.documents.filter fun row => row.ownerKey ≠ key
  chunks : (after.chunks.filter fun child => ¬(child.tenantId = key.1 ∧ child.documentId = key.2)) =
    before.chunks.filter fun child => ¬(child.tenantId = key.1 ∧ child.documentId = key.2)
  entities :
    (after.entities.filter fun child => ¬(child.tenantId = key.1 ∧ child.documentId = key.2)) =
      before.entities.filter fun child => ¬(child.tenantId = key.1 ∧ child.documentId = key.2)

theorem ChangesOnly.refl (key : String × UUID) (database : Database) :
    ChangesOnly key database database :=
  ⟨rfl, rfl, rfl, rfl⟩

theorem ChangesOnly.trans {key : String × UUID} {first second third : Database}
    (h : ChangesOnly key first second) (h' : ChangesOnly key second third) :
    ChangesOnly key first third :=
  ⟨h'.owners.trans h.owners, h'.documents.trans h.documents, h'.chunks.trans h.chunks,
    h'.entities.trans h.entities⟩

/-- The document that output is indexed as for the content of a row. -/
def outputDocument (row : DocumentRow) (output : Output) : Document :=
  { sha256 := row.sha256, mediaType := row.mediaType, pages := output.pages,
    chunks := output.chunks, entities := output.entities,
    embedModel := output.embedModel, embedDimension := output.embedDimension }

/-- A row whose processing has succeeded: its status, error, name and derived metadata are
replaced, and nothing else. -/
def processedRow (filename : String) (output : Output) (now : Timestamp) (row : DocumentRow) :
    DocumentRow :=
  { row with
    filename, status := .processed, error := none,
    pageCount := (outputDocument row output).pageCount,
    language := (outputDocument row output).language,
    pipelineVersion := (outputDocument row output).pipelineVersion,
    embedModel := output.embedModel, processedAt := some now }

section Update
variable {key : String × UUID} {database : Database}

/-- An update of one document's row leaves the rows of others. -/
theorem filter_updateWhere_owner {condition : DocumentRow → Bool}
    {change : DocumentRow → DocumentRow} {rows : List DocumentRow}
    (hOwn : ∀ row ∈ rows, condition row = true → row.ownerKey = key)
    (hChange : ∀ row, (change row).ownerKey = row.ownerKey) :
    ((updateWhere condition change rows).filter fun row => row.ownerKey ≠ key) =
      rows.filter fun row => row.ownerKey ≠ key := by
  induction rows with
  | nil => rfl
  | cons row rows ih =>
      have hRest := ih fun other hOther => hOwn other (List.mem_cons_of_mem _ hOther)
      simp only [updateWhere, List.map_cons, List.filter_cons] at hRest ⊢
      by_cases hCondition : condition row = true
      · have hKey := hOwn row (List.mem_cons_self ..) hCondition
        simp only [hCondition, ↓reduceIte, hChange, hKey, ne_eq, not_true_eq_false, decide_false,
          Bool.false_eq_true]
        exact hRest
      · simp only [hCondition, Bool.false_eq_true, ↓reduceIte]
        rw [hRest]

theorem changesOnly_update {condition : DocumentRow → Bool} {change : DocumentRow → DocumentRow}
    (hOwn : ∀ row ∈ database.documents, condition row = true → row.ownerKey = key)
    (hChange : ∀ row, (change row).ownerKey = row.ownerKey) :
    ChangesOnly key database
      { database with documents := updateWhere condition change database.documents } where
  owners := map_key_updateWhere _ fun row _ => hChange row
  documents := filter_updateWhere_owner hOwn hChange
  chunks := rfl
  entities := rfl

theorem changesOnly_markStatus (key : String × UUID) (status : DocumentStatus)
    (error : Option String) (database : Database) :
    ChangesOnly key database (database.markStatus key.1 key.2 status error) :=
  changesOnly_update (fun _ _ hCondition => of_decide_eq_true hCondition)
    fun row => (sameIdentity_statusRow status error row).ownerKey

theorem findById_markStatus (key : String × UUID) (status : DocumentStatus)
    (error : Option String) (database : Database) :
    (database.markStatus key.1 key.2 status error).findById key.1 key.2 =
      (database.findById key.1 key.2).map (statusRow status error) := by
  rw [Database.findById, Database.markStatus, select_updateWhere _ _ fun row _ =>
    (sameIdentity_statusRow status error row).ownerKey, ← Database.findById]
  cases hFound : database.findById key.1 key.2 with
  | none => rfl
  | some row =>
      have hKey : row.ownerKey = (key.1, key.2) := (select_mem hFound).2
      rw [Option.map_some, Option.map_some, if_pos (decide_eq_true hKey)]

theorem changesOnly_replaceChildren (uuid5 : UUID → String → UUID) (key : String × UUID)
    (chunks : List Chunk) (entities : List Entity) (database : Database) :
    ChangesOnly key database (database.replaceChildren uuid5 key.1 key.2 chunks entities) where
  owners := rfl
  documents := rfl
  chunks := by
    rw [Database.replaceChildren, List.filter_append, List.filter_filter]
    have hNew : (chunkRows uuid5 key.1 key.2 chunks).filter (fun child =>
        ¬(child.tenantId = key.1 ∧ child.documentId = key.2)) = [] := by
      rw [List.filter_eq_nil_iff]
      intro child hChild hOther
      exact of_decide_eq_true hOther (chunkRows_owner hChild)
    simp only [hNew, List.append_nil, Bool.and_self]
  entities := by
    rw [Database.replaceChildren, List.filter_append, List.filter_filter]
    have hNew : (entityRows uuid5 key.1 key.2 entities).filter (fun child =>
        ¬(child.tenantId = key.1 ∧ child.documentId = key.2)) = [] := by
      rw [List.filter_eq_nil_iff]
      intro child hChild hOther
      exact of_decide_eq_true hOther (entityRows_owner hChild)
    simp only [hNew, List.append_nil, Bool.and_self]

end Update

/-- A row of a database, whatever its status and its output are by now. -/
structure Held (row : DocumentRow) (database : Database) (now : DocumentRow) : Prop where
  found : database.findById row.tenantId row.id = some now
  same : SameIdentity row now
  mediaType : now.mediaType = row.mediaType

section Upsert
variable {database : Database} {row now : DocumentRow} {record : StoredDocument}

theorem Held.markStatus (held : Held row database now) (status : DocumentStatus)
    (error : Option String) :
    Held row (database.markStatus row.tenantId row.id status error) (statusRow status error now) where
  found := by
    have hFound := findById_markStatus row.ownerKey status error database
    rw [DocumentRow.ownerKey, held.found] at hFound
    exact hFound
  same := held.same.trans (sameIdentity_statusRow status error now)
  mediaType := held.mediaType

theorem Held.findByContent (unique : database.Unique) (held : Held row database now) :
    database.findByContent row.tenantId row.sha256 = some now := by
  have hFound := unique.findByContent (select_mem held.found).1
  rw [held.same.tenantId, held.same.sha256] at hFound
  exact hFound

/-- An upsert of a held row's content replaces that row and what is derived from it. -/
theorem Held.upsertDocument (unique : database.Unique) (held : Held row database now)
    (hContent : record.contentKey = row.contentKey) (uuid5 : UUID → String → UUID)
    (time : Timestamp) :
    database.upsertDocument uuid5 record time =
      { database with
        documents := updateWhere (fun other => other.contentKey = record.contentKey)
          (replacedRow record.toDocumentRow time) database.documents : Database }.replaceChildren
        uuid5 row.tenantId row.id record.chunks record.entities := by
  have hTenant : record.tenantId = row.tenantId := congrArg Prod.fst hContent
  have hDigest : record.sha256 = row.sha256 := congrArg Prod.snd hContent
  have hBefore : database.findByContent record.tenantId record.sha256 = some now := by
    rw [hTenant, hDigest]
    exact held.findByContent unique
  have hStored := Database.findByContent_upsertDocument database uuid5 record time
  rw [hBefore, Database.findByContent, Database.upsertDocument_documents] at hStored
  unfold Database.upsertDocument
  simp only [Database.findByContent, hStored]
  have hId : (replacedRow record.toDocumentRow time now).id = row.id := held.same.id
  rw [hId, hTenant]
  congr 1
  rw [Database.upsertRow, hBefore]

theorem Held.changesOnly_upsert (unique : database.Unique) (held : Held row database now)
    (hContent : record.contentKey = row.contentKey) (uuid5 : UUID → String → UUID)
    (time : Timestamp) :
    ChangesOnly row.ownerKey database (database.upsertDocument uuid5 record time) := by
  rw [held.upsertDocument unique hContent]
  apply ChangesOnly.trans _ (changesOnly_replaceChildren uuid5 row.ownerKey _ _ _)
  apply changesOnly_update
  · intro other hOther hCondition
    have hNow := (select_mem held.found).1
    have hSame : other.contentKey = now.contentKey := by
      rw [of_decide_eq_true hCondition, hContent, held.same.contentKey]
    rw [unique.contents.eq_of_key hOther hNow hSame, held.same.ownerKey]
  · exact fun other => (sameIdentity_replacedRow record.toDocumentRow time other).ownerKey

/-- The row that an upsert of a held row's content leaves in its place. -/
theorem Held.findById_upsert (unique : database.Unique) (held : Held row database now)
    (hContent : record.contentKey = row.contentKey) (uuid5 : UUID → String → UUID)
    (time : Timestamp) :
    (database.upsertDocument uuid5 record time).findById row.tenantId row.id =
      some (replacedRow record.toDocumentRow time now) := by
  rw [held.upsertDocument unique hContent, Database.findById, Database.replaceChildren,
    select_updateWhere _ _ fun other _ =>
      (sameIdentity_replacedRow record.toDocumentRow time other).ownerKey, ← Database.findById,
    held.found, Option.map_some, if_pos]
  exact decide_eq_true (held.same.contentKey.trans hContent.symm)

theorem Held.upsert (unique : database.Unique) (held : Held row database now)
    (hContent : record.contentKey = row.contentKey) (hMedia : record.mediaType = row.mediaType)
    (uuid5 : UUID → String → UUID) (time : Timestamp) :
    Held row (database.upsertDocument uuid5 record time)
      (replacedRow record.toDocumentRow time now) where
  found := held.findById_upsert unique hContent uuid5 time
  same := held.same.trans (sameIdentity_replacedRow record.toDocumentRow time now)
  mediaType := hMedia

theorem Held.chunksOf_upsert (unique : database.Unique) (held : Held row database now)
    (hContent : record.contentKey = row.contentKey) (uuid5 : UUID → String → UUID)
    (time : Timestamp) :
    chunksOf (database.upsertDocument uuid5 record time) row =
      chunkRows uuid5 row.tenantId row.id record.chunks := by
  rw [held.upsertDocument unique hContent]
  exact chunksOf_replaceChildren row _ _

theorem Held.entitiesOf_upsert (unique : database.Unique) (held : Held row database now)
    (hContent : record.contentKey = row.contentKey) (uuid5 : UUID → String → UUID)
    (time : Timestamp) :
    entitiesOf (database.upsertDocument uuid5 record time) row =
      entityRows uuid5 row.tenantId row.id record.entities := by
  rw [held.upsertDocument unique hContent]
  exact entitiesOf_replaceChildren row _ _

end Upsert

/-- The output of a document is stored in place of what was derived before, and its row
is as good as processed. -/
structure HoldsOutput (uuid5 : UUID → String → UUID) (filename : String) (output : Output)
    (row : DocumentRow) (database : Database) : Prop where
  stored : ∃ time now, database.findById row.tenantId row.id = some now ∧
    statusRow .processed none now = processedRow filename output time row
  chunks : chunksOf database row = chunkRows uuid5 row.tenantId row.id output.chunks
  entities : entitiesOf database row = entityRows uuid5 row.tenantId row.id output.entities

/-- Upserting the output of a held row's content. -/
theorem Held.holdsOutput {database : Database} {row now : DocumentRow} {record : StoredDocument}
    (unique : database.Unique) (held : Held row database now) {filename : String}
    {output : Output} {id : UUID} {time : Timestamp}
    (hPrepared : prepareDocument row.tenantId filename (outputDocument row output) id time =
      .ok record) (uuid5 : UUID → String → UUID) :
    HoldsOutput uuid5 filename output row (database.upsertDocument uuid5 record time) := by
  have hRecord := prepareDocument_ok hPrepared
  have hContent : record.contentKey = row.contentKey := by
    rw [hRecord]
    rfl
  refine ⟨⟨time, _, held.findById_upsert unique hContent uuid5 time, ?_⟩, ?_, ?_⟩
  · rw [hRecord]
    simp only [statusRow, replacedRow, processedRow, held.same.id, held.same.tenantId,
      held.same.sha256, held.same.createdAt, held.same.sizeBytes, held.same.objectKey]
    rfl
  · rw [held.chunksOf_upsert unique hContent, hRecord]
    rfl
  · rw [held.entitiesOf_upsert unique hContent, hRecord]
    rfl

end DocInsight.Storage
