import DocInsight.Storage.History

/-! What is derived from a document is stored as a whole: the chunks and entities of a
row are those of one upsert, whose metadata the row has, or there are none. -/
namespace DocInsight.Storage

open DocInsight.Contracts DocInsight.Worker Table

/-- The chunks of a document. -/
def chunksOf (database : Database) (row : DocumentRow) : List ChunkRow :=
  database.chunks.filter fun child =>
    child.tenantId = row.tenantId ∧ child.documentId = row.id

/-- The entities of a document. -/
def entitiesOf (database : Database) (row : DocumentRow) : List EntityRow :=
  database.entities.filter fun child =>
    child.tenantId = row.tenantId ∧ child.documentId = row.id

/-- A row has the output of a record: all of its chunks and entities, and its metadata. -/
structure HasOutput (uuid5 : UUID → String → UUID) (database : Database) (row : DocumentRow)
    (record : StoredDocument) : Prop where
  content : record.contentKey = row.contentKey
  pipelineVersion : row.pipelineVersion = record.pipelineVersion
  embedModel : row.embedModel = record.embedModel
  language : row.language = record.language
  pageCount : row.pageCount = record.pageCount
  chunks : chunksOf database row = chunkRows uuid5 row.tenantId row.id record.chunks
  entities : entitiesOf database row = entityRows uuid5 row.tenantId row.id record.entities

/-- A row without output: nothing is derived from it yet, and it is not processed. -/
structure NoOutput (database : Database) (history : List Commit) (row : DocumentRow) : Prop where
  chunks : chunksOf database row = []
  entities : entitiesOf database row = []
  status : row.status ≠ .processed
  stored : ¬OutputStored history row.contentKey

/-- Every derived row belongs to a document of its tenant. -/
structure Owned (database : Database) : Prop where
  chunks : ∀ child ∈ database.chunks, ∃ row ∈ database.documents,
    row.ownerKey = (child.tenantId, child.documentId)
  entities : ∀ child ∈ database.entities, ∃ row ∈ database.documents,
    row.ownerKey = (child.tenantId, child.documentId)

section Replace
variable {Row : Type} {condition other : Row → Prop} [DecidablePred condition]
  [DecidablePred other] {rows added : List Row}

/-- Where all that a condition holds of is replaced, the condition finds what was added. -/
theorem filter_replaced (hAdded : ∀ row ∈ added, condition row) :
    List.filter (fun row => condition row)
      ((List.filter (fun row => ¬condition row) rows) ++ added) = added := by
  have hOld : List.filter (fun row => condition row)
      (List.filter (fun row => ¬condition row) rows) = [] := by
    rw [List.filter_filter, List.filter_eq_nil_iff]
    intro row _
    simp
  rw [List.filter_append, hOld, List.nil_append, List.filter_eq_self]
  intro row hRow
  exact decide_eq_true (hAdded row hRow)

/-- A condition that excludes the replaced one finds what it found before. -/
theorem filter_replaced_of_excludes (hAdded : ∀ row ∈ added, condition row)
    (hExcludes : ∀ row, other row → ¬condition row) :
    List.filter (fun row => other row)
      ((List.filter (fun row => ¬condition row) rows) ++ added) =
        List.filter (fun row => other row) rows := by
  have hNone : List.filter (fun row => other row) added = [] := by
    rw [List.filter_eq_nil_iff]
    intro row hRow hOther
    exact hExcludes row (of_decide_eq_true hOther) (hAdded row hRow)
  rw [List.filter_append, hNone, List.append_nil, List.filter_filter]
  refine List.filter_congr fun row _ => ?_
  by_cases hOther : other row
  · simp [hOther, hExcludes row hOther]
  · simp [hOther]

end Replace

section Rows
variable {uuid5 : UUID → String → UUID} {database : Database}

theorem chunkRows_owner {tenantId : String} {documentId : UUID} {chunks : List Chunk}
    {child : ChunkRow} (h : child ∈ chunkRows uuid5 tenantId documentId chunks) :
    child.tenantId = tenantId ∧ child.documentId = documentId := by
  obtain ⟨entry, _, rfl⟩ := List.mem_map.mp h
  exact ⟨rfl, rfl⟩

theorem entityRows_owner {tenantId : String} {documentId : UUID} {entities : List Entity}
    {child : EntityRow} (h : child ∈ entityRows uuid5 tenantId documentId entities) :
    child.tenantId = tenantId ∧ child.documentId = documentId := by
  obtain ⟨entry, _, rfl⟩ := List.mem_map.mp h
  exact ⟨rfl, rfl⟩

/-- Rows without derived rows of their own: those that own nothing. -/
theorem Owned.chunksOf_eq_nil (owned : Owned database) {row : DocumentRow}
    (hNone : ∀ other ∈ database.documents, other.ownerKey ≠ row.ownerKey) :
    chunksOf database row = [] := by
  rw [chunksOf, List.filter_eq_nil_iff]
  intro child hChild hOwner
  obtain ⟨parent, hParent, hKey⟩ := owned.chunks child hChild
  obtain ⟨hTenant, hId⟩ := of_decide_eq_true hOwner
  exact hNone parent hParent (by rw [hKey, hTenant, hId, DocumentRow.ownerKey])

theorem Owned.entitiesOf_eq_nil (owned : Owned database) {row : DocumentRow}
    (hNone : ∀ other ∈ database.documents, other.ownerKey ≠ row.ownerKey) :
    entitiesOf database row = [] := by
  rw [entitiesOf, List.filter_eq_nil_iff]
  intro child hChild hOwner
  obtain ⟨parent, hParent, hKey⟩ := owned.entities child hChild
  obtain ⟨hTenant, hId⟩ := of_decide_eq_true hOwner
  exact hNone parent hParent (by rw [hKey, hTenant, hId, DocumentRow.ownerKey])

/-- Derived rows keep their document where documents persist and they stay. -/
theorem Owned.of_persists {after : Database} (owned : Owned database)
    (persists : Persists database after) (hChunks : after.chunks = database.chunks)
    (hEntities : after.entities = database.entities) : Owned after := by
  constructor
  · intro child hChild
    obtain ⟨row, hRow, hKey⟩ := owned.chunks child (hChunks ▸ hChild)
    obtain ⟨later, hLater, hSame⟩ := persists row hRow
    exact ⟨later, hLater, hSame.ownerKey.trans hKey⟩
  · intro child hChild
    obtain ⟨row, hRow, hKey⟩ := owned.entities child (hEntities ▸ hChild)
    obtain ⟨later, hLater, hSame⟩ := persists row hRow
    exact ⟨later, hLater, hSame.ownerKey.trans hKey⟩

/-- The rows derived from a document are replaced by those of one of its rows. -/
theorem Owned.replaceChildren (owned : Owned database) {row : DocumentRow}
    (hRow : row ∈ database.documents) (chunks : List Chunk) (entities : List Entity) :
    Owned (database.replaceChildren uuid5 row.tenantId row.id chunks entities) := by
  constructor
  · intro child hChild
    rcases List.mem_append.mp hChild with hOld | hNew
    · exact owned.chunks child (List.mem_filter.mp hOld).1
    · obtain ⟨hTenant, hId⟩ := chunkRows_owner hNew
      exact ⟨row, hRow, by rw [hTenant, hId, DocumentRow.ownerKey]⟩
  · intro child hChild
    rcases List.mem_append.mp hChild with hOld | hNew
    · exact owned.entities child (List.mem_filter.mp hOld).1
    · obtain ⟨hTenant, hId⟩ := entityRows_owner hNew
      exact ⟨row, hRow, by rw [hTenant, hId, DocumentRow.ownerKey]⟩

variable (row : DocumentRow) (chunks : List Chunk) (entities : List Entity)

theorem chunksOf_replaceChildren :
    chunksOf (database.replaceChildren uuid5 row.tenantId row.id chunks entities) row =
      chunkRows uuid5 row.tenantId row.id chunks :=
  filter_replaced fun _ hChild => chunkRows_owner hChild

theorem entitiesOf_replaceChildren :
    entitiesOf (database.replaceChildren uuid5 row.tenantId row.id chunks entities) row =
      entityRows uuid5 row.tenantId row.id entities :=
  filter_replaced fun _ hChild => entityRows_owner hChild

variable {row} in
theorem chunksOf_replaceChildren_of_ne {other : DocumentRow} (hOther : other.id ≠ row.id) :
    chunksOf (database.replaceChildren uuid5 row.tenantId row.id chunks entities) other =
      chunksOf database other :=
  filter_replaced_of_excludes (fun _ hChild => chunkRows_owner hChild)
    fun _ hOwner hChild => hOther (hOwner.2.symm.trans hChild.2)

variable {row} in
theorem entitiesOf_replaceChildren_of_ne {other : DocumentRow} (hOther : other.id ≠ row.id) :
    entitiesOf (database.replaceChildren uuid5 row.tenantId row.id chunks entities) other =
      entitiesOf database other :=
  filter_replaced_of_excludes (fun _ hChild => entityRows_owner hChild)
    fun _ hOwner hChild => hOther (hOwner.2.symm.trans hChild.2)

end Rows

/-- Where a row stands: without output, or with that of one upsert. -/
def OutputState (uuid5 : UUID → String → UUID) (history : List Commit) (row : DocumentRow) :
    Prop :=
  NoOutput (replay history) history row ∨
    ∃ record, Upserted uuid5 history record ∧ HasOutput uuid5 (replay history) row record

section Outputs
variable {uuid5 : UUID → String → UUID} {permits : Operation → Prop} {commit : Commit}
  {history : List Commit} {row : DocumentRow}

/-- Only the transaction of an upsert stores output, and that of its own content. -/
theorem storedContent_writes (database : Database) (operation : Operation) :
    storedContent (operation.writes uuid5 database) =
      match operation with
      | .output record _ => some record.contentKey
      | _ => none := by
  cases operation with
  | register record event => rfl
  | output record now =>
      simp only [Operation.writes, Operation.outputWrite, childWrites, List.cons_append]
      cases hFound : database.findByContent record.tenantId record.sha256 with
      | none => rfl
      | some found =>
          have hKey := (select_mem hFound).2
          simp only [storedContent, Option.some.injEq]
          exact hKey
  | status tenantId documentId next error =>
      simp only [Operation.writes]
      cases database.findById tenantId documentId <;> rfl

theorem OutputStored.cons {content : String × String} (commit : Commit)
    (h : OutputStored history content) : OutputStored (commit :: history) content := by
  obtain ⟨found, hFound, hStored⟩ := h
  exact ⟨found, List.mem_cons_of_mem _ hFound, hStored⟩

theorem outputStored_cons {content : String × String} :
    OutputStored (commit :: history) content ↔
      storedContent commit.writes = some content ∨ OutputStored history content := by
  simp [OutputStored]

theorem Upserted.cons {record : StoredDocument} (commit : Commit)
    (h : Upserted uuid5 history record) : Upserted uuid5 (commit :: history) record := by
  obtain ⟨hPrepared, found, earlier, now, hSuffix, hWrites⟩ := h
  exact ⟨hPrepared, found, earlier, now, hSuffix.trans (List.suffix_cons _ _), hWrites⟩

/-- Every document of a derived row is there. -/
theorem Legal.owned (legal : Legal uuid5 permits history) : Owned (replay history) := by
  induction history with
  | nil =>
      constructor
      · intro child hChild
        cases hChild
      · intro child hChild
        cases hChild
  | cons commit history ih =>
      obtain ⟨operation, _, _, _, hReplay⟩ := legal.apply legal.2.unique
      have persists : Persists (replay history) (operation.apply uuid5 (replay history)) :=
        persists_apply operation
      have owned := ih legal.2
      rw [hReplay]
      cases operation with
      | register record event =>
          apply owned.of_persists persists <;>
          · rw [Operation.apply, Database.register]
            split <;> rfl
      | output record now =>
          have hRow := @outputRow_mem (replay history) record now
          have hTenant := congrArg Prod.fst
            (@contentKey_outputRow (replay history) record.toDocumentRow now)
          have hUpsert : Owned ((replay history).upsertRow record.toDocumentRow now) := by
            refine owned.of_persists (fun old hOld => ?_) ?_ ?_
            · obtain ⟨later, hLater, hSame⟩ := persists old hOld
              rw [Operation.apply, Database.upsertDocument_documents] at hLater
              exact ⟨later, hLater, hSame⟩
            · rw [Database.upsertRow]
              split <;> rfl
            · rw [Database.upsertRow]
              split <;> rfl
          have hReplaced := @Owned.replaceChildren uuid5 _ hUpsert _ hRow record.chunks
            record.entities
          rw [Operation.apply, upsertDocument_eq]
          simp only [DocumentRow.contentKey] at hTenant
          rw [hTenant] at hReplaced
          exact hReplaced
      | status tenantId documentId next error => exact owned.of_persists persists rfl rfl

/-- Content whose output was stored has a document. -/
theorem Legal.row_of_stored (legal : Legal uuid5 permits history) {content : String × String}
    (hStored : OutputStored history content) :
    ∃ row ∈ (replay history).documents, row.contentKey = content := by
  induction history with
  | nil =>
      obtain ⟨found, hFound, _⟩ := hStored
      cases hFound
  | cons commit history ih =>
      obtain ⟨operation, _, _, hWrites, hReplay⟩ := legal.apply legal.2.unique
      rw [hReplay]
      rcases outputStored_cons.mp hStored with hNow | hEarlier
      · rw [hWrites, storedContent_writes] at hNow
        cases operation with
        | register record event => cases hNow
        | output record now =>
            have hRow := @outputRow_mem (replay history) record now
            have hKey := @contentKey_outputRow (replay history)
              record.toDocumentRow now
            rw [← Database.upsertDocument_documents uuid5] at hRow
            exact ⟨_, hRow, hKey.trans (Option.some.inj hNow)⟩
        | status tenantId documentId next error => cases hNow
      · obtain ⟨row, hRow, hKey⟩ := ih legal.2 hEarlier
        obtain ⟨later, hLater, hSame⟩ := @persists_apply uuid5 _ operation row hRow
        exact ⟨later, hLater, hSame.contentKey.trans hKey⟩

/-- A row of the same identity and metadata has the same output. -/
theorem HasOutput.of_same {database after : Database} {later : DocumentRow}
    {record : StoredDocument} (h : HasOutput uuid5 database row record)
    (hSame : SameIdentity row later) (hVersion : later.pipelineVersion = row.pipelineVersion)
    (hModel : later.embedModel = row.embedModel) (hLanguage : later.language = row.language)
    (hPages : later.pageCount = row.pageCount) (hChunks : after.chunks = database.chunks)
    (hEntities : after.entities = database.entities) : HasOutput uuid5 after later record where
  content := h.content.trans hSame.contentKey.symm
  pipelineVersion := hVersion.trans h.pipelineVersion
  embedModel := hModel.trans h.embedModel
  language := hLanguage.trans h.language
  pageCount := hPages.trans h.pageCount
  chunks := by
    have hRows := h.chunks
    rw [chunksOf] at hRows ⊢
    rw [hChunks, hSame.tenantId, hSame.id]
    exact hRows
  entities := by
    have hRows := h.entities
    rw [entitiesOf] at hRows ⊢
    rw [hEntities, hSame.tenantId, hSame.id]
    exact hRows

/-- A commit that leaves derived rows and the metadata of output alone leaves a row where
it stood, unless it makes a row without output processed. -/
theorem OutputState.of_same {later : DocumentRow} (h : OutputState uuid5 history row)
    (hSame : SameIdentity row later) (hVersion : later.pipelineVersion = row.pipelineVersion)
    (hModel : later.embedModel = row.embedModel) (hLanguage : later.language = row.language)
    (hPages : later.pageCount = row.pageCount)
    (hChunks : (replay (commit :: history)).chunks = (replay history).chunks)
    (hEntities : (replay (commit :: history)).entities = (replay history).entities)
    (hStored : storedContent commit.writes = none)
    (hStatus : later.status = .processed →
      row.status = .processed ∨ OutputStored history row.contentKey) :
    OutputState uuid5 (commit :: history) later := by
  cases h with
  | inl none =>
      refine Or.inl ⟨?_, ?_, fun hProcessed => ?_, ?_⟩
      · rw [chunksOf, hChunks, hSame.tenantId, hSame.id]
        exact none.chunks
      · rw [entitiesOf, hEntities, hSame.tenantId, hSame.id]
        exact none.entities
      · cases hStatus hProcessed with
        | inl hBefore => exact none.status hBefore
        | inr hOutput => exact none.stored hOutput
      · rw [outputStored_cons, hStored, hSame.contentKey]
        rintro (hNow | hEarlier)
        · cases hNow
        · exact none.stored hEarlier
  | inr output =>
      obtain ⟨record, upserted, hOutput⟩ := output
      exact Or.inr ⟨record, upserted.cons commit,
        hOutput.of_same hSame hVersion hModel hLanguage hPages hChunks hEntities⟩

/-- A registration leaves every row as it was, and adds one without output. -/
theorem Legal.outputState_register (legal : Legal uuid5 permits history)
    (hBefore : ∀ row ∈ (replay history).documents, OutputState uuid5 history row)
    {record : DocumentRow} {event : DocumentUploaded}
    (enabled : (Operation.register record event).Enabled history)
    (hStored : storedContent commit.writes = none)
    (hReplay : replay (commit :: history) = (replay history).register record event.eventId event)
    (hRow : row ∈ (replay (commit :: history)).documents) :
    OutputState uuid5 (commit :: history) row := by
  obtain ⟨hStatus, _, hAbsent, hFresh⟩ := enabled
  rw [Database.register, hAbsent] at hReplay
  have hChunks : (replay (commit :: history)).chunks = (replay history).chunks := by
    rw [hReplay]
  have hEntities : (replay (commit :: history)).entities = (replay history).entities := by
    rw [hReplay]
  have hOld := hRow
  rw [hReplay] at hOld
  rcases List.mem_append.mp hOld with hOld | hNew
  · exact (hBefore row hOld).of_same (SameIdentity.refl row) rfl rfl rfl rfl hChunks hEntities
      hStored Or.inl
  · cases List.mem_singleton.mp hNew
    have hNone : ∀ other ∈ (replay history).documents, other.ownerKey ≠ row.ownerKey :=
      fun other hOther hKey => select_eq_none.mp hFresh other hOther (congrArg Prod.snd hKey)
    refine Or.inl ⟨?_, ?_, ?_, ?_⟩
    · rw [chunksOf, hChunks]
      exact legal.owned.chunksOf_eq_nil hNone
    · rw [entitiesOf, hEntities]
      exact legal.owned.entitiesOf_eq_nil hNone
    · rw [hStatus]
      decide
    · rw [outputStored_cons, hStored]
      rintro (hNow | hEarlier)
      · cases hNow
      · obtain ⟨other, hOther, hKey⟩ := legal.row_of_stored hEarlier
        exact select_eq_none.mp hAbsent other hOther hKey

/-- An upsert gives the row of its content its output, and leaves the others as they were. -/
theorem Legal.outputState_output (legal : Legal uuid5 permits history)
    (hBefore : ∀ row ∈ (replay history).documents, OutputState uuid5 history row)
    {record : StoredDocument} {now : Timestamp}
    (enabled : (Operation.output record now).Enabled history)
    (hWrites : commit.writes = (Operation.output record now).writes uuid5 (replay history))
    (hReplay : replay (commit :: history) = (replay history).upsertDocument uuid5 record now)
    (hRow : row ∈ (replay (commit :: history)).documents) :
    OutputState uuid5 (commit :: history) row := by
  have unique : ((replay history).upsertRow record.toDocumentRow now).Unique :=
    legal.unique.upsertRow now enabled.2
  have hStored : storedContent commit.writes = some record.contentKey := by
    rw [hWrites, storedContent_writes]
  have hKey := @contentKey_outputRow (replay history) record.toDocumentRow now
  have hTenant : record.tenantId =
      (Operation.outputRow (replay history) record.toDocumentRow now).tenantId :=
    (congrArg Prod.fst hKey).symm
  have hStays := @outputRow_mem (replay history) record now
  have hMem := hRow
  rw [hReplay, Database.upsertDocument_documents] at hMem
  rw [upsertDocument_eq, hTenant] at hReplay
  rcases mem_upsertRow legal.unique hMem with rfl | ⟨hOld, hOther⟩
  · refine Or.inr ⟨record, ⟨enabled.1, commit, history, now, List.suffix_rfl, hWrites⟩, ?_⟩
    have hMetadata : ∀ row : DocumentRow,
        row = Operation.outputRow (replay history) record.toDocumentRow now →
        row.pipelineVersion = record.pipelineVersion ∧ row.embedModel = record.embedModel ∧
          row.language = record.language ∧ row.pageCount = record.pageCount := by
      intro row hRow
      rw [hRow, Operation.outputRow]
      split
      · exact ⟨rfl, rfl, rfl, rfl⟩
      · exact ⟨rfl, rfl, rfl, rfl⟩
    obtain ⟨hVersion, hModel, hLanguage, hPages⟩ := hMetadata _ rfl
    refine ⟨hKey.symm, hVersion, hModel, hLanguage, hPages, ?_, ?_⟩
    · rw [hReplay]
      exact chunksOf_replaceChildren _ _ _
    · rw [hReplay]
      exact entitiesOf_replaceChildren _ _ _
  · have hId : row.id ≠ (Operation.outputRow (replay history) record.toDocumentRow now).id := by
      intro hId
      rw [unique.eq_of_id hMem hStays hId] at hOther
      exact hOther hKey
    have hChunks : chunksOf (replay (commit :: history)) row = chunksOf (replay history) row := by
      rw [hReplay, chunksOf_replaceChildren_of_ne _ _ hId, chunksOf, Database.upsertRow]
      split <;> rfl
    have hEntities :
        entitiesOf (replay (commit :: history)) row = entitiesOf (replay history) row := by
      rw [hReplay, entitiesOf_replaceChildren_of_ne _ _ hId, entitiesOf, Database.upsertRow]
      split <;> rfl
    cases hBefore row hOld with
    | inl none =>
        refine Or.inl ⟨hChunks.trans none.chunks, hEntities.trans none.entities, none.status, ?_⟩
        rw [outputStored_cons, hStored]
        rintro (hNow | hEarlier)
        · exact hOther (Option.some.inj hNow).symm
        · exact none.stored hEarlier
    | inr output =>
        obtain ⟨found, upserted, hOutput⟩ := output
        exact Or.inr ⟨found, upserted.cons commit, { hOutput with
          chunks := hChunks.trans hOutput.chunks
          entities := hEntities.trans hOutput.entities }⟩

/-- A status change keeps derived output, and makes only a row that has it processed. -/
theorem Legal.outputState_status (legal : Legal uuid5 permits history)
    (hBefore : ∀ row ∈ (replay history).documents, OutputState uuid5 history row)
    {tenantId : String} {documentId : UUID} {next : DocumentStatus} {error : Option String}
    (enabled : (Operation.status tenantId documentId next error).Enabled history)
    (hStored : storedContent commit.writes = none)
    (hReplay : replay (commit :: history) =
      (replay history).markStatus tenantId documentId next error)
    (hRow : row ∈ (replay (commit :: history)).documents) :
    OutputState uuid5 (commit :: history) row := by
  obtain ⟨found, hFound, hProcessed⟩ := enabled
  have hChunks : (replay (commit :: history)).chunks = (replay history).chunks := by
    rw [hReplay, Database.markStatus]
  have hEntities : (replay (commit :: history)).entities = (replay history).entities := by
    rw [hReplay, Database.markStatus]
  rw [hReplay] at hRow
  obtain ⟨old, hOld, rfl⟩ := mem_updateWhere.mp hRow
  by_cases hOwner : old.ownerKey = (tenantId, documentId)
  · rw [if_pos (decide_eq_true hOwner)]
    refine (hBefore old hOld).of_same (sameIdentity_statusRow next error old) rfl rfl rfl rfl
      hChunks hEntities hStored fun hNext => Or.inr ?_
    -- It is the row found, and its content has its output stored.
    obtain ⟨hFoundRow, hFoundKey⟩ := select_mem hFound
    have hId := congrArg Prod.snd (hOwner.trans hFoundKey.symm)
    have hOldFound : old = found := legal.unique.eq_of_id hOld hFoundRow hId
    exact hOldFound ▸ hProcessed hNext
  · rw [if_neg (by simpa using hOwner)]
    exact (hBefore old hOld).of_same (SameIdentity.refl old) rfl rfl rfl rfl hChunks hEntities
      hStored Or.inl

/-- After every history of possible operations each row has the whole output of one
upsert, or none. -/
theorem Legal.outputState (legal : Legal uuid5 permits history)
    (hRow : row ∈ (replay history).documents) : OutputState uuid5 history row := by
  induction history generalizing row with
  | nil => cases hRow
  | cons commit history ih =>
      have hBefore : ∀ row ∈ (replay history).documents, OutputState uuid5 history row :=
        fun row hRow => ih legal.2 hRow
      obtain ⟨operation, _, enabled, hWrites, hReplay⟩ := legal.apply legal.2.unique
      have hStored := @storedContent_writes uuid5 (replay history) operation
      rw [← hWrites] at hStored
      cases operation with
      | register record event =>
          exact legal.2.outputState_register hBefore enabled hStored hReplay hRow
      | output record now => exact legal.2.outputState_output hBefore enabled hWrites hReplay hRow
      | status tenantId documentId next error =>
          exact legal.2.outputState_status hBefore enabled hStored hReplay hRow

end Outputs

end DocInsight.Storage
