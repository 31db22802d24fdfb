import DocInsight.Contracts.Encoding
import DocInsight.Storage.Repository
import DocInsight.Worker.AnalysisBookkeeping
import DocInsight.Worker.EntityGroups

/-! Citations as they are written and read: derived rows get their identifiers from places
in a list, while a read sorts them by page and by ordinal or offset. What an analysis has
produced is in that order. -/
namespace DocInsight.Storage

open DocInsight.Contracts DocInsight.Python DocInsight.Worker Simulation Table

/-- What a citation shows of a chunk: all but its vector. -/
def cited (chunk : Chunk) : Chunk := { chunk with embedding := none }

/-- One list up to the order of the entities at one place. -/
structure SameUpToTies (first second : List Entity) : Prop where
  perm : first.Perm second
  places : first.map entityPlace = second.map entityPlace

section Analysis
variable {detector : LanguageDetector} {ner : NerExtractor} {tokenizer : Tokenizer}
  {settings : Settings} {spelling : Text → Text}

/-- Chunks of pages that follow one another follow one another. -/
theorem pairwise_flatten_of_labelled {pages : List Page} {results : List (List Chunk)}
    (labelled : List.Forall₂ (fun page chunks => ∀ chunk ∈ chunks, Labelled page chunk) pages
      results)
    (hPages : pages.Pairwise fun first second => first.number ≤ second.number) :
    results.flatten.Pairwise fun first second => first.page ≤ second.page := by
  have hNumbered (results : List (List Chunk)) (pages : List Page) (labelled : List.Forall₂
      (fun page chunks => ∀ chunk ∈ chunks, Labelled page chunk) pages results) :
      ∀ chunk ∈ results.flatten, ∃ page ∈ pages, chunk.page = page.number := by
    induction labelled with
    | nil => exact fun _ h => absurd h List.not_mem_nil
    | @cons page chunks pages results first others ih =>
        intro chunk hChunk
        rcases List.mem_append.mp hChunk with hFirst | hRest
        · exact ⟨page, List.mem_cons_self .., (first chunk hFirst).1⟩
        · obtain ⟨other, hOther, hPage⟩ := ih chunk hRest
          exact ⟨other, List.mem_cons_of_mem _ hOther, hPage⟩
  induction labelled with
  | nil => exact List.Pairwise.nil
  | @cons page chunks pages results first others ih =>
      obtain ⟨hFollow, hRest⟩ := List.pairwise_cons.mp hPages
      rw [List.flatten_cons, List.pairwise_append]
      refine ⟨?_, ih hRest, ?_⟩
      · apply List.pairwise_of_forall_mem_list
        intro chunk hChunk other hOther
        rw [(first chunk hChunk).1, (first other hOther).1]
      · intro chunk hChunk other hOther
        obtain ⟨later, hLater, hPage⟩ := hNumbered results pages others other hOther
        rw [(first chunk hChunk).1, hPage]
        exact hFollow later hLater

/-- The chunks of a document are in the order in which they are read, each at its own place. -/
theorem analyze_chunks_ordered {document : ExtractedDocument} {result : Document}
    (hPages : document.pages.Pairwise fun first second => first.number ≤ second.number)
    (h : analyze detector ner tokenizer settings spelling document = .ok result) :
    result.chunks.Pairwise (chunkPlace · < chunkPlace ·) := by
  have bookkept := analyze_bookkept h
  have hNumbers : result.pages.map Page.number = document.pages.map Page.number := by
    apply Eq.symm
    rw [← List.forall₂_eq_eq_eq, List.forall₂_map_left_iff, List.forall₂_map_right_iff]
    exact bookkept.pages.imp fun original page hPage => by rw [hPage]
  have hResult : result.pages.Pairwise fun first second => first.number ≤ second.number := by
    apply List.pairwise_map.mp
    rw [hNumbers]
    exact List.pairwise_map.mpr hPages
  obtain ⟨results, hChunks, -, labelled⟩ := bookkept.chunks
  have hByPage := pairwise_flatten_of_labelled labelled hResult
  rw [← hChunks] at hByPage
  have hByOrd : result.chunks.Pairwise fun first second => first.ord < second.ord := by
    apply List.pairwise_map.mp
    rw [bookkept.ords, List.pairwise_map]
    exact List.pairwise_lt_range.imp fun hLt => Int.ofNat_lt.mpr hLt
  apply (hByPage.and hByOrd).imp
  rintro first second ⟨hPage, hOrd⟩
  apply Prod.Lex.toLex_lt_toLex.mpr
  rcases hPage.lt_or_eq with hLater | hSame
  · exact Or.inl hLater
  · exact Or.inr ⟨hSame, hOrd⟩

/-- So are its entities, where those of one place may stand in any order. -/
theorem analyze_entities_ordered {document : ExtractedDocument} {result : Document}
    (h : analyze detector ner tokenizer settings spelling document = .ok result) :
    result.entities.Pairwise (entityPlace · ≤ entityPlace ·) := by
  rw [(analyze_bookkept h).entities]
  apply (deduplicate_grouped spelling _).ordered.imp
  intro first second hOrder
  exact Prod.Lex.toLex_le_toLex.mpr hOrder

/-- Embedding adds a vector to each chunk and changes nothing else of the output. -/
theorem embedDocument_ok {document embedded : Document} {embedder : FastEmbedEmbedder}
    (h : embedDocument document embedder = .ok embedded) :
    embedded.chunks.map cited = document.chunks.map cited ∧
      embedded.entities = document.entities := by
  unfold embedDocument at h
  obtain ⟨vectors, -, hEmbedded⟩ := Raising.bind_eq_ok.mp h
  split_ifs at hEmbedded with hInvalid
  cases hEmbedded
  refine ⟨?_, rfl⟩
  have hLength : document.chunks.length ≤ vectors.length := by
    simp only [Bool.or_eq_true, decide_eq_true_eq, not_or, not_not] at hInvalid
    exact hInvalid.1.ge
  rw [List.map_map]
  conv_rhs => rw [← List.map_fst_zip hLength, List.map_map]
  rfl

theorem pairwise_of_cited {first second : List Chunk} (hSame : first.map cited = second.map cited)
    (h : second.Pairwise (chunkPlace · < chunkPlace ·)) :
    first.Pairwise (chunkPlace · < chunkPlace ·) := by
  have hPlaces : first.map chunkPlace = second.map chunkPlace := by
    have hMapped := congrArg (List.map chunkPlace) hSame
    rwa [List.map_map, List.map_map] at hMapped
  apply List.pairwise_map.mp
  rw [hPlaces]
  exact List.pairwise_map.mpr h

end Analysis

section Reading
variable {uuid5 : UUID → String → UUID} {database : Database} {tenantId : String}
  {documentId : UUID} {found : StoredDocument}

/-- A read finds a document with its derived rows, sorted by place; the order of rows at
one place is not said. -/
structure Reads (database : Database) (tenantId : String) (documentId : UUID)
    (found : StoredDocument) : Prop where
  row : database.findById tenantId documentId = some found.toDocumentRow
  chunks : ∃ rows, Ordered (fun child => chunkPlace child.chunk)
    (chunksOf database found.toDocumentRow) rows ∧ found.chunks = rows.map ChunkRow.chunk
  entities : ∃ rows, Ordered (fun child => entityPlace child.entity)
    (entitiesOf database found.toDocumentRow) rows ∧ found.entities = rows.map EntityRow.entity

/-- The rows of a table in the order of their places are one of the reads. -/
theorem getDocument_reads (h : database.getDocument tenantId documentId = some found) :
    Reads database tenantId documentId found := by
  obtain ⟨row, hRow, rfl⟩ := Option.map_eq_some_iff.mp h
  obtain ⟨rfl, rfl⟩ := Prod.mk.inj (select_mem hRow).2
  exact ⟨hRow, ⟨_, ordered_orderBy _ _, rfl⟩, ⟨_, ordered_orderBy _ _, rfl⟩⟩

/-- What is written in the order of places is read as it was written. -/
theorem Reads.of_ordered {chunks : List Chunk} {entities : List Entity}
    (reads : Reads database tenantId documentId found)
    (hChunks : (chunksOf database found.toDocumentRow).map ChunkRow.chunk = chunks)
    (hEntities : (entitiesOf database found.toDocumentRow).map EntityRow.entity = entities)
    (chunksOrdered : chunks.Pairwise (chunkPlace · < chunkPlace ·))
    (entitiesOrdered : entities.Pairwise (entityPlace · ≤ entityPlace ·)) :
    found.chunks = chunks ∧ SameUpToTies found.entities entities := by
  subst hChunks hEntities
  obtain ⟨chunkRows, hChunkRows, hFound⟩ := reads.chunks
  obtain ⟨entityRows, hEntityRows, hFound'⟩ := reads.entities
  rw [hFound, hFound']
  constructor
  · have hRows := List.pairwise_map.mp chunksOrdered
    rw [hChunkRows.eq_of_lt hRows]
  · have hRows := List.pairwise_map.mp entitiesOrdered
    constructor
    · exact hEntityRows.perm.map _
    · rw [List.map_map, List.map_map]
      exact hEntityRows.map_eq hRows

end Reading

section Identifiers
variable {uuid5 : UUID → String → UUID} {database : Database}

/-- The names below a document that its derived rows of one table get their identifiers from. -/
def rowNames (documentId : UUID) (table : String) (count : Nat) : List (UUID × String) :=
  (List.range count).map fun index => (documentId, table ++ toString index)

/-- The names that are in use below a document. -/
def namesOf (database : Database) (row : DocumentRow) : List (UUID × String) :=
  rowNames row.id "chunks:" (chunksOf database row).length ++
    rowNames row.id "entities:" (entitiesOf database row).length

/-- The names that are in use. -/
def childNames (database : Database) : List (UUID × String) :=
  database.documents.flatMap (namesOf database)

/-- The identifiers of the derived rows, of both tables. -/
def childIds (database : Database) : List UUID :=
  database.chunks.map ChunkRow.id ++ database.entities.map EntityRow.id

theorem nodup_rowNames (documentId : UUID) (table : String) (count : Nat) :
    (rowNames documentId table count).Nodup := by
  apply List.Nodup.map_on _ List.nodup_range
  intro first _ second _ hSame
  have hNumber : Nat.repr first = Nat.repr second :=
    String.append_right_inj table |>.mp (congrArg Prod.snd hSame)
  have hParsed := congrArg parseSize hNumber
  rw [parseSize_repr, parseSize_repr] at hParsed
  exact Option.some.inj hParsed

theorem nodup_namesOf (database : Database) (row : DocumentRow) : (namesOf database row).Nodup := by
  apply List.Nodup.append (nodup_rowNames _ _ _) (nodup_rowNames _ _ _)
  intro name hChunk hEntity
  obtain ⟨index, -, rfl⟩ := List.mem_map.mp hChunk
  obtain ⟨other, -, hSame⟩ := List.mem_map.mp hEntity
  have hText := congrArg (fun name => name.2.toList.head?) hSame
  simp at hText

theorem owner_of_mem_namesOf {row : DocumentRow} {name : UUID × String}
    (h : name ∈ namesOf database row) : name.1 = row.id := by
  rcases List.mem_append.mp h with hChunk | hEntity
  · obtain ⟨index, -, rfl⟩ := List.mem_map.mp hChunk
    rfl
  · obtain ⟨index, -, rfl⟩ := List.mem_map.mp hEntity
    rfl

/-- No name is used for two rows. -/
theorem nodup_childNames (unique : database.Unique) : (childNames database).Nodup := by
  apply List.nodup_flatMap.mpr
  refine ⟨fun row _ => nodup_namesOf database row, ?_⟩
  apply (List.pairwise_map.mp unique.ids).imp
  intro first second hDiffer name hFirst hSecond
  exact hDiffer ((owner_of_mem_namesOf hFirst).symm.trans (owner_of_mem_namesOf hSecond))

theorem chunkRows_id (tenantId : String) (documentId : UUID) (chunks : List Chunk) :
    (chunkRows uuid5 tenantId documentId chunks).map ChunkRow.id =
      (rowNames documentId "chunks:" chunks.length).map fun name => uuid5 name.1 name.2 := by
  rw [chunkRows, rowNames, List.map_map, List.map_map, List.range_eq_range',
    ← List.zipIdx_map_snd 0 chunks, List.map_map]
  rfl

theorem entityRows_id (tenantId : String) (documentId : UUID) (entities : List Entity) :
    (entityRows uuid5 tenantId documentId entities).map EntityRow.id =
      (rowNames documentId "entities:" entities.length).map fun name => uuid5 name.1 name.2 := by
  rw [entityRows, rowNames, List.map_map, List.map_map, List.range_eq_range',
    ← List.zipIdx_map_snd 0 entities, List.map_map]
  rfl

theorem Filed.owners (filed : Filed uuid5 database) :
    Keyed DocumentRow.ownerKey database.documents := by
  apply List.Nodup.of_map Prod.snd
  rw [List.map_map]
  exact filed.unique.ids

/-- The derived rows of a document have the identifiers of its names. -/
theorem Filed.ids_of_row (filed : Filed uuid5 database) {row : DocumentRow}
    (hRow : row ∈ database.documents) :
    (chunksOf database row).map ChunkRow.id ++ (entitiesOf database row).map EntityRow.id =
      (namesOf database row).map fun name => uuid5 name.1 name.2 := by
  obtain ⟨chunks, entities, hChunks, hEntities⟩ := filed.derived row hRow
  have hChunkCount : (chunksOf database row).length = chunks.length := by
    rw [hChunks, chunkRows, List.length_map, List.length_zipIdx]
  have hEntityCount : (entitiesOf database row).length = entities.length := by
    rw [hEntities, entityRows, List.length_map, List.length_zipIdx]
  rw [namesOf, List.map_append, hChunkCount, hEntityCount, ← chunkRows_id row.tenantId,
    ← entityRows_id row.tenantId, ← hChunks, ← hEntities]

/-- The chunks of all documents are all chunks. -/
theorem Filed.flatMap_chunksOf (filed : Filed uuid5 database) :
    (database.documents.flatMap (chunksOf database)).Perm database.chunks := by
  have hReferred := filed.owners.flatMap_children filed.owned.chunks
  simp only [DocumentRow.ownerKey, Prod.mk.injEq] at hReferred
  exact hReferred

/-- The entities of all documents are all entities. -/
theorem Filed.flatMap_entitiesOf (filed : Filed uuid5 database) :
    (database.documents.flatMap (entitiesOf database)).Perm database.entities := by
  have hReferred := filed.owners.flatMap_children filed.owned.entities
  simp only [DocumentRow.ownerKey, Prod.mk.injEq] at hReferred
  exact hReferred

/-- The derived rows have the identifiers of the names in use. -/
theorem Filed.childIds_perm (filed : Filed uuid5 database) :
    ((childNames database).map fun name => uuid5 name.1 name.2).Perm (childIds database) := by
  have hRows : (childNames database).map (fun name => uuid5 name.1 name.2) =
      database.documents.flatMap fun row =>
        (chunksOf database row).map ChunkRow.id ++ (entitiesOf database row).map EntityRow.id := by
    rw [childNames, List.map_flatMap]
    apply List.flatMap_congr
    intro row hRow
    exact (filed.ids_of_row hRow).symm
  rw [hRows]
  apply (List.flatMap_append_perm _ _ _).symm.trans
  rw [← List.map_flatMap, ← List.map_flatMap]
  exact (filed.flatMap_chunksOf.map _).append (filed.flatMap_entitiesOf.map _)

/-- No two derived rows have one identifier, where the names in use do not collide. -/
theorem Filed.nodup_childIds (filed : Filed uuid5 database)
    (hInjective : Set.InjOn (fun name : UUID × String => uuid5 name.1 name.2)
      {name | name ∈ childNames database}) : (childIds database).Nodup := by
  apply filed.childIds_perm.nodup_iff.mp
  apply List.Nodup.map_on _ (nodup_childNames filed.unique)
  intro first hFirst second hSecond hSame
  exact hInjective hFirst hSecond hSame

end Identifiers

section Upsert
variable {uuid5 : UUID → String → UUID} {dimension : Nat} {database : Database}
  {tenantId filename : String} {document : Document} {fresh : Supply} {stored : StoredDocument}

/-- The call that stores the output of a document. -/
abbrev upsertCall (tenantId filename : String) (document : Document) (fresh : Supply) :
    RepositoryCall :=
  ⟨.upsertDocument tenantId filename document, fresh⟩

/-- What an upsert that answers has checked, answered and stored. -/
theorem upsertDocument_ok
    (h : (PostgresRepository.upsertDocument uuid5 dimension tenantId filename document fresh
      database).1 = .ok stored) :
    ∃ record, prepareDocument tenantId filename document fresh.identifier fresh.now = .ok record ∧
      validateChunks dimension record.chunks = .ok () ∧
      stored.toDocumentRow = Operation.outputRow database record.toDocumentRow fresh.now ∧
      (PostgresRepository.upsertDocument uuid5 dimension tenantId filename document fresh
        database).2 = database.upsertDocument uuid5 record fresh.now := by
  simp only [PostgresRepository.upsertDocument] at h ⊢
  cases hPrepared : prepareDocument tenantId filename document fresh.identifier fresh.now with
  | error error =>
      rw [hPrepared] at h
      cases h
  | ok record =>
      rw [hPrepared] at h
      simp only at h ⊢
      cases hChunks : validateChunks dimension record.chunks with
      | error error =>
          rw [hChunks] at h
          cases h
      | ok checked =>
          rw [hChunks] at h
          cases h
          exact ⟨record, rfl, hChunks, rfl, rfl⟩

/-- What prepares and validates a document does not look at its name, identifier or time. -/
theorem prepareDocument_again {identifier identifier' : UUID} {now now' : Timestamp}
    {record : StoredDocument} (filename' : String)
    (h : prepareDocument tenantId filename document identifier now = .ok record) :
    ∃ again, prepareDocument tenantId filename' document identifier' now' = .ok again := by
  unfold prepareDocument at h ⊢
  split_ifs at h ⊢ with hMissing
  · cases h
  · cases hVectors : document.chunks.forM fun chunk =>
        validateVector (chunk.embedding.getD []) (document.embedDimension.getD 0) with
    | error error =>
        rw [hVectors] at h
        cases h
    | ok checked => exact ⟨_, rfl⟩

/-- The output of a document as it is stored below a row. -/
structure OutputBelow (uuid5 : UUID → String → UUID) (database : Database) (tenantId : String)
    (document : Document) (row : DocumentRow) : Prop where
  mem : row ∈ database.documents
  content : row.contentKey = (tenantId, document.sha256)
  chunks : chunksOf database row = chunkRows uuid5 tenantId row.id document.chunks
  entities : entitiesOf database row = entityRows uuid5 tenantId row.id document.entities

theorem upsertDocument_outputBelow
    (h : (PostgresRepository.upsertDocument uuid5 dimension tenantId filename document fresh
      database).1 = .ok stored) :
    OutputBelow uuid5 (PostgresRepository.upsertDocument uuid5 dimension tenantId filename document
      fresh database).2 tenantId document stored.toDocumentRow := by
  obtain ⟨record, hPrepared, -, hStored, hAfter⟩ := upsertDocument_ok h
  have hContent : stored.contentKey = record.contentKey := by
    rw [hStored]
    exact contentKey_outputRow record.toDocumentRow fresh.now
  have hTenant : record.tenantId = stored.tenantId := (congrArg Prod.fst hContent).symm
  have hMem : stored.toDocumentRow ∈
      (database.upsertRow record.toDocumentRow fresh.now).documents :=
    hStored ▸ outputRow_mem record fresh.now
  rw [upsertDocument_eq, ← hStored, hTenant] at hAfter
  rw [hAfter]
  obtain rfl := prepareDocument_ok hPrepared
  obtain rfl : tenantId = stored.tenantId := hTenant
  exact ⟨hMem, hContent, chunksOf_replaceChildren _ _ _, entitiesOf_replaceChildren _ _ _⟩

/-- An output that was stored once is stored again, below the row of its content. -/
theorem upsertDocument_again {before : Database} {row : DocumentRow} (unique : database.Unique)
    (h : (PostgresRepository.upsertDocument uuid5 dimension tenantId filename document fresh
      before).1 = .ok stored) (hRow : row ∈ database.documents)
    (hContent : row.contentKey = (tenantId, document.sha256)) (filename' : String)
    (fresh' : Supply) :
    ∃ again, (PostgresRepository.upsertDocument uuid5 dimension tenantId filename' document fresh'
      database).1 = .ok again ∧ again.id = row.id := by
  obtain ⟨record, hPrepared, hValid, -, -⟩ := upsertDocument_ok h
  obtain ⟨again, hAgain⟩ := @prepareDocument_again _ _ _ _ fresh'.identifier _ fresh'.now _
    filename' hPrepared
  have hChunks : validateChunks dimension again.chunks = .ok () := by
    rw [prepareDocument_ok hPrepared] at hValid
    rwa [prepareDocument_ok hAgain]
  refine ⟨_, by simp only [PostgresRepository.upsertDocument, hAgain, hChunks]; rfl, ?_⟩
  have hFound : database.findByContent again.tenantId again.sha256 = some row := by
    rw [prepareDocument_ok hAgain]
    exact unique.contents.select_eq_some.mpr ⟨hRow, hContent⟩
  simp only [Operation.outputRow, hFound, replacedRow]

end Upsert

/-- Whatever was called before, the output of an analysis that is stored reads back with the
chunks that were written and the entities that were written; stored again, it has the same
derived rows; and no two derived rows have one identifier. -/
theorem citations_read_back (uuid5 : UUID → String → UUID) (dimension : Nat)
    (calls : List RepositoryCall)
    (hFresh : Along (PostgresRepository.repository uuid5 dimension) IsFresh calls {}) :
    let repository := PostgresRepository.repository uuid5 dimension
    let database := after repository calls {}
    (Set.InjOn (fun name : UUID × String => uuid5 name.1 name.2)
      {name | name ∈ childNames database} → (childIds database).Nodup) ∧
    ∀ (detector : LanguageDetector) (ner : NerExtractor) (tokenizer : Tokenizer)
      (settings : Settings) (spelling : Text → Text) (embedder : FastEmbedEmbedder)
      (extracted : ExtractedDocument) (analyzed embedded : Document),
      (extracted.pages.Pairwise fun first second => first.number ≤ second.number) →
      analyze detector ner tokenizer settings spelling extracted = .ok analyzed →
      embedDocument analyzed embedder = .ok embedded →
      ∀ (tenantId filename : String) (fresh : Supply) (stored : StoredDocument),
        let indexed := repository database (upsertCall tenantId filename embedded fresh)
        IsFresh database (upsertCall tenantId filename embedded fresh) →
        indexed.1 = .ok stored →
        (∃ found, indexed.2.getDocument tenantId stored.id = some found ∧
          Reads indexed.2 tenantId stored.id found) ∧
        (∀ found, Reads indexed.2 tenantId stored.id found →
          found.chunks.map cited = embedded.chunks.map cited ∧
          SameUpToTies found.entities embedded.entities) ∧
        ∀ (rest : List RepositoryCall), Along repository IsFresh rest indexed.2 →
          ∀ (filename' : String) (fresh' : Supply),
            let reindexed := repository (after repository rest indexed.2)
              (upsertCall tenantId filename' embedded fresh')
            ∃ again, reindexed.1 = .ok again ∧ again.id = stored.id ∧
              chunksOf reindexed.2 again.toDocumentRow =
                chunksOf indexed.2 stored.toDocumentRow ∧
              entitiesOf reindexed.2 again.toDocumentRow =
                entitiesOf indexed.2 stored.toDocumentRow := by
  have filed : Filed uuid5 (after (PostgresRepository.repository uuid5 dimension) calls {}) :=
    filed_after filed_empty hFresh
  intro repository database
  refine ⟨filed.nodup_childIds, ?_⟩
  intro detector ner tokenizer settings spelling embedder extracted analyzed embedded hPages
    hAnalyzed hEmbedded tenantId filename fresh stored indexed hNew hStored
  obtain ⟨hChunks, hEntities⟩ := embedDocument_ok hEmbedded
  have output : OutputBelow uuid5 indexed.2 tenantId embedded stored.toDocumentRow :=
    upsertDocument_outputBelow hStored
  have hTenant : stored.tenantId = tenantId := congrArg Prod.fst output.content
  have filedAfter : Filed uuid5 indexed.2 := filed.effect hNew (repository_effect _ _)
  have hFound : indexed.2.findById tenantId stored.id = some stored.toDocumentRow := by
    rw [← hTenant]
    exact filedAfter.unique.findById output.mem
  refine ⟨?_, ?_, ?_⟩
  · have hGot : ∃ found, indexed.2.getDocument tenantId stored.id = some found := by
      rw [Database.getDocument, hFound]
      exact ⟨_, rfl⟩
    obtain ⟨found, hGot⟩ := hGot
    exact ⟨found, hGot, getDocument_reads hGot⟩
  · intro found reads
    have hRow : found.toDocumentRow = stored.toDocumentRow :=
      Option.some.inj (reads.row.symm.trans hFound)
    have hRead := @Reads.of_ordered _ _ _ _ embedded.chunks embedded.entities reads
      (by rw [hRow, output.chunks, chunkRows_chunk]) (by rw [hRow, output.entities, entityRows_entity])
      (pairwise_of_cited hChunks (analyze_chunks_ordered hPages hAnalyzed))
      (hEntities ▸ analyze_entities_ordered hAnalyzed)
    exact ⟨congrArg (List.map cited) hRead.1, hRead.2⟩
  · intro rest hRest filename' fresh' reindexed
    have filedRest : Filed uuid5 (after repository rest indexed.2) := filed_after filedAfter hRest
    obtain ⟨row, hRow, hSame⟩ := persists_after rest indexed.2 _ output.mem
    obtain ⟨again, hAgain, hId⟩ := upsertDocument_again filedRest.unique hStored hRow
      (hSame.contentKey.trans output.content) filename' fresh'
    have outputAgain : OutputBelow uuid5 reindexed.2 tenantId embedded again.toDocumentRow :=
      upsertDocument_outputBelow hAgain
    have hSameId : again.id = stored.id := hId.trans hSame.id
    refine ⟨again, hAgain, hSameId, ?_, ?_⟩
    · rw [outputAgain.chunks, output.chunks, hSameId]
    · rw [outputAgain.entities, output.entities, hSameId]

/-- Identifiers that tell the names below a few documents apart. -/
def shortIds (documentId : UUID) (name : String) : UUID :=
  ⟨documentId.bits * 16 + BitVec.ofNat 128 name.length⟩

def unitEmbedder : FastEmbedEmbedder :=
  ⟨letters, fun texts => .ok (texts.map fun _ => [.finite 1]), "m", 1⟩

def storeNote : RepositoryCall :=
  upsertCall "a" "note.pdf"
    { sha256 := "11", mediaType := .pdf, pages := [], embedModel := some "m",
      embedDimension := some 1
      chunks := [⟨text "note", "en", 1, 0, 0, 4, 4, some [.finite 1]⟩]
      entities := [⟨text "note", "MISC", 1, 0, 4, 1⟩] }
    { identifier := ⟨1⟩, eventId := ⟨2⟩, now := 0 }

/-- The windows of a word that is cut, stored beside a note, are read as they were cut. -/
theorem citations_read_back_cutWord :
    let repository := PostgresRepository.repository shortIds 1
    let database := after repository [storeNote] {}
    (childIds database).Nodup ∧
    ∃ (embedded : Document) (stored found : StoredDocument),
      let call := upsertCall "a" "cut.pdf" embedded { identifier := ⟨3⟩, eventId := ⟨4⟩, now := 0 }
      (repository database call).1 = .ok stored ∧
        (repository database call).2.getDocument "a" stored.id = some found ∧
        found.chunks.map (fun chunk => (chunk.ord, chunk.tokenCount)) =
          [(0, 2), (1, 2), (2, 2), (3, 2)] := by
  intro repository database
  have hFresh : Along repository IsFresh [storeNote] {} :=
    ⟨fun _ h => absurd h List.not_mem_nil, trivial⟩
  have hNew (embedded : Document) : IsFresh database (upsertCall "a" "cut.pdf" embedded
      { identifier := ⟨3⟩, eventId := ⟨4⟩, now := 0 }) := by
    have hIds : ∀ row ∈ database.documents, row.id ≠ ⟨3⟩ := by decide
    exact hIds
  obtain ⟨hDistinct, hBack⟩ := citations_read_back shortIds 1 [storeNote] hFresh
  refine ⟨hDistinct ?_, ?_⟩
  · have hNames : ∀ name ∈ childNames database, ∀ other ∈ childNames database,
        shortIds name.1 name.2 = shortIds other.1 other.2 → name = other := by
      decide
    exact fun name hName other hOther => hNames name hName other hOther
  · have hRun : (analyze ⟨fun _ => ⟨"en", 1⟩⟩ ⟨fun _ => []⟩ letters smallWindows id
        cutWordDocument >>= fun analyzed =>
          (embedDocument analyzed unitEmbedder).mapError fun _ => ⟨"embedding"⟩).toOption.map
        (fun embedded => ((repository database (upsertCall "a" "cut.pdf" embedded
            { identifier := ⟨3⟩, eventId := ⟨4⟩, now := 0 })).1.toOption.isSome,
          embedded.chunks.map fun chunk => (chunk.ord, chunk.tokenCount))) =
        some (true, [(0, 2), (1, 2), (2, 2), (3, 2)]) := by
      decide
    cases hAnalyzed : analyze ⟨fun _ => ⟨"en", 1⟩⟩ ⟨fun _ => []⟩ letters smallWindows id
        cutWordDocument with
    | error error =>
        rw [hAnalyzed] at hRun
        cases hRun
    | ok analyzed =>
        rw [hAnalyzed] at hRun
        cases hEmbedded : embedDocument analyzed unitEmbedder with
        | error error =>
            simp only [bind, Except.bind, hEmbedded] at hRun
            cases hRun
        | ok embedded =>
            simp only [bind, Except.bind, hEmbedded] at hRun
            obtain ⟨hStores, hChunks⟩ := Prod.mk.inj (Option.some.inj hRun)
            cases hStored : (repository database (upsertCall "a" "cut.pdf" embedded
                { identifier := ⟨3⟩, eventId := ⟨4⟩, now := 0 })).1 with
            | error error =>
                rw [hStored] at hStores
                cases hStores
            | ok stored =>
                obtain ⟨⟨found, hGot, hFound⟩, hReads, -⟩ := hBack _ _ _ _ _ unitEmbedder _ _ embedded
                  (by decide) hAnalyzed hEmbedded "a" "cut.pdf" _ stored (hNew embedded) hStored
                refine ⟨embedded, stored, found, hStored, hGot, ?_⟩
                have hCited := congrArg (List.map fun chunk => (chunk.ord, chunk.tokenCount))
                  (hReads found hFound).1
                rw [List.map_map, List.map_map] at hCited
                exact hCited.trans hChunks

end DocInsight.Storage
