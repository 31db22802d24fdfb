import DocInsight.Query.Service
import DocInsight.Storage.Citations
import DocInsight.Worker.Extraction

/-! Where the sources of a response come from. Output is stored only as a pipeline makes it of
an original, so what is retrieved of it is a slice of a page that was extracted. -/
namespace DocInsight.Query

open DocInsight.Contracts DocInsight.Python DocInsight.Storage DocInsight.Worker Interaction
  Simulation Table

section Sourced
variable (pipelines : Set Pipeline) (sha256 : Bytes → String)

/-- What a pipeline in use extracts of an original that a row has the digest of. -/
structure Original (row : DocumentRow) (extracted : ExtractedDocument) : Prop where
  read : ∃ pipeline ∈ pipelines, ∃ data, sha256 data = row.sha256 ∧
    extract pipeline.library pipeline.extraction sha256 data = .ok extracted
  mediaType : row.mediaType = extracted.mediaType
  pageCount : row.pageCount = some extracted.pageCount

/-- A passage of an original of its document. -/
def FromOriginal (row : DocumentRow) (chunk : Chunk) : Prop :=
  ∃ extracted, Original pipelines sha256 row extracted ∧
    ∃ page ∈ extracted.pages, SlicedFrom page chunk

/-- Every stored passage has a document, and is from an original of it. -/
def Sourced (database : Database) : Prop :=
  ∀ child ∈ database.chunks, ∃ row ∈ database.documents,
    row.ownerKey = (child.tenantId, child.documentId) ∧
      FromOriginal pipelines sha256 row child.chunk

/-- A call with a new identifier that stores output only as a pipeline makes it. -/
def Indexes (database : Database) (call : RepositoryCall) : Prop :=
  IsFresh database call ∧
    match call.request with
    | .upsertDocument _ _ document =>
        ∃ pipeline ∈ pipelines, ∃ data, pipeline.document sha256 data = .ok document
    | .replaceChunksAndEntities .. => False
    | _ => True

end Sourced

/-- A worker that computes with a pipeline stores what the pipeline makes of the bytes it
indexes, or nothing. -/
def StoresOutput (sha256 : Bytes → String) (pipeline : Pipeline) : Prop :=
  ∀ {Call : Type} {Response : Call → Type} (backend : Backend Call Response) (data : Bytes),
    backend.sha256 = sha256 →
    backend.outside (.compute data) = .done (pipeline.output sha256 data) →
    ∀ (path tenantId : String) (filename : Option String),
      (∃ error, Worker.index backend path data tenantId filename = .done (.error error)) ∨
      ∃ document, pipeline.document sha256 data = .ok document ∧
        Worker.index backend path data tenantId filename =
          backend.upsertDocument tenantId (storedName path filename) document

section Document
variable {pipelines : Set Pipeline} {sha256 : Bytes → String} {pipeline : Pipeline} {data : Bytes}

/-- Embedding changes neither the place nor the text of a passage. -/
theorem sliced_of_cited {page : Page} {first second : Chunk} (hSame : cited first = cited second)
    (h : SlicedFrom page second) : SlicedFrom page first := by
  have hCited : SlicedFrom page (cited second) := h
  rw [← hSame] at hCited
  exact hCited

/-- What a pipeline makes of an original are passages of it, for a row with its metadata. -/
theorem fromOriginal_of_document (hPipeline : pipeline ∈ pipelines) {document : Document}
    (h : pipeline.document sha256 data = .ok document) {row : DocumentRow}
    (hDigest : row.sha256 = document.sha256) (hKind : row.mediaType = document.mediaType)
    (hPages : row.pageCount = some document.pageCount) :
    ∀ chunk ∈ document.chunks, FromOriginal pipelines sha256 row chunk := by
  obtain ⟨extracted, analyzed, hExtracted, hAnalyzed, hEmbedded⟩ := Pipeline.document_ok h
  obtain ⟨hRead, -, -⟩ := extract_ok hExtracted
  obtain ⟨hDigest', hKind', hPages'⟩ := analyze_source hAnalyzed
  obtain ⟨hDigest'', hKind'', hPages'', -⟩ := embedDocument_source hEmbedded
  have original : Original pipelines sha256 row extracted := by
    refine ⟨⟨pipeline, hPipeline, data, ?_, hExtracted⟩, ?_, ?_⟩
    · rw [hDigest, hDigest'', hDigest', hRead]
    · rw [hKind, hKind'', hKind']
    · rw [hPages, ExtractedDocument.pageCount, hPages'', hPages', ExtractedDocument.pageCount]
  intro chunk hChunk
  have hCited : cited chunk ∈ analyzed.chunks.map cited := by
    rw [← (embedDocument_ok hEmbedded).1]
    exact List.mem_map_of_mem hChunk
  obtain ⟨first, hFirst, hSame⟩ := List.mem_map.mp hCited
  obtain ⟨page, hPage, hSliced⟩ := analyze_sliced hAnalyzed first hFirst
  exact ⟨extracted, original, page, hPage, sliced_of_cited hSame.symm hSliced⟩

end Document

section Steps
variable {pipelines : Set Pipeline} {sha256 : Bytes → String} {uuid5 : UUID → String → UUID}
  {dimension : Nat} {database after : Database}

/-- The digest, the kind and the number of pages of a document. -/
def content (row : DocumentRow) : String × MediaType × Option Nat :=
  (row.sha256, row.mediaType, row.pageCount)

theorem FromOriginal.congr {row later : DocumentRow} {chunk : Chunk}
    (h : FromOriginal pipelines sha256 row chunk) (hSame : content later = content row) :
    FromOriginal pipelines sha256 later chunk := by
  obtain ⟨extracted, original, hPassage⟩ := h
  obtain ⟨hDigest, hRest⟩ := Prod.mk.inj hSame
  obtain ⟨hKind, hPages⟩ := Prod.mk.inj hRest
  refine ⟨extracted, ⟨?_, hKind.trans original.mediaType, hPages.trans original.pageCount⟩, hPassage⟩
  rw [hDigest]
  exact original.read

/-- Documents that keep their content keep their passages. -/
theorem Sourced.documents (sourced : Sourced pipelines sha256 database)
    (hChunks : after.chunks = database.chunks)
    (hRows : ∀ row ∈ database.documents, ∃ later ∈ after.documents,
      later.ownerKey = row.ownerKey ∧ content later = content row) :
    Sourced pipelines sha256 after := by
  intro child hChild
  obtain ⟨row, hRow, hOwner, hFrom⟩ := sourced child (hChunks ▸ hChild)
  obtain ⟨later, hLater, hKey, hSame⟩ := hRows row hRow
  exact ⟨later, hLater, hKey.trans hOwner, hFrom.congr hSame⟩

theorem Sourced.markStatus (sourced : Sourced pipelines sha256 database) (tenantId : String)
    (documentId : UUID) (status : DocumentStatus) (error : Option String) :
    Sourced pipelines sha256 (database.markStatus tenantId documentId status error) := by
  apply sourced.documents
  · rfl
  · intro row hRow
    refine ⟨_, mem_updateWhere.mpr ⟨row, hRow, rfl⟩, ?_⟩
    split_ifs
    · exact ⟨rfl, rfl⟩
    · exact ⟨rfl, rfl⟩

theorem Sourced.register (sourced : Sourced pipelines sha256 database) (record : DocumentRow)
    (eventId : UUID) (event : DocumentUploaded) :
    Sourced pipelines sha256 (database.register record eventId event) := by
  unfold Database.register
  split
  · exact sourced
  · apply sourced.documents
    · rfl
    · exact fun row hRow => ⟨row, List.mem_append_left _ hRow, rfl, rfl⟩

/-- An upsert leaves every other document as it is. -/
theorem mem_upsertRow_other (unique : database.Unique) {record : DocumentRow} {now : Timestamp}
    {row : DocumentRow} (hRow : row ∈ database.documents)
    (hOther : row.ownerKey ≠ (Operation.outputRow database record now).ownerKey) :
    row ∈ (database.upsertRow record now).documents := by
  rw [Operation.outputRow] at hOther
  rw [Database.upsertRow]
  cases hFound : database.findByContent record.tenantId record.sha256 with
  | none => exact List.mem_append_left _ hRow
  | some found =>
      rw [hFound] at hOther
      obtain ⟨hMember, hKey⟩ := select_mem hFound
      refine mem_updateWhere.mpr ⟨row, hRow, ?_⟩
      by_cases hSame : row.contentKey = record.contentKey
      · have hFoundRow := unique.contents.eq_of_key hRow hMember (hSame.trans hKey.symm)
        exact absurd (by rw [hFoundRow]; rfl) hOther
      · exact (if_neg (by simpa using hSame)).symm

theorem content_outputRow (record : DocumentRow) (now : Timestamp) :
    content (Operation.outputRow database record now) = content record := by
  have hDigest : (Operation.outputRow database record now).sha256 = record.sha256 :=
    congrArg Prod.snd (contentKey_outputRow record now)
  rw [content, hDigest, Operation.outputRow]
  cases database.findByContent record.tenantId record.sha256 with
  | none => rfl
  | some found => rfl

/-- An upsert of what a pipeline has made replaces the passages of one document. -/
theorem Sourced.upsertDocument (sourced : Sourced pipelines sha256 database)
    (unique : database.Unique) {record : StoredDocument} {now : Timestamp}
    (hFrom : ∀ row, content row = content record.toDocumentRow →
      ∀ chunk ∈ record.chunks, FromOriginal pipelines sha256 row chunk) :
    Sourced pipelines sha256 (database.upsertDocument uuid5 record now) := by
  have hKey := @contentKey_outputRow database record.toDocumentRow now
  have hTenant : (Operation.outputRow database record.toDocumentRow now).tenantId =
      record.tenantId := congrArg Prod.fst hKey
  have hOutput := @outputRow_mem database record now
  have hChunks : (database.upsertRow record.toDocumentRow now).chunks = database.chunks := by
    unfold Database.upsertRow
    split <;> rfl
  rw [upsertDocument_eq, ← hTenant]
  intro child hChild
  rcases List.mem_append.mp hChild with hOld | hNew
  · obtain ⟨hStored, hKept⟩ := List.mem_filter.mp hOld
    obtain ⟨row, hRow, hOwner, hPassage⟩ := sourced child (hChunks ▸ hStored)
    have hOther : row.ownerKey ≠ (Operation.outputRow database record.toDocumentRow now).ownerKey := by
      rw [hOwner]
      intro hSame
      exact of_decide_eq_true hKept (Prod.mk.inj hSame)
    exact ⟨row, mem_upsertRow_other unique hRow hOther, hOwner, hPassage⟩
  · obtain ⟨hOwner, hOwner'⟩ := chunkRows_owner hNew
    refine ⟨_, hOutput, ?_, hFrom _ (content_outputRow _ _) child.chunk ?_⟩
    · rw [hOwner, hOwner']
      rfl
    · rw [← @chunkRows_chunk uuid5 _ _ record.chunks]
      exact List.mem_map_of_mem hNew

/-- No call of the repository loses where a passage is from. -/
theorem Sourced.call (sourced : Sourced pipelines sha256 database) (filed : Filed uuid5 database)
    {call : RepositoryCall} (h : Indexes pipelines sha256 database call) :
    Sourced pipelines sha256
      (PostgresRepository.repository uuid5 dimension database call).2 := by
  obtain ⟨request, fresh⟩ := call
  cases request with
  | findBySha256 | listDocuments | getDocument => exact sourced
  | registerUpload tenantId filename digest kind sizeBytes objectKey =>
      simp only [PostgresRepository.repository, PostgresRepository.registerUpload]
      split_ifs
      · exact sourced
      · split
        · exact sourced
        · split
          · exact sourced
          · exact sourced.register _ _ _
  | markStatus tenantId documentId status error =>
      simp only [PostgresRepository.repository, PostgresRepository.markStatus]
      split
      · exact sourced
      · split
        · exact sourced
        · exact sourced.markStatus _ _ _ _
  | replaceChunksAndEntities => exact h.2.elim
  | upsertDocument tenantId filename document =>
      obtain ⟨pipeline, hPipeline, data, hDocument⟩ := h.2
      simp only [PostgresRepository.repository, PostgresRepository.upsertDocument]
      split
      · exact sourced
      · rename_i record hPrepared
        split
        · exact sourced
        · have hRecord := prepareDocument_ok hPrepared
          apply sourced.upsertDocument filed.unique
          intro row hRow
          rw [hRecord] at hRow ⊢
          obtain ⟨hDigest, hRest⟩ := Prod.mk.inj hRow
          obtain ⟨hKind, hPages⟩ := Prod.mk.inj hRest
          exact fromOriginal_of_document hPipeline hDocument hDigest hKind hPages

end Steps

/-- A source quotes a page: it shows the slice between its offsets, with line ends as `\n`. -/
structure Quotes (page : Page) (shown : Source) : Prop where
  number : shown.page = page.number
  text : shown.text = slice page.text shown.charStart shown.charEnd
  lines : carriageReturn ∉ shown.text

section Query
variable {pipelines : Set Pipeline} {sha256 : Bytes → String} {uuid5 : UUID → String → UUID}
  {dimension : Nat}

theorem Original.page {row : DocumentRow} {extracted : ExtractedDocument}
    (original : Original pipelines sha256 row extracted) {page : Page}
    (hPage : page ∈ extracted.pages) :
    page.number ≤ extracted.pageCount ∧ carriageReturn ∉ page.text := by
  obtain ⟨pipeline, -, data, -, hExtracted⟩ := original.read
  obtain ⟨-, -, hPages⟩ := extract_ok hExtracted
  obtain ⟨index, hIndex, rfl⟩ := List.getElem_of_mem hPage
  have hFound := hPages.get (by rwa [hPages.length_eq]) hIndex
  simp only [List.get_eq_getElem, List.getElem_range'] at hFound
  constructor
  · rw [hFound.number, ExtractedDocument.pageCount]
    omega
  · rw [← hFound.normalized]
    exact carriageReturn_not_mem_normalize _

/-- After any calls that store output only as pipelines make it, as workers do that compute with
them, every source of every response quotes a page of an original of a document of the tenant,
and no later call takes this document away or changes its digest. -/
theorem cited_passages {calls : List RepositoryCall}
    (hCalls : Along (PostgresRepository.repository uuid5 dimension) (Indexes pipelines sha256)
      calls {})
    (service : QueryService) {tenant : String} (request : QueryRequest) {elapsed : ℚ}
    {program : Hosted QueryResponse}
    (hProgram : service.query tenant request
      (.ok (after (PostgresRepository.repository uuid5 dimension) calls {})) elapsed = .ok program)
    {made : List (Exchange HostedCall HostedCall.Response HostedError)} {response : QueryResponse}
    (hRun : program.Performs made (.ok response)) :
    (∀ pipeline ∈ pipelines, StoresOutput sha256 pipeline) ∧
    ∀ shown ∈ response.sources,
      ∃ row ∈ (after (PostgresRepository.repository uuid5 dimension) calls {}).documents,
        row.ownerKey = (tenant, shown.documentId) ∧
        (∃ extracted, Original pipelines sha256 row extracted ∧ ∃ page ∈ extracted.pages,
          Quotes page shown ∧ shown.page ≤ extracted.pageCount) ∧
        ∀ rest, ∃ later ∈ (after (PostgresRepository.repository uuid5 dimension) rest
            (after (PostgresRepository.repository uuid5 dimension) calls {})).documents,
          later.ownerKey = row.ownerKey ∧ later.sha256 = row.sha256 := by
  have hStores (pipeline : Pipeline) : StoresOutput sha256 pipeline := by
    intro Call Response backend data hDigest hCompute path tenantId filename
    subst hDigest
    exact Pipeline.index_stores hCompute path tenantId filename
  refine ⟨fun pipeline _ => hStores pipeline, ?_⟩
  have hStep (database : Database) (call : RepositoryCall)
      (kept : Filed uuid5 database ∧ Sourced pipelines sha256 database)
      (h : Indexes pipelines sha256 database call) :
      Filed uuid5 (PostgresRepository.repository uuid5 dimension database call).2 ∧
        Sourced pipelines sha256 (PostgresRepository.repository uuid5 dimension database call).2 :=
    ⟨kept.1.effect h.1 (repository_effect database call), kept.2.call kept.1 h⟩
  have hEmpty : Sourced pipelines sha256 {} := fun _ h => absurd h List.not_mem_nil
  have hKept := after_invariant hStep ⟨filed_empty, hEmpty⟩ hCalls
  obtain ⟨vector, hits, documents, hRetrieved, rfl⟩ := QueryService.query_cases hProgram
  obtain ⟨⟨-, hStored⟩, hDocuments⟩ := QueryService.retrieved_cases hRetrieved
  rcases Program.performs_bind hRun with ⟨error, -, hRaised⟩ | ⟨first, result, second, -, hDone, -⟩
  · cases hRaised
  · obtain ⟨-, hResponse⟩ := Program.performs_done.mp hDone
    cases hResponse
    intro shown hShown
    obtain ⟨hit, hHit, rfl⟩ := (QueryService.response_shows hDocuments).sources shown hShown
    obtain ⟨child, hChild, hTenant, -, hDocument, hChunk⟩ := hStored hit hHit
    obtain ⟨row, hRow, hOwner, extracted, original, page, hPage, hNumber, hText⟩ :=
      hKept.2 child hChild
    obtain ⟨hCount, hLines⟩ := original.page hPage
    refine ⟨row, hRow, ?_, ⟨extracted, original, page, hPage, ⟨?_, ?_, ?_⟩, ?_⟩, fun rest => ?_⟩
    · rw [hOwner, hTenant, ← hDocument]
      rfl
    · rw [QueryService.source, hChunk]
      exact hNumber
    · rw [QueryService.source, hChunk]
      exact hText
    · rw [QueryService.source, hChunk, hText]
      exact fun hMember => hLines (List.mem_of_mem_take (List.mem_of_mem_drop hMember))
    · rw [QueryService.source, hChunk, hNumber]
      exact hCount
    · obtain ⟨later, hLater, hSame⟩ := persists_after rest _ row hRow
      exact ⟨later, hLater, hSame.ownerKey, hSame.sha256⟩

end Query

/-- A scan whose page has next to no text layer. -/
def scanPipeline : Pipeline where
  library :=
    { pageCount := fun _ => .ok 1
      textLayer := fun _ _ => .ok (text " A \r\n")
      recognizePage := fun _ _ _ _ => .ok (text "\r\nA scan\r")
      recognizeImage := fun _ _ => .ok [] }
  extraction := {}
  settings :=
    { chunkTokens := 120, chunkOverlap := 24, valid_overlap := by decide
      chunkTokens_le := by decide }
  detector := ⟨fun _ => ⟨"en", 1⟩⟩
  ner := ⟨fun _ => []⟩
  tokenizer := letters
  spelling := id
  embedder := unitEmbedder

def scanBytes : Bytes := [0x25, 0x50, 0x44, 0x46, 0x2D]

def storeScan (document : Document) : RepositoryCall :=
  upsertCall "acme" "scan.pdf" document { identifier := ⟨1⟩, eventId := ⟨2⟩, now := 0 }

/-- The response to a question about the scan. -/
def answerFromScan (document : Document) : Option QueryResponse :=
  QueryService.sampleAnswer
    (after (PostgresRepository.repository shortIds 1) [storeScan document] {})

theorem cited_passages_scan :
    ∃ document response, scanPipeline.document (fun _ => "11") scanBytes = .ok document ∧
      answerFromScan document = some response ∧
      response.sources.map (fun shown => (shown.page, shown.charStart, shown.charEnd)) =
        [(1, 0, 6)] ∧
      ∀ shown ∈ response.sources, ∃ extracted page, page ∈ extracted.pages ∧ Quotes page shown ∧
        shown.page ≤ ExtractedDocument.pageCount extracted := by
  have hRun : (scanPipeline.document (fun _ => "11") scanBytes).toOption.bind (fun document =>
      (answerFromScan document).map fun response =>
        response.sources.map fun shown => (shown.page, shown.charStart, shown.charEnd)) =
      some [(1, 0, 6)] := by
    decide +kernel
  cases hDocument : scanPipeline.document (fun _ => "11") scanBytes with
  | error error =>
      rw [hDocument] at hRun
      cases hRun
  | ok document =>
      rw [hDocument] at hRun
      have hAnswered : (answerFromScan document).map (fun response =>
          response.sources.map fun shown => (shown.page, shown.charStart, shown.charEnd)) =
          some [(1, 0, 6)] := hRun
      obtain ⟨response, hAnswer, hSources⟩ := Option.map_eq_some_iff.mp hAnswered
      have hQuery := QueryService.query_of_sampleAnswer hAnswer
      have hIndexes : Along (PostgresRepository.repository shortIds 1)
          (Indexes {scanPipeline} fun _ => "11") [storeScan document] {} :=
        ⟨⟨fun _ h => absurd h List.not_mem_nil, scanPipeline, rfl, scanBytes, hDocument⟩, trivial⟩
      refine ⟨document, response, rfl, hAnswer, hSources, fun shown hShown => ?_⟩
      obtain ⟨row, -, -, ⟨extracted, -, page, hPage, hQuotes, hCount⟩, -⟩ :=
        (cited_passages hIndexes QueryService.sampleService QueryService.sampleQuestion hQuery
          (Program.performs_done.mpr ⟨rfl, rfl⟩)).2 shown hShown
      exact ⟨extracted, page, hPage, hQuotes, hCount⟩

end DocInsight.Query
