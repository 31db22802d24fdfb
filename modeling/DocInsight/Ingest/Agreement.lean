import DocInsight.Contracts.Encoding
import DocInsight.Ingest.Registration

/-! Producer and consumer agree on every upload: its event comes through all of its
representations, and its document and object still match it whenever a worker looks. -/
namespace DocInsight.Ingest

open DocInsight.Contracts DocInsight.Worker DocInsight.Storage Interaction Table

/-- An event as a worker reads it: out of the outbox payload, revalidated by the relay,
published with the relay's trace parent, and validated again. -/
def delivered (codec : Codec) (newId : UUID) (now : Timestamp) (traceparent : Option String)
    (event : DocumentUploaded) : Option WorkerEvent := do
  let published ← DocumentUploaded.modelValidate codec newId now (event.modelDump codec)
  WorkerEvent.modelValidate codec
    (({ published with traceparent } : DocumentUploaded).streamFields codec)

/-- An event whose key is the one of its tenant and digest comes through unchanged, but for
its trace parent. -/
theorem delivered_eq {codec : Codec} (lawful : codec.Lawful) (newId : UUID) (now : Timestamp)
    (traceparent : Option String) {event : DocumentUploaded}
    (hKey : event.objectKey = contentObjectKey event.tenantId event.sha256) :
    delivered codec newId now traceparent event =
      some { event with traceparent, valid_key := hKey } := by
  rw [delivered, DocumentUploaded.modelValidate_modelDump lawful]
  exact WorkerEvent.modelValidate_streamFields lawful
    { event with traceparent, valid_key := hKey }

/-- The server as a worker finds it, and what is left to read of an opened object. -/
structure Session where
  server : Server
  unread : List Bytes := []

/-- Calls answered without failures. An object is read in the fragments that the store
makes of it. -/
def serve (choice : Choice) (fragments : Bytes → List Bytes) (session : Session) :
    (request : Storage.Call) → Except Failure (Response request) × Session
  | .outside (.openObject key) =>
      match session.server.objects key with
      | some data => (.ok (), { session with unread := fragments data })
      | none => (.error .key, session)
  | .outside .readObject =>
      match session.unread with
      | [] => (.ok [], session)
      | block :: rest => (.ok block, { session with unread := rest })
  | request =>
      match session.server.perform 0 request choice with
      | some (answer, server) => (answer, { session with server })
      | none => (.error .timeout, session)

/-- The operations on the document of a call that are made of the same bytes: duplicate
uploads, status changes, and upserts by workers or CLI runs. -/
def OnDocument {library : MultipartLibrary} (hexdigest : Bytes → String)
    (call : UploadCall library) : Operation → Prop
  | .register record _ => record.contentKey = (call.tenant, call.digest hexdigest)
  | .status _ _ _ _ => True
  | .output record _ => ∃ filename document id created,
      prepareDocument call.tenant filename document id created = .ok record ∧
        document.sha256 = call.digest hexdigest ∧
        mediaType call.content = .ok document.mediaType

variable {library : MultipartLibrary} {hexdigest : Bytes → String} {call : UploadCall library}

/-- A document of the call, as it lives on. -/
structure Continued (call : UploadCall library) (row : DocumentRow) (database : Database)
    (later : DocumentRow) : Prop where
  mem : later ∈ database.documents
  same : SameIdentity row later
  mediaType : mediaType call.content = .ok later.mediaType

theorem Continued.apply {uuid5 : UUID → String → UUID} {database : Database}
    {row current : DocumentRow} {operation : Operation} (unique : database.Unique)
    (continued : Continued call row database current)
    (hContent : row.contentKey = (call.tenant, call.digest hexdigest))
    (hOperation : OnDocument hexdigest call operation) :
    (operation.apply uuid5 database).Unique ∧
      ∃ later, Continued call row (operation.apply uuid5 database) later := by
  have hKey : current.contentKey = (call.tenant, call.digest hexdigest) :=
    continued.same.contentKey.trans hContent
  have hFound {record : DocumentRow}
      (hRecord : record.contentKey = (call.tenant, call.digest hexdigest)) :
      database.findByContent record.tenantId record.sha256 = some current := by
    refine unique.contents.select_eq_some.mpr ⟨continued.mem, hKey.trans ?_⟩
    exact hRecord.symm
  cases operation with
  | register record event =>
      rw [Operation.apply, Database.register, hFound hOperation]
      exact ⟨unique, current, continued⟩
  | status tenantId documentId next error =>
      refine ⟨unique.markStatus tenantId documentId next error, _,
        mem_updateWhere.mpr ⟨current, continued.mem, rfl⟩, ?_, ?_⟩
      · split_ifs
        · exact continued.same.trans (sameIdentity_statusRow next error current)
        · exact continued.same
      · split_ifs
        · exact continued.mediaType
        · exact continued.mediaType
  | output record now =>
      obtain ⟨filename, document, id, created, hPrepare, hDigest, hKind⟩ := hOperation
      have hPrepared := prepareDocument_ok hPrepare
      have hRecord : record.contentKey = (call.tenant, call.digest hexdigest) := by
        rw [hPrepared, DocumentRow.contentKey, hDigest]
      have hAbsent : database.findByContent record.tenantId record.sha256 ≠ none := by
        rw [hFound hRecord]
        exact Option.some_ne_none current
      refine ⟨unique.upsertDocument uuid5 now fun hNone => absurd hNone hAbsent, ?_⟩
      refine ⟨replacedRow record.toDocumentRow now current, ?_, ?_, ?_⟩
      · have hStored := Database.findByContent_upsertDocument database uuid5 record now
        rw [hFound hRecord] at hStored
        exact (select_mem hStored).1
      · exact continued.same.trans (sameIdentity_replacedRow record.toDocumentRow now current)
      · rw [hKind, hPrepared]
        rfl

/-- The document lives on through every sequence of such operations. -/
theorem Continued.foldl {uuid5 : UUID → String → UUID} {operations : List Operation}
    {database : Database} {row current : DocumentRow} (unique : database.Unique)
    (continued : Continued call row database current)
    (hContent : row.contentKey = (call.tenant, call.digest hexdigest))
    (hOperations : ∀ operation ∈ operations, OnDocument hexdigest call operation) :
    (operations.foldl (Operation.apply uuid5) database).Unique ∧
      ∃ later, Continued call row (operations.foldl (Operation.apply uuid5) database) later := by
  induction operations generalizing database current with
  | nil => exact ⟨unique, current, continued⟩
  | cons operation rest ih =>
      obtain ⟨hUnique, next, hNext⟩ := @Continued.apply _ _ _ uuid5 _ _ _ _ unique continued
        hContent (hOperations operation (List.mem_cons_self ..))
      exact ih hUnique hNext fun other hOther =>
        hOperations other (List.mem_cons_of_mem _ hOther)

section Worker
variable {choice : Choice} {fragments : Bytes → List Bytes} {server : Server}
  {uuid5 : UUID → String → UUID} {dimension : Nat} {event : WorkerEvent}

/-- A snapshot of an idle connection reads the committed document. -/
theorem interpret_getDocument (hFailure : choice.failure = none)
    (hIdle : server.transactions 0 = []) (tenantId : String) (documentId : UUID) :
    ((getDocument tenantId documentId).interpret (serve choice fragments) { server }).1 =
      .ok (server.committed.getDocument tenantId documentId) := by
  have hBlocked : server.blocked 0 [] = false := by
    simp [Server.blocked]
  simp [getDocument, Program.tryFinally, Program.interpret, Program.bind, Program.andThen,
    Storage.perform, Storage.execute, Program.perform, serve, Server.perform, hFailure,
    Statement.execute, Server.view, hIdle, applyAll, hBlocked]

/-- A lookup accepts the event of a document that lives on. -/
theorem interpret_lookup (hFailure : choice.failure = none)
    (hIdle : server.transactions 0 = []) {row : DocumentRow}
    (hFound : server.committed.findById event.tenantId event.documentId = some row)
    (hDescribes : Describes event row) :
    ∃ document, document.toDocumentRow = row ∧
      ((lookup (backend uuid5 dimension hexdigest) event).interpret (serve choice fragments)
        { server }).1 = .ok document := by
  obtain ⟨document, rfl, hDocument⟩ : ∃ document, document.toDocumentRow = row ∧
      server.committed.getDocument event.tenantId event.documentId = some document := by
    rw [Database.getDocument, hFound]
    exact ⟨_, rfl, rfl⟩
  refine ⟨document, rfl, ?_⟩
  rw [lookup, Program.bind_eq, Program.bind, Program.interpret_andThen]
  simp only [backend]
  rw [interpret_getDocument hFailure hIdle, hDocument]
  simp only
  rw [if_pos hDescribes]
  rfl

/-- Fragments that are not empty are read one after the other, up to the end of the object. -/
theorem interpret_readObject {reads : Nat} {data : Bytes} {unread : List Bytes}
    (hReads : unread.length < reads) (hBlocks : [] ∉ unread)
    (hSize : (data ++ unread.flatten).length ≤ event.sizeBytes) :
    (readObject (backend uuid5 dimension hexdigest) event reads data).interpret
      (serve choice fragments) { server, unread } = (.ok (data ++ unread.flatten), { server }) := by
  induction unread generalizing reads data with
  | nil =>
      cases reads with
      | zero => exact absurd hReads (Nat.not_lt_zero _)
      | succ reads =>
          simp [readObject, backend, Storage.perform, Program.perform, Program.bind,
            Program.andThen, Program.interpret, serve]
  | cons block rest ih =>
      cases reads with
      | zero => exact absurd hReads (Nat.not_lt_zero _)
      | succ reads =>
          have hBlock : block.isEmpty = false := by
            cases block with
            | nil => exact absurd (List.mem_cons_self ..) hBlocks
            | cons byte block => rfl
          rw [List.flatten_cons, ← List.append_assoc] at hSize
          have hMore : ¬ event.sizeBytes < (data ++ block).length := by
            rw [List.length_append] at hSize
            omega
          have hRest : [] ∉ rest := fun h => hBlocks (List.mem_cons_of_mem _ h)
          rw [List.flatten_cons, ← List.append_assoc,
            ← ih (Nat.lt_of_succ_lt_succ hReads) hRest hSize]
          change (if block.isEmpty then _ else if event.sizeBytes < (data ++ block).length
            then _ else _ : Procedure Bytes).interpret _ _ = _
          rw [if_neg (ne_true_of_eq_false hBlock), if_neg hMore]
          rfl

/-- An object in fragments that are not empty has at most as many of them as bytes. -/
theorem length_le_flatten {blocks : List Bytes} (hBlocks : [] ∉ blocks) :
    blocks.length ≤ blocks.flatten.length := by
  induction blocks with
  | nil => exact Nat.le_refl 0
  | cons block rest ih =>
      have hBlock : block ≠ [] := fun h => hBlocks (h ▸ List.mem_cons_self ..)
      have hRest := ih fun h => hBlocks (List.mem_cons_of_mem _ h)
      have hPositive := List.length_pos_iff.mpr hBlock
      rw [List.length_cons, List.flatten_cons, List.length_append]
      omega

/-- A download of the bytes of an event succeeds, in whatever fragments it reads them. -/
theorem interpret_download {data : Bytes} (hObject : server.objects event.objectKey = some data)
    (hFragments : (fragments data).flatten = data) (hBlocks : [] ∉ fragments data)
    (hSize : data.length = event.sizeBytes) (hDigest : hexdigest data = event.sha256)
    (hKind : mediaType data = .ok event.mediaType) :
    ((download (backend uuid5 dimension hexdigest) event).interpret (serve choice fragments)
      { server }).1 = .ok data := by
  have hRead : (readObject (backend uuid5 dimension hexdigest) event (event.sizeBytes + 1)
      []).interpret (serve choice fragments) { server, unread := fragments data } =
        (.ok data, { server }) := by
    have hCount := length_le_flatten hBlocks
    rw [hFragments] at hCount
    rw [interpret_readObject (by omega) hBlocks, hFragments, List.nil_append]
    rw [hFragments, List.nil_append, hSize]
  have hOpen : ((backend uuid5 dimension hexdigest).outside (.openObject event.objectKey)).interpret
      (serve choice fragments) { server } = (.ok (), { server, unread := fragments data }) := by
    simp [backend, Storage.perform, Program.perform, Program.interpret, serve, hObject]
  rw [download, Program.bind_eq, Program.bind, Program.interpret_andThen, Program.tryCatch,
    Program.interpret_andThen, Program.bind_eq, Program.interpret_bind_ok hOpen, hRead]
  have hMatches : ¬ (data.length ≠ event.sizeBytes ∨
      (backend uuid5 dimension hexdigest).sha256 data ≠ event.sha256) := by
    rintro (hOther | hOther)
    · exact hOther hSize
    · exact hOther hDigest
  simp only [Program.interpret]
  rw [if_neg hMatches, mediaType_take, hKind]
  simp [Program.interpret]

end Worker

variable {calls : Nat → UploadCall library}

/-- What is registered for a call is the document of its own bytes, with its object. -/
theorem content_of_located (lawful : library.Lawful) {server : Server}
    (serialized : Serialized (registrations hexdigest calls) server) {call : Nat}
    (hSame : ∀ other, (calls other).key hexdigest = (calls call).key hexdigest →
      (calls other).content = (calls call).content)
    {row : DocumentRow} (hRow : row ∈ server.committed.documents)
    (hContent : row.contentKey = ((calls call).tenant, (calls call).digest hexdigest)) :
    row.objectKey = some ((calls call).key hexdigest) ∧
      row.sizeBytes = some (calls call).content.length ∧
      mediaType (calls call).content = .ok row.mediaType ∧
      server.objects ((calls call).key hexdigest) = some (calls call).content := by
  obtain ⟨owner, other, records, hOther, hObject⟩ := object_of_record serialized hRow
  have hKey : (calls owner).key hexdigest = (calls call).key hexdigest := by
    obtain ⟨hTenant, hDigest⟩ := Prod.mk.inj hContent
    rw [UploadCall.key, ← records.tenantId, ← records.sha256, hTenant, hDigest, UploadCall.key]
  have hBytes (call : Nat) : (calls call).upload.target.take (calls call).upload.size =
      (calls call).content := by
    rw [UploadBody.size_read lawful (calls call).read_ok, List.take_length, UploadCall.content]
  rw [hKey, hBytes, hSame other (hOther.trans hKey)] at hObject
  refine ⟨records.objectKey.trans (congrArg some hKey), ?_, ?_, hObject⟩
  · rw [records.sizeBytes, UploadBody.size_read lawful (calls owner).read_ok, ← UploadCall.content,
      hSame owner hKey]
  · rw [← hSame owner hKey, ← mediaType_take, UploadCall.content,
      ← (UploadBody.accurate_read (calls owner).read_ok).leading]
    exact records.mediaType

/-- Every accepted upload has an event that workers accept as it was written, and whatever
is then done to its document with the same bytes, they find it as the event describes it
and can download it. -/
theorem producer_consumer_agree {codec : Codec} (lawful : codec.Lawful)
    (hLibrary : library.Lawful) {moves : List (Action Nat Choice Empty)} {reached : IngestPool}
    (hRun : Transition.run (Pool.step environment) moves (start hexdigest calls) = some reached)
    {call : Nat} {receipt : Receipt}
    (hCall : reached.programs call = some (.done (.ok receipt)))
    (hSame : ∀ other, (calls other).key hexdigest = (calls call).key hexdigest →
      (calls other).content = (calls call).content) :
    ∃ row ∈ reached.state.committed.outbox, row.payload.documentId = receipt.documentId ∧
      ∀ newId now traceparent, ∃ event : WorkerEvent,
        delivered codec newId now traceparent row.payload = some event ∧
        event.toDocumentUploaded = { row.payload with traceparent } ∧
        ∀ uuid5 (operations : List Operation), (∀ operation ∈ operations,
          OnDocument hexdigest (calls call) operation) →
        ∀ dimension choice fragments, choice.failure = none →
          (fragments (calls call).content).flatten = (calls call).content →
          [] ∉ fragments (calls call).content →
          let server : Server :=
            { committed := operations.foldl (Operation.apply uuid5) reached.state.committed
              objects := reached.state.objects }
          (∃ document, ((lookup (backend uuid5 dimension hexdigest) event).interpret
            (serve choice fragments) { server }).1 = .ok document) ∧
          ((download (backend uuid5 dimension hexdigest) event).interpret
            (serve choice fragments) { server }).1 = .ok (calls call).content := by
  obtain ⟨hSafe, _⟩ := steady_run Registered.undisturbed (start_safe hexdigest calls) hRun
  obtain ⟨row, hRow, hTenant, hDigest, hId⟩ := hSafe.2 call _ hCall
  have hContent : row.contentKey = ((calls call).tenant, (calls call).digest hexdigest) :=
    Prod.ext hTenant hDigest
  obtain ⟨hKey, hSize, hKind, hObject⟩ :=
    content_of_located hLibrary hSafe.1 hSame hRow hContent
  obtain ⟨stored, hStored, ⟨_, _, announces⟩⟩ :=
    (oneDocumentOneEvent_of_serialized hSafe.1).event row hRow
  have hOutbox : stored ∈ reached.state.committed.outbox := by
    have hMem : stored ∈ reached.state.committed.outbox.filter
        (fun event => event.aggregateId = row.id) := by
      rw [hStored]
      exact List.mem_singleton_self stored
    exact (List.mem_filter.mp hMem).1
  have hPayloadKey : stored.payload.objectKey = (calls call).key hexdigest :=
    Option.some.inj (announces.objectKey.symm.trans hKey)
  have hValid : stored.payload.objectKey =
      contentObjectKey stored.payload.tenantId stored.payload.sha256 := by
    rw [hPayloadKey, UploadCall.key, announces.tenantId, announces.sha256, hTenant, hDigest]
  refine ⟨stored, hOutbox, announces.documentId.trans hId, fun newId now traceparent => ?_⟩
  refine ⟨_, delivered_eq lawful newId now traceparent hValid, rfl, ?_⟩
  intro uuid5 operations hOperations dimension choice fragments hFailure hFragments hBlocks
  have unique := hSafe.1.legal.unique
  rw [← hSafe.1.replayed] at unique
  -- The document lives on with the metadata that the event describes.
  obtain ⟨hUnique, later, continued⟩ := @Continued.foldl _ _ _ uuid5 operations _ row row unique
    ⟨hRow, SameIdentity.refl row, hKind⟩ hContent hOperations
  have same := continued.same
  have hLaterKind : later.mediaType = row.mediaType :=
    Except.ok.inj (continued.mediaType.symm.trans hKind)
  constructor
  · have hFound := hUnique.findById continued.mem
    rw [same.tenantId, same.id, ← announces.tenantId, ← announces.documentId] at hFound
    obtain ⟨document, _, hLookup⟩ := @interpret_lookup hexdigest choice fragments
      { committed := operations.foldl (Operation.apply uuid5) reached.state.committed
        objects := reached.state.objects } uuid5 dimension
      { stored.payload with traceparent, valid_key := hValid } hFailure rfl later hFound
      ⟨same.sha256.trans announces.sha256.symm, same.objectKey.trans announces.objectKey,
        hLaterKind.trans announces.mediaType.symm, same.sizeBytes.trans announces.sizeBytes⟩
    exact ⟨document, hLookup⟩
  · apply interpret_download
    · rw [hPayloadKey]
      exact hObject
    · exact hFragments
    · exact hBlocks
    · exact Option.some.inj (hSize.symm.trans announces.sizeBytes)
    · rw [announces.sha256, hDigest, UploadCall.digest, UploadCall.content,
        (UploadBody.accurate_read (calls call).read_ok).digest]
    · rw [hKind, announces.mediaType]

/-- What a worker makes of the file. -/
def formDocument : Document where
  sha256 := formDigest
  mediaType := .pdf
  pages := []
  chunks := []
  entities := []
  embedModel := some "e5"
  embedDimension := some 4

def formRecord : StoredDocument where
  id := ⟨7⟩
  tenantId := "acme"
  filename := "a.pdf"
  sha256 := formDigest
  mediaType := .pdf
  pageCount := formDocument.pageCount
  language := formDocument.language
  pipelineVersion := formDocument.pipelineVersion
  embedModel := some "e5"
  createdAt := 5
  processedAt := some 5

def formOperations : List Operation :=
  [.status "acme" ⟨1⟩ .processing none, .output formRecord 6, .status "acme" ⟨1⟩ .processed none]

def bytewise (data : Bytes) : List Bytes := data.map fun byte => [byte]

/-- The upload of the race, marked, indexed by a worker, and read byte by byte. -/
theorem producer_consumer_agree_racing :
    ∃ reached receipt row event, Transition.run (Pool.step environment) racingMoves
        (start (fun _ => formDigest) formCalls) = some reached ∧
      reached.programs 1 = some (.done (.ok receipt)) ∧
      row ∈ reached.state.committed.outbox ∧ row.payload.documentId = receipt.documentId ∧
      delivered libraryCodec ⟨9⟩ 9 none row.payload = some event ∧
      let server : Server :=
        { committed := formOperations.foldl (Operation.apply fun id _ => id)
            reached.state.committed
          objects := reached.state.objects }
      (∃ document, ((lookup (backend (fun id _ => id) 4 fun _ => formDigest) event).interpret
        (serve (giving 0) bytewise) { server }).1 = .ok document) ∧
      ((download (backend (fun id _ => id) 4 fun _ => formDigest) event).interpret
        (serve (giving 0) bytewise) { server }).1 = .ok (ascii "%PDF-") := by
  have hRun : (Transition.run (Pool.step environment) racingMoves
      (start (fun _ => formDigest) formCalls)).map (outcomeOf · 1) =
      some (some (.ok ⟨⟨1⟩, formDigest, .stored .uploaded⟩)) := by decide +kernel
  obtain ⟨reached, hReached, hOutcome⟩ := Option.map_eq_some_iff.mp hRun
  have hCall := programs_of_outcome hOutcome
  obtain ⟨row, hRow, hDocument, hDelivered⟩ := producer_consumer_agree libraryCodec_lawful
    formLibrary_lawful hReached hCall fun _ _ => rfl
  obtain ⟨event, hEvent, _, hFound⟩ := hDelivered ⟨9⟩ 9 none
  have hOperations : ∀ operation ∈ formOperations,
      OnDocument (fun _ => formDigest) (formCalls 1) operation := by
    intro operation hOperation
    simp only [formOperations, List.mem_cons, List.not_mem_nil, or_false] at hOperation
    rcases hOperation with rfl | rfl | rfl
    · trivial
    · exact ⟨"a.pdf", formDocument, ⟨7⟩, 5, rfl, rfl, rfl⟩
    · trivial
  exact ⟨reached, _, row, event, hReached, hCall, hRow, hDocument, hEvent,
    hFound _ _ hOperations 4 (giving 0) bytewise rfl (by decide) (by decide)⟩

end DocInsight.Ingest
