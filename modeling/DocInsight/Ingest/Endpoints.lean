import DocInsight.Gateway.Proxy
import DocInsight.Gateway.Upstreams
import DocInsight.Ingest.Upload
import DocInsight.Library.Traces
import DocInsight.Storage.Confinement
import DocInsight.Worker.QueryRepository

/-! The ingest service's internal, tenant-scoped HTTP API; credentials are verified by the
gateway. -/
namespace DocInsight.Ingest

open DocInsight.Contracts DocInsight.Python DocInsight.Worker DocInsight.Storage Interaction

/-- What a request fails with, as far as its handler tells exceptions apart. -/
inductive RequestError where
  | http (status : Nat) (detail : String)
  | unsupportedMediaType
  | multipart
  | validation
  | raised
  deriving DecidableEq, Repr

def UploadError.requestError : UploadError → RequestError
  | .http status detail => .http status detail
  | .multipart => .multipart

def requestError : Failure → RequestError
  | .value "UnsupportedMediaType" => .unsupportedMediaType
  | _ => .raised

def failed (status : Nat) (message : String) : Gateway.Response :=
  Gateway.error status (toString status) message

def errorResponse : RequestError → Gateway.Response
  | .http status detail => failed status detail
  | .unsupportedMediaType => failed 415 "Expected PDF, PNG, JPEG or TIFF bytes"
  | .multipart => failed 400 "Invalid multipart upload"
  | .validation => failed 422 "Invalid request"
  | .raised => failed 503 "Service dependency unavailable"

/-- `request.headers.get(name, "")` -/
def header (headers : Gateway.Headers) (name : String) : Text :=
  ((headers.getlist name).head?).getD []

def tenant (headers : Gateway.Headers) : Except RequestError String :=
  let value := Gateway.asString (header headers "x-tenant-id")
  if validTenant value then .ok value
  else .error (.http 400 "A valid X-Tenant-Id is required")

/-- The application: its limit and digest, its libraries, and how they write identifiers
and times. -/
structure IngestApp where
  maxUploadBytes : Nat := 50 * 1024 * 1024
  sha256 : Bytes → String
  multipart : MultipartLibrary
  json : Gateway.JsonLibrary
  uuid : UUID → String
  timestamp : Timestamp → String

def statusText : DocumentStatus → String
  | .uploaded => "uploaded"
  | .processing => "processing"
  | .processed => "processed"
  | .failed => "failed"

def nullable {Value : Type} (write : Value → Json) : Option Value → Json
  | none => .null
  | some value => write value

def string (value : String) : Json := .str (text value)

namespace IngestApp
variable (app : IngestApp)

def receipt (receipt : Receipt) : Json :=
  .dict [(text "document_id", string (app.uuid receipt.documentId)),
    (text "sha256", string receipt.sha256),
    (text "status", match receipt.status with
      | .duplicate => string "duplicate"
      | .stored status => string (statusText status))]

/-- What is told of one document. -/
def record (record : StoredDocument) : Json :=
  .dict [(text "document_id", string (app.uuid record.id)),
    (text "filename", string record.filename),
    (text "page_count", nullable (fun count => .int (Int.ofNat count)) record.pageCount),
    (text "language", nullable string record.language),
    (text "status", string (statusText record.status)),
    (text "pipeline_version", nullable string record.pipelineVersion),
    (text "error", nullable string record.error),
    (text "created_at", string (app.timestamp record.createdAt)),
    (text "processed_at", nullable (fun time => string (app.timestamp time)) record.processedAt)]

/-- What is told of a document in a listing. -/
def listed (record : StoredDocument) : Json :=
  .dict [(text "id", string (app.uuid record.id)),
    (text "filename", string record.filename),
    (text "page_count", nullable (fun count => .int (Int.ofNat count)) record.pageCount),
    (text "language", nullable string record.language),
    (text "status", string (statusText record.status)),
    (text "size_bytes", nullable (fun size => .int (Int.ofNat size)) record.sizeBytes),
    (text "error", nullable string record.error),
    (text "created_at", string (app.timestamp record.createdAt)),
    (text "processed_at", nullable (fun time => string (app.timestamp time)) record.processedAt)]

/-- A result as a response; what cannot be written is a failure as any other. -/
def answer (status : Nat) (content : Json) : Gateway.Response :=
  match Gateway.jsonResponse app.json content status with
  | .ok response => response
  | .error _ => errorResponse .raised

/-- Read an upload within its bounds, then store and register it for its tenant. -/
def ingest (headers : Gateway.Headers) (blocks : List Bytes) : Procedure Gateway.Response :=
  match tenant headers with
  | .error error => pure (errorResponse error)
  | .ok owner =>
      let contentType := (header headers "content-type").map fun character =>
        UInt8.ofNat character.val
      match UploadBody.read app.multipart app.maxUploadBytes contentType blocks with
      | .error error => pure (errorResponse error.requestError)
      | .ok upload =>
          (register app.sha256 owner upload).andThen fun
            | .error failure => pure (errorResponse (requestError failure))
            | .ok stored => pure (app.answer 202 (app.receipt stored))

/-- One document; a path that names none is no valid request. -/
def document (headers : Gateway.Headers) (documentId : Option UUID)
    (opened : Except Failure Database) : Gateway.Response :=
  match documentId with
  | none => errorResponse .validation
  | some documentId =>
      match tenant headers with
      | .error error => errorResponse error
      | .ok owner =>
          match opened with
          | .error failure => errorResponse (requestError failure)
          | .ok database =>
              match database.getDocument owner documentId with
              | none => errorResponse (.http 404 "Document not found")
              | some record => app.answer 200 (app.record record)

/-- A page of the tenant's documents; a parameter that is no number is no valid request. -/
def documents (headers : Gateway.Headers) (limit offset : Option Int)
    (opened : Except Failure Database) : Gateway.Response :=
  match limit, offset with
  | some limit, some offset =>
      if 1 ≤ limit ∧ limit ≤ 100 ∧ 0 ≤ offset then
        match tenant headers with
        | .error error => errorResponse error
        | .ok owner =>
            match opened with
            | .error failure => errorResponse (requestError failure)
            | .ok database =>
                match listDocuments owner limit offset database with
                | .error failure => errorResponse (requestError failure)
                | .ok rows =>
                    app.answer 200 (.dict [(text "items", .list (rows.map app.listed)),
                      (text "limit", .int limit), (text "offset", .int offset)])
      else errorResponse .validation
  | _, _ => errorResponse .validation

end IngestApp

/-- An error that is told of an upload: a client's, in a few words. -/
def RequestError.Told : RequestError → Prop
  | .http status detail => (status = 400 ∨ status = 404 ∨ status = 413) ∧
      (text detail).length ≤ 1024
  | _ => True

section Served

theorem served_errorResponse {error : RequestError} (told : error.Told) :
    Gateway.Served (errorResponse error) := by
  cases error with
  | http status detail =>
      obtain ⟨rfl | rfl | rfl, hDetail⟩ := told
      · exact .error (by decide) (by decide) hDetail
      · exact .error (by decide) (by decide) hDetail
      · exact .error (by decide) (by decide) hDetail
  | unsupportedMediaType => exact .error (by decide) (by decide) (by decide)
  | multipart => exact .error (by decide) (by decide) (by decide)
  | validation => exact .error (by decide) (by decide) (by decide)
  | raised => exact .error (by decide) (by decide) (by decide)

theorem told_tenant {headers : Gateway.Headers} {error : RequestError}
    (h : tenant headers = .error error) : error.Told := by
  simp only [tenant] at h
  split_ifs at h
  cases h
  exact ⟨Or.inl rfl, by decide⟩

theorem told_requestError (failure : Failure) : (requestError failure).Told := by
  unfold requestError
  split <;> trivial

variable (app : IngestApp)

theorem served_answer {status : Nat} (hLow : 200 ≤ status) (hHigh : status < 300) (content : Json) :
    Gateway.Served (app.answer status content) := by
  unfold IngestApp.answer Gateway.jsonResponse
  cases hBody : Gateway.encode (content.dumps (.compact app.json.float)) with
  | error raised => exact served_errorResponse trivial
  | ok body => exact .success hLow hHigh

theorem served_document (headers : Gateway.Headers) (documentId : Option UUID)
    (opened : Except Failure Database) : Gateway.Served (app.document headers documentId opened) := by
  unfold IngestApp.document
  split
  · exact served_errorResponse trivial
  · split
    · rename_i error hTenant
      exact served_errorResponse (told_tenant hTenant)
    · split
      · exact served_errorResponse (told_requestError _)
      · split
        · exact served_errorResponse ⟨Or.inr (Or.inl rfl), by decide⟩
        · exact served_answer app (by decide) (by decide) _

theorem served_documents (headers : Gateway.Headers) (limit offset : Option Int)
    (opened : Except Failure Database) :
    Gateway.Served (app.documents headers limit offset opened) := by
  unfold IngestApp.documents
  split
  · split_ifs
    · split
      · rename_i error hTenant
        exact served_errorResponse (told_tenant hTenant)
      · split
        · exact served_errorResponse (told_requestError _)
        · split
          · exact served_errorResponse (told_requestError _)
          · exact served_answer app (by decide) (by decide) _
    · exact served_errorResponse trivial
  · exact served_errorResponse trivial

/-- What a callback rejects, it tells in a few words. -/
theorem told_callback {library : MultipartLibrary} {body : UploadBody} {call : Callback}
    {error : UploadError} (h : body.callback library call = .error error) :
    error.requestError.Told := by
  cases call with
  | partBegin =>
      simp only [UploadBody.callback, UploadBody.partBegin] at h
      split_ifs at h
      cases h
      exact ⟨Or.inl rfl, by decide⟩
  | headerField data start stop =>
      simp only [UploadBody.callback, UploadBody.headerField, UploadBody.boundHeaders] at h
      split_ifs at h
      cases h
      exact ⟨Or.inl rfl, by decide⟩
  | headerValue data start stop =>
      simp only [UploadBody.callback, UploadBody.headerValue, UploadBody.boundHeaders] at h
      split_ifs at h
      cases h
      exact ⟨Or.inl rfl, by decide⟩
  | headerEnd =>
      simp only [UploadBody.callback, UploadBody.headerEnd] at h
      split_ifs at h
      cases h
      exact ⟨Or.inl rfl, by decide⟩
  | headersFinished =>
      simp only [UploadBody.callback, UploadBody.headersFinished] at h
      split at h
      · cases h
      · cases h
        exact ⟨Or.inl rfl, by decide⟩
  | partData data start stop =>
      simp only [UploadBody.callback, UploadBody.partData] at h
      split_ifs at h
      cases h
      exact ⟨Or.inr (Or.inr rfl), by decide⟩
  | finish => cases h

theorem told_callbacks {library : MultipartLibrary} {body : UploadBody} {calls : List Callback}
    {error : UploadError} (h : calls.foldlM (UploadBody.callback library) body = .error error) :
    error.requestError.Told := by
  induction calls generalizing body with
  | nil => cases h
  | cons call rest ih =>
      rw [List.foldlM_cons] at h
      cases hCall : body.callback library call with
      | error failure =>
          rw [hCall] at h
          cases h
          exact told_callback hCall
      | ok next =>
          rw [hCall] at h
          exact ih h

theorem told_readBlocks {library : MultipartLibrary} {blocks : List Bytes} {total : Nat}
    {parser : library.Parser} {body : UploadBody} {error : UploadError}
    (h : UploadBody.readBlocks library blocks total parser body = .error error) :
    error.requestError.Told := by
  induction blocks generalizing total parser body with
  | nil => cases h
  | cons block rest ih =>
      simp only [UploadBody.readBlocks] at h
      split_ifs at h
      · cases h
        exact ⟨Or.inr (Or.inr rfl), by decide⟩
      · cases hCalls : (library.write parser block).1.foldlM (UploadBody.callback library) body with
        | error failure =>
            rw [hCalls] at h
            cases h
            exact told_callbacks hCalls
        | ok next =>
            rw [hCalls] at h
            cases hParser : (library.write parser block).2 with
            | none =>
                rw [hParser] at h
                cases h
                trivial
            | some parser =>
                rw [hParser] at h
                exact ih h

theorem told_read {library : MultipartLibrary} {limit : Nat} {contentType : Bytes}
    {blocks : List Bytes} {error : UploadError}
    (h : UploadBody.read library limit contentType blocks = .error error) :
    error.requestError.Told := by
  simp only [UploadBody.read] at h
  split_ifs at h
  · cases h
    exact ⟨Or.inl rfl, by decide⟩
  · cases hBlocks : UploadBody.readBlocks library blocks 0
        (library.new (((library.parseOptions contentType).2.lookup (ascii "boundary")).getD []))
        { limit } with
    | error failure =>
        rw [hBlocks] at h
        cases h
        exact told_readBlocks hBlocks
    | ok read =>
        rw [hBlocks] at h
        cases hCalls : (library.finalize read.1).1.foldlM (UploadBody.callback library) read.2 with
        | error failure =>
            simp only [bind, Except.bind, hCalls] at h
            cases h
            exact told_callbacks hCalls
        | ok last =>
            simp only [bind, Except.bind, hCalls] at h
            cases hFinished : (library.finalize read.1).2 with
            | false =>
                rw [hFinished] at h
                cases h
                trivial
            | true =>
                rw [hFinished] at h
                simp only [Bool.not_true, Bool.false_eq_true, if_false] at h
                split_ifs at h
                · cases h
                  exact ⟨Or.inl rfl, by decide⟩
                · cases h

/-- Whatever its calls are answered, an upload comes to an answer. -/
theorem served_ingest {headers : Gateway.Headers} {blocks : List Bytes}
    {made : List (Exchange Call Response Failure)} {outcome : Except Failure Gateway.Response}
    (h : (app.ingest headers blocks).Performs made outcome) :
    ∃ response, outcome = .ok response ∧ Gateway.Served response := by
  unfold IngestApp.ingest at h
  split at h
  · rename_i error hTenant
    exact ⟨_, (Program.performs_done.mp h).2, served_errorResponse (told_tenant hTenant)⟩
  · simp only at h
    split at h
    · rename_i error hRead
      exact ⟨_, (Program.performs_done.mp h).2, served_errorResponse (told_read hRead)⟩
    · obtain ⟨first, middle, second, -, hSecond, -⟩ := Program.performs_andThen h
      cases middle with
      | error failure =>
          exact ⟨_, (Program.performs_done.mp hSecond).2,
            served_errorResponse (told_requestError failure)⟩
      | ok stored =>
          exact ⟨_, (Program.performs_done.mp hSecond).2,
            served_answer app (by decide) (by decide) _⟩

end Served

section Tenant
variable {app : IngestApp} {headers : Gateway.Headers} {owner : String}
  (hTenant : tenant headers = .ok owner)

include hTenant

theorem document_ofTenant (documentId : Option UUID) (database : Database) :
    app.document headers documentId (.ok (database.ofTenant owner)) =
      app.document headers documentId (.ok database) := by
  simp only [IngestApp.document, hTenant, Database.getDocument_ofTenant]

theorem documents_ofTenant (limit offset : Option Int) (database : Database) :
    app.documents headers limit offset (.ok (database.ofTenant owner)) =
      app.documents headers limit offset (.ok database) := by
  have hRows : (database.ofTenant owner).documents.filter (fun row => row.tenantId = owner) =
      database.documents.filter fun row => row.tenantId = owner :=
    Table.filter_ofOwner fun row _ hRow => of_decide_eq_true hRow
  simp only [IngestApp.documents, hTenant, listDocuments, hRows]

theorem confined_ingest (identifiers : Identifiers) (blocks : List Bytes) :
    ConfinedTo owner identifiers (app.ingest headers blocks) := by
  simp only [IngestApp.ingest, hTenant]
  split
  · trivial
  · rename_i upload _
    have hPut : Call.OwnedBy owner identifiers (.putObject
        (contentObjectKey owner (app.sha256 upload.digest)) upload.target upload.size) :=
      ⟨_, rfl⟩
    apply Program.Confined.andThen
    · unfold register
      split
      · trivial
      · apply (confined_findBySha256 _).bind
        intro previous
        cases previous with
        | some found => trivial
        | none =>
            apply Program.Confined.perform_bind hPut
            intro _ _
            apply (confined_registerUpload _ _ _ _ _).bind
            intro record
            trivial
    · intro outcome
      cases outcome with
      | error failure => trivial
      | ok stored => trivial

end Tenant

end DocInsight.Ingest
