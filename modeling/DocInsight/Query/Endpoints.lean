import DocInsight.Gateway.Proxy
import DocInsight.Gateway.Upstreams
import DocInsight.Query.Service

/-! The query service's internal HTTP boundary. The gateway alone authenticates tenant
headers; here they are only checked for their form. -/
namespace DocInsight.Query

open DocInsight.Contracts DocInsight.Python DocInsight.Worker Interaction

def error (status : Nat) (code message : String) : Gateway.Response :=
  Gateway.error status code message

/-- What the framework makes of a request's body: a request for the application, one that it
refuses, or none, as decoding the body raised anything but `JSONDecodeError`. -/
inductive Parsed where
  | request (request : QueryRequest)
  | invalid
  | unread

/-- The application: its service, where it could be built, and its ledger; what the framework
makes of a request body, by its content type, and of a response model, and which other classes
of exceptions are among those that a query expects. -/
structure QueryApp where
  service : Except Failure QueryService
  ledger : PostgresUsageLedger
  validate : Gateway.Headers → Gateway.Bytes → Parsed
  serialize : QueryResponse → Except Raised Gateway.Bytes
  json : Gateway.JsonLibrary
  inherits : String → Bool

/-- `x_tenant_id: str | None = Header(default=None)`, unless it is missing or malformed. -/
def tenantHeader (headers : Gateway.Headers) : Option String :=
  match (headers.getlist "x-tenant-id").head? with
  | none => none
  | some value =>
      if validTenant (Gateway.asString value) then some (Gateway.asString value) else none

def invalidTenant : Gateway.Response :=
  error 400 "invalid_tenant" "A valid X-Tenant-Id header is required"

def validationError : Gateway.Response := error 422 "validation_error" "Invalid query request"

def unreadContent : Json :=
  .dict [(text "detail", .str (text "There was an error parsing the body"))]

/-- The framework's own answer to a body that it could not read. The application registers no
handler for it, so that it is not in the form of the other errors. -/
def unreadBody : Gateway.Response where
  status := 400
  headers := [("content-type", text "application/json")]
  body := (unreadContent.dumps (.compact fun _ => [])).flatMap Gateway.utf8Bytes

/-- Nothing of an unexpected exception is told; its message may carry the question. -/
def unexpectedError : Gateway.Response := error 500 "internal_error" "Query operation failed"

def PostgresUsageLedger.Summary.content (summary : PostgresUsageLedger.Summary) : Json :=
  .dict [(text "daily_limit", .int summary.dailyLimit),
    (text "charged_tokens", .int summary.chargedTokens),
    (text "reserved_tokens", .int summary.reservedTokens),
    (text "requests", .int summary.requests),
    (text "input_tokens", .int summary.inputTokens),
    (text "output_tokens", .int summary.outputTokens),
    (text "cached_input_tokens", .int summary.cachedInputTokens)]

namespace QueryApp
variable (app : QueryApp)

/-- `SQLAlchemyError, OSError, RuntimeError, ValueError` -/
def expects : Failure → Bool
  | .operational | .interface | .timeout | .value _ | .os _ => true
  | .storageUnavailable | .missingObject | .lookup _ | .key | .client _ | .botoCore _ | .redis _ =>
      false
  | .other name => app.inherits name

def expectsHosted : HostedError → Bool
  | .budgetExceeded _ | .providerFailure _ | .value _ | .database => true
  | .httpStatus _ | .http _ | .key | .type | .index => false
  | .other name => app.inherits name

/-- How an exception is answered that is expected or not. -/
def failed (expected : Bool) : Gateway.Response :=
  if expected then error 503 "query_unavailable" "Query dependencies unavailable"
  else unexpectedError

/-- How a query is answered that came to its end. -/
def ended : Except HostedError QueryResponse → Gateway.Response
  | .error failure => failed (app.expectsHosted failure)
  | .ok response =>
      match app.serialize response with
      | .error _ => unexpectedError
      | .ok body =>
          { status := 200, headers := [("content-type", text "application/json")], body }

/-- Answer a valid request of a tenant. -/
def answer (tenant : String) (request : QueryRequest) (opened : Except Failure Database)
    (elapsed : ℚ) : Hosted Gateway.Response :=
  match app.service with
  | .error failure => pure (failed (app.expects failure))
  | .ok service =>
      let limit := service.settings.queryTopKMax
      if limit < request.topK then
        pure (error 422 "validation_error" s!"top_k limit is {limit}")
      else
        match service.query tenant request opened elapsed with
        | .error .questionTooLong =>
            pure (error 400 "question_too_long"
              "Question exceeds the 126 content token limit; refusing truncation")
        | .error (.raised failure) => pure (failed (app.expects failure))
        | .ok program => program.andThen fun outcome => pure (app.ended outcome)

def query (headers : Gateway.Headers) (body : Gateway.Bytes) (opened : Except Failure Database)
    (elapsed : ℚ) : Hosted Gateway.Response :=
  match app.validate headers body with
  | .unread => pure unreadBody
  | .invalid => pure validationError
  | .request request =>
      match tenantHeader headers with
      | none => pure invalidTenant
      | some tenant => app.answer tenant request opened elapsed

def usage (headers : Gateway.Headers) (opened : Except Failure LedgerTables) (today : Day) :
    Gateway.Response :=
  match tenantHeader headers with
  | none => invalidTenant
  | some tenant =>
      match opened with
      | .error _ => unexpectedError
      | .ok tables =>
          match app.ledger.summary today tenant tables with
          | .error _ => unexpectedError
          | .ok summary =>
              match Gateway.jsonResponse app.json summary.content 200 with
              | .error _ => unexpectedError
              | .ok response => response

end QueryApp

section Served

theorem served_error {status : Nat} {code message : String} (hStatus : 400 ≤ status)
    (hCode : Gateway.validCode (text code) = true) (hMessage : (text message).length ≤ 1024) :
    Gateway.Served (error status code message) :=
  .error hStatus hCode hMessage

theorem served_invalidTenant : Gateway.Served invalidTenant :=
  served_error (by decide) (by decide) (by decide)

theorem served_unexpectedError : Gateway.Served unexpectedError :=
  served_error (by decide) (by decide) (by decide)

theorem served_failed (expected : Bool) : Gateway.Served (QueryApp.failed expected) := by
  unfold QueryApp.failed
  split_ifs
  · exact served_error (by decide) (by decide) (by decide)
  · exact served_unexpectedError

/-- A rendered document is a success. -/
theorem served_jsonResponse {json : Gateway.JsonLibrary} {content : Json} {status : Nat}
    {response : Gateway.Response} (hLow : 200 ≤ status) (hHigh : status < 300)
    (h : Gateway.jsonResponse json content status = .ok response) : Gateway.Served response := by
  obtain ⟨body, -, h⟩ := Raising.bind_eq_ok.mp h
  cases h
  exact .success hLow hHigh

variable (app : QueryApp)

theorem served_ended (outcome : Except HostedError QueryResponse) :
    Gateway.Served (app.ended outcome) := by
  cases outcome with
  | error failure => exact served_failed _
  | ok response =>
      simp only [QueryApp.ended]
      split
      · exact served_unexpectedError
      · rename_i body _
        have hHigh : 200 < 300 := by decide
        exact .success (Nat.le_refl 200) hHigh

theorem served_usage (headers : Gateway.Headers) (opened : Except Failure LedgerTables)
    (today : Day) : Gateway.Served (app.usage headers opened today) := by
  unfold QueryApp.usage
  split
  · exact served_invalidTenant
  · cases opened with
    | error failure => exact served_unexpectedError
    | ok tables =>
        simp only
        split
        · exact served_unexpectedError
        · split
          · exact served_unexpectedError
          · rename_i response hResponse
            exact served_jsonResponse (by decide) (by decide) hResponse

/-- A bound on the depth is told in a few characters. -/
theorem served_depth {limit : Nat} (h : limit ≤ 20) :
    Gateway.Served (error 422 "validation_error" s!"top_k limit is {limit}") := by
  have hShort : ∀ limit ≤ 20, (text s!"top_k limit is {limit}").length ≤ 1024 := by decide +kernel
  exact served_error (by decide) (by decide) (hShort limit h)

/-- Whatever is answered on the way, a valid request comes to an answer. -/
theorem served_answer {tenant : String} {request : QueryRequest}
    {opened : Except Failure Database} {elapsed : ℚ}
    {made : List (Exchange HostedCall HostedCall.Response HostedError)}
    {outcome : Except HostedError Gateway.Response}
    (h : (app.answer tenant request opened elapsed).Performs made outcome) :
    ∃ response, outcome = .ok response ∧ Gateway.Served response := by
  have hDone {answer : Gateway.Response} (served : Gateway.Served answer)
      (hRun : (Program.done (.ok answer) : Hosted Gateway.Response).Performs made outcome) :
      ∃ response, outcome = .ok response ∧ Gateway.Served response :=
    ⟨answer, (Program.performs_done.mp hRun).2, served⟩
  unfold QueryApp.answer at h
  split at h
  · exact hDone (served_failed _) h
  · rename_i service _
    simp only at h
    split_ifs at h
    · exact hDone (served_depth service.settings.queryTopKMax_le) h
    · split at h
      · exact hDone (served_error (by decide) (by decide) (by decide)) h
      · exact hDone (served_failed _) h
      · obtain ⟨first, middle, second, -, hSecond, -⟩ := Program.performs_andThen h
        exact ⟨_, (Program.performs_done.mp hSecond).2, served_ended app middle⟩

/-- So does every query, and the framework answers one itself only where it cannot read it. -/
theorem served_query {headers : Gateway.Headers} {body : Gateway.Bytes}
    {opened : Except Failure Database} {elapsed : ℚ}
    {made : List (Exchange HostedCall HostedCall.Response HostedError)}
    {outcome : Except HostedError Gateway.Response}
    (h : (app.query headers body opened elapsed).Performs made outcome) :
    ∃ response, outcome = .ok response ∧
      (Gateway.Served response ∨
        app.validate headers body = .unread ∧ response = unreadBody) := by
  unfold QueryApp.query at h
  cases hParsed : app.validate headers body with
  | unread =>
      rw [hParsed] at h
      exact ⟨_, (Program.performs_done.mp h).2, Or.inr ⟨rfl, rfl⟩⟩
  | invalid =>
      rw [hParsed] at h
      exact ⟨_, (Program.performs_done.mp h).2,
        Or.inl (served_error (by decide) (by decide) (by decide))⟩
  | request request =>
      rw [hParsed] at h
      simp only at h
      cases hTenant : tenantHeader headers with
      | none =>
          rw [hTenant] at h
          exact ⟨_, (Program.performs_done.mp h).2, Or.inl served_invalidTenant⟩
      | some tenant =>
          rw [hTenant] at h
          obtain ⟨response, hOutcome, served⟩ := served_answer app h
          exact ⟨response, hOutcome, Or.inl served⟩

end Served

/-- The passages of a tenant. -/
def Passages (database : Database) (tenant : String) (passages : List Text) : Prop :=
  ∀ passage ∈ passages, ∃ row ∈ database.chunks, row.tenantId = tenant ∧ row.chunk.text = passage

namespace QueryApp
variable {app : QueryApp} {headers : Gateway.Headers} {tenant : String} {database : Database}
  {elapsed : ℚ}

theorem query_ofTenant (hTenant : tenantHeader headers = some tenant) (body : Gateway.Bytes) :
    app.query headers body (.ok (database.ofTenant tenant)) elapsed =
      app.query headers body (.ok database) elapsed := by
  simp only [query, hTenant, answer, QueryService.query_ofTenant]

theorem usage_ofTenant (hTenant : tenantHeader headers = some tenant) (tables : LedgerTables)
    (today : Day) :
    app.usage headers (.ok (tables.ofTenant tenant)) today = app.usage headers (.ok tables) today := by
  simp only [usage, hTenant, PostgresUsageLedger.summary_ofTenant]

/-- All that a query asks for is budget of its tenant and an answer from passages of the
tenant's. -/
theorem query_told (hTenant : tenantHeader headers = some tenant) (body : Gateway.Bytes)
    (opened : Except Failure Database) :
    ∃ question passages,
      (∀ database, opened = .ok database → Passages database tenant passages) ∧
        (app.query headers body opened elapsed).Makes (Told tenant question passages) := by
  have hNone {response : Gateway.Response} : ∃ question passages,
      (∀ database, opened = .ok database → Passages database tenant passages) ∧
        (Program.done (.ok response) : Hosted Gateway.Response).Makes
          (Told tenant question passages) :=
    ⟨[], [], fun _ _ passage hPassage => (List.not_mem_nil hPassage).elim, trivial⟩
  unfold query
  split
  · exact hNone
  · exact hNone
  · rename_i request _
    simp only [hTenant, answer]
    split
    · exact hNone
    · rename_i service _
      split_ifs
      · exact hNone
      · split
        · exact hNone
        · exact hNone
        · rename_i program hProgram
          -- Generation is reached from an opened snapshot only.
          cases opened with
          | error failure =>
              obtain ⟨vector, -, hOpened⟩ := Raising.bind_eq_ok.mp hProgram
              cases hOpened
          | ok database =>
              obtain ⟨vector, hits, documents, hRetrieved, rfl⟩ := QueryService.query_cases hProgram
              obtain ⟨⟨-, hStored⟩, -⟩ := QueryService.retrieved_cases hRetrieved
              refine ⟨request.question, hits.map fun hit => hit.chunk.text, ?_, ?_⟩
              · intro other hOther passage hPassage
                cases hOther
                obtain ⟨hit, hHit, rfl⟩ := List.mem_map.mp hPassage
                obtain ⟨row, hRow, hOwner, -, -, hChunk⟩ := hStored hit hHit
                exact ⟨row, hRow, hOwner, by rw [hChunk]⟩
              · apply Program.Makes.andThen
                · apply (makes_generate _).bind
                  intro result
                  trivial
                · intro outcome
                  trivial

end QueryApp

end DocInsight.Query
