import DocInsight.Gateway.Boundary
import DocInsight.Ingest.Endpoints
import DocInsight.Query.Endpoints

/-! The gateway with the services behind it: for whom a service acts when a request reaches
it, and what of its answer reaches the client. -/
namespace DocInsight.Gateway

open DocInsight.Contracts DocInsight.Worker Interaction

/-- The routes of the gateway that pass a request on, with what was parsed of their paths. -/
inductive Route where
  | ingest
  | document (documentId : UUID)
  | query
  | documents (limit offset : Int) (bounds : 1 ≤ limit ∧ limit ≤ 100 ∧ 0 ≤ offset)
  | usage

namespace Route

def path (uuid : UUID → String) : Route → String
  | ingest => "/ingest"
  | document documentId => "/documents/" ++ uuid documentId
  | query => "/query"
  | documents limit offset _ => s!"/documents?limit={limit}&offset={offset}"
  | usage => "/usage"

/-- Whether the ingest service answers a route; the query service answers the others. -/
def toIngest : Route → Bool
  | ingest | document _ | documents _ _ _ => true
  | query | usage => false

def routed (uuid : UUID → String) (request : Request) (route : Route) : Routed :=
  { request, path := route.path uuid, ingest := route.toIngest }

end Route

/-- What a service does with a request: answer it from what it read, ask the provider within
its budget, or store what it was given. -/
inductive Work where
  | answered (response : Response)
  | asking (program : Query.Hosted Response)
  | storing (procedure : Storage.Procedure Response)

structure Services where
  ingest : Ingest.IngestApp
  query : Query.QueryApp

/-- What a service makes of a request. Its framework parses the path back; the tables are
those of its snapshot, if one could be opened. -/
def Services.serve (services : Services) (opened : Except Failure Storage.Tables)
    (today : Query.Day) (elapsed : ℚ) (headers : Headers) (blocks : List Bytes) : Route → Work
  | .ingest => .storing (services.ingest.ingest headers blocks)
  | .document documentId =>
      .answered (services.ingest.document headers (some documentId)
        (opened.map Storage.Tables.database))
  | .query =>
      .asking (services.query.query headers blocks.flatten (opened.map Storage.Tables.database)
        elapsed)
  | .documents limit offset _ =>
      .answered (services.ingest.documents headers (some limit) (some offset)
        (opened.map Storage.Tables.database))
  | .usage => .answered (services.query.usage headers (opened.map Storage.Tables.ledger) today)

/-- Work for one tenant: budget of the tenant's and passages of its documents; statements and
objects in its name, with an answer that its rows decide. -/
def Work.Within (tenant : String) (opened : Except Failure Storage.Tables) : Work → Prop
  | .answered _ => True
  | .asking program => ∃ question passages,
      (∀ tables, opened = .ok tables → Query.Passages tables.database tenant passages) ∧
        program.Makes (Query.Told tenant question passages)
  | .storing procedure =>
      (∀ identifiers, Storage.ConfinedTo tenant identifiers procedure) ∧
        Storage.Separate tenant procedure

/-- What work comes to, whatever it is answered on the way. -/
def Work.Ends (outcome : Option Response) : Work → Prop
  | .answered response => outcome = some response
  | .asking program => ∃ made result, program.Performs made result ∧ outcome = result.toOption
  | .storing procedure => ∃ made result, procedure.Performs made result ∧ outcome = result.toOption

/-- An answer as an upstream's response, with its body cut in any way. -/
def Response.received (response : Response) (cut : ChunkStream) : HttpResponse :=
  { status := response.status, contentType := (response.headers.getlist "content-type").head?,
    body := cut }

section Header

/-- A text that a header was written from is read back from it. -/
theorem asString_text (value : String) : asString (Python.text value) = value := by
  have hSame : (Python.text value).map (fun character => Char.ofNat character.val) =
      value.toList := by
    rw [Python.text, List.map_map]
    conv_rhs => rw [← List.map_id value.toList]
    apply List.map_congr_left
    intro character _
    simp [Python.codePoint_val]
  rw [asString, hSame, String.ofList_toList]

variable {sent : UpstreamRequest} {identity : Identity}

/-- Of a request that was forwarded, both services read the verified tenant. -/
theorem UpstreamRequest.Carries.tenantHeader (carries : sent.Carries identity) :
    Query.tenantHeader sent.headers = some identity.tenant := by
  simp only [Query.tenantHeader, carries.1, List.head?_cons, asString_text, identity.valid_tenant,
    if_true]

theorem UpstreamRequest.Carries.tenant (carries : sent.Carries identity) :
    Ingest.tenant sent.headers = .ok identity.tenant := by
  simp only [Ingest.tenant, Ingest.header, carries.1, List.head?_cons, Option.getD_some,
    asString_text, identity.valid_tenant, if_true]

end Header

section Serve
variable {services : Services} {opened : Except Failure Storage.Tables} {today : Query.Day}
  {elapsed : ℚ} {sent : UpstreamRequest} {identity : Identity} {blocks : List Bytes}

theorem serve_ofTenant (carries : sent.Carries identity) (route : Route) :
    services.serve (opened.map (Storage.Tables.ofTenant identity.tenant)) today elapsed sent.headers
        blocks route =
      services.serve opened today elapsed sent.headers blocks route := by
  cases opened with
  | error failure => rfl
  | ok tables =>
      cases route with
      | ingest => rfl
      | document documentId =>
          exact congrArg Work.answered (Ingest.document_ofTenant carries.tenant _ tables.database)
      | query =>
          exact congrArg Work.asking
            (Query.QueryApp.query_ofTenant carries.tenantHeader blocks.flatten)
      | documents limit offset bounds =>
          exact congrArg Work.answered (Ingest.documents_ofTenant carries.tenant _ _ tables.database)
      | usage =>
          exact congrArg Work.answered
            (Query.QueryApp.usage_ofTenant carries.tenantHeader tables.ledger today)

theorem serve_within (carries : sent.Carries identity) (route : Route) :
    (services.serve opened today elapsed sent.headers blocks route).Within identity.tenant
      opened := by
  cases route with
  | ingest =>
      have confined (identifiers : Storage.Identifiers) :=
        @Ingest.confined_ingest services.ingest _ _ carries.tenant identifiers blocks
      exact ⟨confined, Storage.separate_of_confined confined⟩
  | query =>
      obtain ⟨question, passages, hPassages, hMakes⟩ :=
        Query.QueryApp.query_told carries.tenantHeader blocks.flatten
          (opened.map Storage.Tables.database)
      refine ⟨question, passages, fun tables hTables => hPassages tables.database ?_, hMakes⟩
      rw [hTables]
      rfl
  | document documentId => trivial
  | documents limit offset bounds => trivial
  | usage => trivial

/-- The body of a question is one that the query service's framework cannot read. -/
def Services.Unread (services : Services) (headers : Headers) (blocks : List Bytes)
    (route : Route) : Prop :=
  route = .query ∧ services.query.validate headers blocks.flatten = .unread

/-- However it goes, work ends in an answer of a service's or of its framework's. -/
theorem serve_ends {headers : Headers} {route : Route} {outcome : Option Response}
    (h : (services.serve opened today elapsed headers blocks route).Ends outcome) :
    ∃ response, outcome = some response ∧
      (Served response ∨ services.Unread headers blocks route ∧ response = Query.unreadBody) := by
  cases route with
  | ingest =>
      obtain ⟨made, result, hRun, rfl⟩ := h
      obtain ⟨response, rfl, served⟩ := Ingest.served_ingest services.ingest hRun
      exact ⟨response, rfl, Or.inl served⟩
  | query =>
      obtain ⟨made, result, hRun, rfl⟩ := h
      obtain ⟨response, rfl, served | ⟨hUnread, hResponse⟩⟩ :=
        Query.served_query services.query hRun
      · exact ⟨response, rfl, Or.inl served⟩
      · exact ⟨response, rfl, Or.inr ⟨⟨rfl, hUnread⟩, hResponse⟩⟩
  | document documentId => exact ⟨_, h, Or.inl (Ingest.served_document services.ingest _ _ _)⟩
  | documents limit offset bounds =>
      exact ⟨_, h, Or.inl (Ingest.served_documents services.ingest _ _ _ _)⟩
  | usage => exact ⟨_, h, Or.inl (Query.served_usage services.query _ _ _)⟩

end Serve

/-- A request that reaches a service is served for the tenant of the token that was verified
for it, whatever tenant its caller named. What the service answers and asks for is decided by
that tenant's rows alone; a question is put with passages of the tenant's documents and on its
budget, and an upload is stored by statements and under an object name of the tenant, with an
answer and changes that are the tenant's own. -/
theorem served_own {Key : Type} (fleet : Fleet Key) (clock : ℚ)
    {actions : List (Action Nat FleetChoice (String × ℚ))}
    {finish : Pool Nat (FleetState Key × FleetAccount Key) GatewayCall (GatewayCall.Response Key)
      GatewayError Response}
    (hRun : Transition.run (Pool.step (fleet.environment.observed FleetAccount.see)) actions
      (fleet.start clock) = some finish)
    {uuid : UUID → String} {routes : Nat → Route}
    (hRoutes : ∀ agent, fleet.routed agent = (routes agent).routed uuid (fleet.routed agent).request)
    (services : Services) (today : Query.Day) (elapsed : ℚ) :
    ∀ agent sent, (agent, sent) ∈ finish.state.2.forwarded →
      ∃ token kid key time identity, Known fleet agent token kid key time identity ∧
        sent.ingest = (routes agent).toIngest ∧ sent.path = (routes agent).path uuid ∧
        ∀ (blocks : List Bytes) (opened other : Except Failure Storage.Tables),
          opened.map (Storage.Tables.ofTenant identity.tenant) =
            other.map (Storage.Tables.ofTenant identity.tenant) →
          services.serve opened today elapsed sent.headers blocks (routes agent) =
            services.serve other today elapsed sent.headers blocks (routes agent) ∧
          (services.serve opened today elapsed sent.headers blocks (routes agent)).Within
            identity.tenant opened := by
  intro agent sent hForwarded
  obtain ⟨history, reply, ⟨token, kid, key, time, identity, verdict, hKnown, -, -, rfl⟩, -⟩ :=
    (Fleet.run_safe hRun).1.forwarded agent sent hForwarded
  have carries := carries_upstreamRequest fleet.settings (fleet.routed agent).request
    (fleet.routed agent).path (fleet.routed agent).ingest identity
  refine ⟨token, kid, key, time, identity, hKnown, ?_, ?_, fun blocks opened other hAgree => ?_⟩
  · exact congrArg Routed.ingest (hRoutes agent)
  · exact congrArg Routed.path (hRoutes agent)
  · refine ⟨?_, serve_within carries _⟩
    rw [← serve_ofTenant carries, hAgree, serve_ofTenant carries]

/-- However a service's work on a request goes, there is an answer: a success, an error with a
code and a message, or what its framework says of a question that it cannot read. However the
answer is cut on the way, the client is told the success, or the error of the request, byte by
byte, and of a failure of the service or of what its framework says only that there was one. -/
theorem serve_relayed {services : Services} {opened : Except Failure Storage.Tables}
    {today : Query.Day} {elapsed : ℚ} {headers : Headers} {blocks : List Bytes} {route : Route}
    {outcome : Option Response}
    (h : (services.serve opened today elapsed headers blocks route).Ends outcome) :
    ∃ response, outcome = some response ∧
      ((services.Unread headers blocks route ∧ response = Query.unreadBody ∧
        ∀ (library : JsonLibrary) (upstream : HttpUpstream) (cut : ChunkStream),
          cut.bytes = response.body → cut.raises = none →
          library.loads response.body = .ok Query.unreadContent →
          answered library (upstream.receive (response.received cut)) =
            .ok (error 502 "bad_gateway" "upstream request failed")) ∨
      (200 ≤ response.status ∧ response.status < 300 ∧
        ∀ (library : JsonLibrary) (upstream : HttpUpstream) (cut : ChunkStream),
          cut.bytes = response.body → cut.raises = none →
          response.body.length ≤ upstream.maxResponseBytes →
          answered library (upstream.receive (response.received cut)) = .ok response) ∨
      ∃ code message, response = error response.status code message ∧ 400 ≤ response.status ∧
        ∀ (library : JsonLibrary) (upstream : HttpUpstream) (cut : ChunkStream),
          cut.bytes = response.body → cut.raises = none →
          library.loads response.body =
            .ok (errorContent (Python.text code) (Python.text message)) →
          answered library (upstream.receive (response.received cut)) = .ok (relayed response)) := by
  obtain ⟨response, rfl, served | ⟨hUnread, rfl⟩⟩ := serve_ends h
  · refine ⟨response, rfl, Or.inr ?_⟩
    cases served with
    | success low high =>
        refine Or.inl ⟨low, high, fun library upstream cut hBytes hEnds hSize => ?_⟩
        have hWhole : cut.bytes.length ≤ upstream.maxResponseBytes := hBytes ▸ hSize
        have hAnswer := @answered_whole library upstream cut _ low high hEnds hWhole
        rwa [hBytes] at hAnswer
    | error low code_valid message_le =>
        exact Or.inr ⟨_, _, rfl, low, fun library upstream cut hBytes hEnds hReads =>
          answered_error low code_valid message_le hBytes hEnds hReads⟩
  · refine ⟨_, rfl, Or.inl ⟨hUnread, rfl, fun library upstream cut hBytes hEnds hReads => ?_⟩⟩
    have hSize : Query.unreadBody.body.length ≤ 64 * 1024 := by decide
    have hStatus : 300 ≤ 400 := by decide
    exact answered_foreign hStatus hEnds (hBytes ▸ hSize) (hBytes ▸ hReads) (by decide)

/-! Services with a document stored for the caller, beside other tenants' documents. -/

def soleServices : Services where
  ingest :=
    { sha256 := fun _ => ""
      multipart :=
        { parseOptions := fun _ => ([], []), decode := fun _ => "", Parser := Unit
          new := fun _ => (), write := fun _ _ => ([], some ()), finalize := fun _ => ([], true) }
      json := soleFleet.json
      uuid := fun _ => ""
      timestamp := fun _ => "" }
  query :=
    { service := .ok Query.QueryService.sampleService
      ledger := Storage.sampleAdapters.ledger
      -- No document in UTF-8 has this byte.
      validate := fun _ body =>
        if 0xFF ∈ body then .unread else .request Query.QueryService.sampleQuestion
      serialize := fun _ => .ok []
      json := soleFleet.json
      inherits := fun _ => false }

theorem soleBounds : 1 ≤ (20 : Int) ∧ (20 : Int) ≤ 100 ∧ 0 ≤ (0 : Int) := by decide

def listing : Route := .documents 20 0 soleBounds

/-- The callers ask for the first page of their documents. -/
def listingFleet : Fleet Unit :=
  { soleFleet with
    routed := fun agent => listing.routed (fun _ => "") (soleFleet.routed agent).request }

/-- A document of the caller's, beside one of another tenant. -/
def demoBeside (other : String) : Storage.Tables where
  database := { documents := [Storage.sampleRow 1 "demo", Storage.sampleRow 2 other] }

theorem served_own_sole : ∃ finish sent response,
    Transition.run (Pool.step (listingFleet.environment.observed FleetAccount.see)) soleActions
      (listingFleet.start 0) = some finish ∧ (1, sent) ∈ finish.state.2.forwarded ∧
    sent.path = "/documents?limit=20&offset=0" ∧
    (Worker.listDocuments "demo" 20 0 (demoBeside "umbrella").database).map List.length = .ok 1 ∧
    soleServices.serve (.ok (demoBeside "umbrella")) 0 0 sent.headers [] listing =
      .answered response ∧
    soleServices.serve (.ok (demoBeside "globex")) 0 0 sent.headers [] listing =
      .answered response := by
  have hEnd : (Transition.run (Pool.step (listingFleet.environment.observed FleetAccount.see))
      soleActions (listingFleet.start 0)).map (fun finish =>
        finish.state.2.forwarded.map Prod.fst) = some [1] := by
    decide +kernel
  obtain ⟨finish, hRun, hForwarded⟩ := Option.map_eq_some_iff.mp hEnd
  have hOne : 1 ∈ finish.state.2.forwarded.map Prod.fst := by
    rw [hForwarded]
    exact List.mem_singleton_self 1
  obtain ⟨⟨agent, sent⟩, hSent, rfl⟩ := List.mem_map.mp hOne
  have hRoutes (agent : Nat) : listingFleet.routed agent =
      listing.routed (fun _ => "") (listingFleet.routed agent).request := rfl
  obtain ⟨token, kid, key, time, identity, hKnown, -, hPath, hServe⟩ :=
    @served_own _ listingFleet 0 _ _ hRun _ (fun _ => listing) hRoutes soleServices 0 0 _ _ hSent
  have hTenant : identity.tenant = "demo" := by
    have hVerified : verified listingFleet.tokens listingFleet.settings token key time =
        .ok RateSession.alice := by rfl
    cases hVerified.symm.trans hKnown.verified
    rfl
  have hAgree : (Except.ok (demoBeside "umbrella") : Except Failure Storage.Tables).map
      (Storage.Tables.ofTenant identity.tenant) =
        (Except.ok (demoBeside "globex")).map (Storage.Tables.ofTenant identity.tenant) := by
    rw [hTenant]
    show Except.ok ((demoBeside "umbrella").ofTenant "demo") =
      Except.ok ((demoBeside "globex").ofTenant "demo")
    exact congrArg Except.ok (by decide)
  have hSame := (hServe [] _ _ hAgree).1
  exact ⟨finish, sent, _, hRun, hSent, hPath.trans (by decide), by decide, rfl, hSame.symm⟩

/-- A caller that reaches a service without a tenant is told so; one whose question cannot be
read learns that the upstream failed. -/
theorem serve_relayed_invalid :
    (∃ library : JsonLibrary, ∀ upstream : HttpUpstream,
      answered library (upstream.receive (Query.invalidTenant.received
        ⟨[Query.invalidTenant.body], none⟩)) = .ok Query.invalidTenant) ∧
    ∃ library : JsonLibrary, ∀ upstream : HttpUpstream,
      answered library (upstream.receive (Query.unreadBody.received
        ⟨[Query.unreadBody.body], none⟩)) =
          .ok (error 502 "bad_gateway" "upstream request failed") := by
  constructor
  · obtain ⟨response, hResponse, hTold⟩ := @serve_relayed soleServices (.ok {}) 0 0 [] [] .usage
      (some Query.invalidTenant) rfl
    cases hResponse
    rcases hTold with ⟨⟨hRoute, -⟩, -, -⟩ | ⟨-, hHigh, -⟩ | ⟨code, message, -, -, hTold⟩
    · cases hRoute
    · exact absurd hHigh (by decide)
    · refine ⟨⟨fun _ => .ok (errorContent (Python.text code) (Python.text message)), fun _ => []⟩,
        fun upstream => hTold _ upstream _ ?_ rfl rfl⟩
      exact List.flatten_singleton
  · have hEnds : (soleServices.serve (.ok {}) 0 0
        [("content-type", Python.text "application/json")] [[0xFF]] .query).Ends
          (some Query.unreadBody) :=
      ⟨[], .ok Query.unreadBody, Program.performs_done.mpr ⟨rfl, rfl⟩, rfl⟩
    obtain ⟨response, hResponse, hTold⟩ := serve_relayed hEnds
    cases hResponse
    rcases hTold with ⟨-, -, hTold⟩ | ⟨-, hHigh, -⟩ | ⟨code, message, hSame, -, -⟩
    · refine ⟨⟨fun _ => .ok Query.unreadContent, fun _ => []⟩,
        fun upstream => hTold _ upstream _ ?_ rfl rfl⟩
      exact List.flatten_singleton
    · exact absurd hHigh (by decide)
    · -- The third byte of an error in the form of the others is that of its name.
      have hName : Query.unreadBody.body.take 3 = (error 400 code message).body.take 3 :=
        congrArg (fun response => response.body.take 3) hSame
      have hError : (error 400 code message).body.take 3 = [0x7B, 0x22, 0x65] := rfl
      exact absurd (hName.trans hError) (by decide)

end DocInsight.Gateway
