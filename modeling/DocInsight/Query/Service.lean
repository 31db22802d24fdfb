import DocInsight.Library.Traces
import DocInsight.Query.Generation
import DocInsight.Query.Retrieval
import DocInsight.Query.Response
import DocInsight.Storage.Noninterference

/-! A query from its question to its response: retrieval within one snapshot of the tenant,
then generation, then the checks of what was generated. -/
namespace DocInsight.Query

open DocInsight.Contracts DocInsight.Python DocInsight.Worker Interaction Table

/-- The settings of retrieval, validated once at startup. -/
structure RetrievalSettings where
  abstainThreshold : ℚ := 3 / 5
  rrfK : Int := 60
  queryTopKMax : Nat := 20
  rrfK_ge : 1 ≤ rrfK := by decide
  queryTopKMax_ge : 1 ≤ queryTopKMax := by decide
  queryTopKMax_le : queryTopKMax ≤ 20 := by decide

structure QueryService where
  functions : SearchFunctions
  dimension : Nat
  embedQuery : Text → Except Failure (List Scalar)
  unicode : Unicode
  ratio : Text → Text → ℚ
  generator : FallbackGenerator
  settings : RetrievalSettings

/-- What leaves a query before generation as an exception. -/
inductive QueryError where
  | questionTooLong
  | raised (failure : Failure)
  deriving DecidableEq, Repr

namespace QueryService
section Query
variable (service : QueryService) (tenant : String) (request : QueryRequest)

/-- The adapter's value errors refuse the question. -/
def embedded : Except QueryError (List Scalar) :=
  match service.embedQuery request.question with
  | .ok vector => .ok vector
  | .error (.value _) => .error .questionTooLong
  | .error failure => .error (.raised failure)

/-- The hits, and the documents they are from, as one snapshot of the tenant has them. -/
def retrieved (vector : List Scalar) (database : Database) :
    Except QueryError (List SearchHit × List StoredDocument) :=
  match retrieve service.unicode service.ratio
      (snapshot service.functions service.dimension database) tenant request vector
      service.settings.queryTopKMax service.settings.rrfK with
  | .error failure => .error (.raised failure)
  | .ok hits => .ok (hits, (fromKeys (hits.map SearchHit.documentId)).filterMap fun id =>
      database.getDocument tenant id)

/-- Retrieve a consistent tenant snapshot, then generate outside the transaction. -/
def query (opened : Except Failure Database) (elapsed : ℚ) :
    Except QueryError (Hosted QueryResponse) := do
  let vector ← service.embedded request
  let database ← opened.mapError .raised
  let (hits, documents) ← service.retrieved tenant request vector database
  return (service.generator.generate tenant request.question
    (hits.map fun hit => hit.chunk.text)).bind fun (generation, provider) =>
      .done (.ok (response service.unicode service.settings.abstainThreshold
        service.settings.queryTopKMax request.topK hits documents generation provider elapsed))

end Query
end QueryService

/-- A hit that is a stored passage of the tenant and passes the filter. -/
def Stored (database : Database) (tenant : String) (filter : QueryFilter) (hit : SearchHit) :
    Prop :=
  ∃ row ∈ database.chunks, row.tenantId = tenant ∧ filter.admits row = true ∧
    hit.documentId = row.documentId ∧ hit.chunk = row.chunk

section Reading
variable {database : Database} {tenant : String}

theorem documentNames_ofTenant :
    PostgresQueryReader.documentNames tenant (database.ofTenant tenant) =
      PostgresQueryReader.documentNames tenant database := by
  apply congrArg (List.map _)
  exact filter_ofOwner fun row _ hRow => of_decide_eq_true hRow

theorem nearestChunks_ofTenant {functions : SearchFunctions} {dimension : Nat}
    {vector : List Scalar} {k : Int} {filter : Option QueryFilter} :
    PostgresQueryReader.nearestChunks functions dimension tenant vector k filter
        (database.ofTenant tenant) =
      PostgresQueryReader.nearestChunks functions dimension tenant vector k filter database := by
  simp only [PostgresQueryReader.nearestChunks, Storage.read_ofTenant]

theorem searchText_ofTenant {functions : SearchFunctions} {query : Text} {k : Int}
    {filter : Option QueryFilter} :
    PostgresQueryReader.searchText functions tenant query k filter (database.ofTenant tenant) =
      PostgresQueryReader.searchText functions tenant query k filter database := by
  simp only [PostgresQueryReader.searchText, Storage.read_ofTenant]

theorem mem_read {k : Int} {filter : QueryFilter} {condition : ChunkRow → Bool}
    {order score : ChunkRow → ℚ} {hits : List SearchHit}
    (h : PostgresQueryReader.read tenant k (some filter) condition order score database = .ok hits)
    {hit : SearchHit} (hHit : hit ∈ hits) : Stored database tenant filter hit := by
  unfold PostgresQueryReader.read at h
  split at h
  · cases h
  · cases h
    obtain ⟨row, hRow, rfl⟩ := List.mem_map.mp hHit
    have hSorted := (ordered_orderBy _ _).perm.mem_iff.mp (List.mem_of_mem_take hRow)
    obtain ⟨hStored, hRead⟩ := List.mem_filter.mp hSorted
    simp only [Bool.and_eq_true, decide_eq_true_eq, Option.all_some] at hRead
    exact ⟨row, hStored, hRead.1.2, hRead.2, rfl, rfl⟩

theorem mem_nearestChunks {functions : SearchFunctions} {dimension : Nat} {vector : List Scalar}
    {k : Int} {filter : QueryFilter} {hits : List SearchHit}
    (h : PostgresQueryReader.nearestChunks functions dimension tenant vector k (some filter)
      database = .ok hits) : ∀ hit ∈ hits, Stored database tenant filter hit := by
  unfold PostgresQueryReader.nearestChunks at h
  split at h
  · cases h
  · exact fun hit => mem_read h

theorem mem_searchText {functions : SearchFunctions} {query : Text} {k : Int}
    {filter : QueryFilter} {hits : List SearchHit}
    (h : PostgresQueryReader.searchText functions tenant query k (some filter) database =
      .ok hits) : ∀ hit ∈ hits, Stored database tenant filter hit :=
  fun _ => mem_read h

/-- Names can only narrow what a filter admits. -/
theorem admits_of_namedScope {unicode : Unicode} {ratio : Text → Text → ℚ} {question : Text}
    {names : List (UUID × String)} {filter : QueryFilter} {row : ChunkRow}
    (h : (namedScope unicode ratio question names filter).admits row = true) :
    filter.admits row = true := by
  simp only [namedScope] at h
  split at h
  · exact h
  · rename_i hNamed
    simp only [Bool.or_eq_true, not_or, Bool.not_eq_true, Option.isSome_eq_false_iff,
      Option.isNone_iff_eq_none] at hNamed
    simp only [QueryFilter.admits, Bool.and_eq_true] at h ⊢
    exact ⟨by rw [hNamed.1]; rfl, h.2⟩

/-- A fused hit is one of the ranked ones, with a score of its own. -/
theorem mem_fuse {rankings : List (List SearchHit)} {k : Int} {hits : List SearchHit}
    (h : fuse rankings k = .ok hits) :
    ∀ hit ∈ hits, ∃ ranking ∈ rankings, ∃ first ∈ ranking,
      hit.documentId = first.documentId ∧ hit.chunk = first.chunk := by
  intro hit hHit
  have hk : 1 ≤ k := by
    by_contra hSmall
    rw [fuse, if_pos (by omega)] at h
    cases h
  cases (fuse_eq hk).symm.trans h
  obtain ⟨first, hFirst, hScored⟩ := (fused_fusedHits k.toNat rankings).scored hit hHit
  obtain ⟨ranking, hRanking, hMember⟩ := List.mem_flatten.mp (List.mem_of_find?_eq_some hFirst)
  rw [hScored]
  exact ⟨ranking, hRanking, first, hMember, rfl, rfl⟩

/-- What is retrieved are stored passages of the tenant, as many as asked for at most. -/
theorem mem_retrieve {unicode : Unicode} {ratio : Text → Text → ℚ} {functions : SearchFunctions}
    {dimension : Nat} {request : QueryRequest} {vector : List Scalar} {cap : Nat} {rrfK : Int}
    {hits : List SearchHit}
    (h : retrieve unicode ratio (snapshot functions dimension database) tenant request vector cap
      rrfK = .ok hits) :
    hits.length ≤ min request.topK cap ∧
      ∀ hit ∈ hits, Stored database tenant request.filter hit := by
  obtain ⟨names, -, h⟩ := Raising.bind_eq_ok.mp h
  obtain ⟨nearest, hNearest, h⟩ := Raising.bind_eq_ok.mp h
  obtain ⟨found, hFound, h⟩ := Raising.bind_eq_ok.mp h
  cases hFuse : fuse [nearest, found] rrfK with
  | error error =>
      rw [hFuse] at h
      cases h
  | ok fused =>
      rw [hFuse] at h
      cases h
      constructor
      · rw [List.length_take, place, if_neg (by omega)]
        omega
      · intro hit hHit
        obtain ⟨ranking, hRanking, first, hFirst, hId, hChunk⟩ :=
          mem_fuse hFuse hit (List.mem_of_mem_take hHit)
        have hStored : Stored database tenant
            (namedScope unicode ratio request.question names request.filter) first := by
          cases List.mem_pair.mp hRanking with
          | inl hNear => exact mem_nearestChunks hNearest first (hNear ▸ hFirst)
          | inr hText => exact mem_searchText hFound first (hText ▸ hFirst)
        obtain ⟨row, hRow, hTenant, hAdmits, hRowId, hRowChunk⟩ := hStored
        exact ⟨row, hRow, hTenant, admits_of_namedScope hAdmits, hId.trans hRowId,
          hChunk.trans hRowChunk⟩

/-- What is read of a document is its row of the tenant, with rows of entities of both. -/
theorem mem_getDocument {id : UUID} {document : StoredDocument}
    (h : database.getDocument tenant id = some document) :
    document.id = id ∧ ∀ entity ∈ document.entities, ∃ row ∈ database.entities,
      row.tenantId = tenant ∧ row.documentId = id ∧ row.entity = entity := by
  obtain ⟨row, hRow, rfl⟩ := Option.map_eq_some_iff.mp h
  obtain ⟨rfl, rfl⟩ := Prod.mk.inj (select_mem hRow).2
  refine ⟨rfl, fun entity hEntity => ?_⟩
  obtain ⟨child, hChild, rfl⟩ := List.mem_map.mp hEntity
  have hStored := (ordered_orderBy _ _).perm.mem_iff.mp hChild
  obtain ⟨hMember, hOwn⟩ := List.mem_filter.mp hStored
  obtain ⟨hTenant, hDocument⟩ := of_decide_eq_true hOwn
  exact ⟨child, hMember, hTenant, hDocument, rfl⟩

end Reading

/-- What generation may ask for: budget of the tenant, and the provider only about these
passages. -/
def Told (tenant : String) (question : Text) (passages : List Text) : HostedCall → Prop
  | .reserve owner _ _ => owner = tenant
  | .settle owner _ _ _ => owner = tenant
  | .send asked told => asked = question ∧ told = passages
  | .acquireSlot | .releaseSlot | .acquireTicket | .finishTicket _ _ | .receive => True

section Generating
variable {tenant : String} {question : Text} {passages : List Text}

theorem makes_call (generator : OpenAIGenerator) :
    (generator.call question passages).Makes (Told tenant question passages) := by
  unfold OpenAIGenerator.call
  split
  · trivial
  · apply Program.Makes.bind (Program.Makes.perform ⟨rfl, rfl⟩)
    intro _
    apply Program.Makes.bind (Program.Makes.perform trivial)
    intro _
    trivial

theorem makes_provider (generator : OpenAIGenerator) :
    (generator.generate question passages).Makes (Told tenant question passages) := by
  unfold OpenAIGenerator.generate
  split
  · trivial
  · apply Program.Makes.bind (Program.Makes.perform trivial)
    intro slot
    split
    · apply Program.Makes.bind (Program.Makes.perform trivial)
      intro ticket
      apply Program.Makes.tryFinally _ (Program.Makes.perform trivial)
      cases ticket with
      | none => trivial
      | some ticket =>
          apply Program.Makes.bind
          · apply (makes_call generator).tryCatch
            intro error
            unfold OpenAIGenerator.report
            split
            · apply Program.Makes.bind (Program.Makes.perform trivial)
              intro _
              trivial
            · trivial
          · intro _
            apply Program.Makes.bind (Program.Makes.perform trivial)
            intro _
            trivial
    · trivial

theorem makes_hosted (generator : FallbackGenerator) :
    (generator.hosted tenant question passages).Makes (Told tenant question passages) := by
  unfold FallbackGenerator.hosted
  cases generator.primary with
  | none => trivial
  | some primary =>
      cases generator.bound question passages with
      | none => trivial
      | some bound =>
          apply Program.Makes.bind
          · unfold FallbackGenerator.reserve
            cases generator.ledger with
            | none => trivial
            | some ledger =>
                apply Program.Makes.bind
                · exact Program.Makes.perform rfl
                · intro _
                  trivial
          · intro reservation
            apply (makes_provider primary).andThen
            intro outcome
            apply Program.Makes.andThen
            · unfold FallbackGenerator.settle
              split
              · exact Program.Makes.perform rfl
              · trivial
            · intro settled
              cases settled <;> trivial

/-- Generation asks for nothing else. -/
theorem makes_generate (generator : FallbackGenerator) :
    (generator.generate tenant question passages).Makes (Told tenant question passages) := by
  unfold FallbackGenerator.generate
  split
  · apply Program.Makes.tryCatch
    · apply (makes_hosted generator).bind
      intro result
      trivial
    · intro error
      split <;> trivial
  · trivial

/-- Generation raises nothing but what has no fallback. -/
theorem performs_generate {generator : FallbackGenerator}
    {made : List (Exchange HostedCall HostedCall.Response HostedError)} {error : HostedError}
    (h : (generator.generate tenant question passages).Performs made (.error error)) :
    fallbackFor error = none := by
  unfold FallbackGenerator.generate at h
  split at h
  · obtain ⟨first, middle, second, hFirst, hSecond, rfl⟩ := Program.performs_andThen h
    cases middle with
    | ok result => cases Program.performs_done.mp hSecond |>.2
    | error raised =>
        cases hFallback : fallbackFor raised with
        | none =>
            simp only [hFallback] at hSecond
            cases Program.performs_done.mp hSecond |>.2
            exact hFallback
        | some reason =>
            simp only [hFallback] at hSecond
            cases Program.performs_done.mp hSecond |>.2
  · cases Program.performs_done.mp h |>.2

end Generating

/-- What a response shows of a snapshot: passages and entities of the tenant's own. -/
structure Shows (unicode : Unicode) (database : Database) (tenant : String)
    (hits : List SearchHit) (response : QueryResponse) : Prop where
  sources : ∀ shown ∈ response.sources, ∃ hit ∈ hits, shown = QueryService.source hit
  withheld : response.abstained = true →
    response.answer = [] ∧ response.entities = [] ∧
      response.sources = hits.map QueryService.source
  answered : response.abstained = false → strip response.answer ≠ [] ∧ response.sources ≠ []
  entities : ∀ found ∈ response.entities, ∃ row ∈ database.entities, row.tenantId = tenant ∧
    found = ⟨row.entity.text, row.entity.label, row.entity.count, row.documentId⟩ ∧
    ∃ shown ∈ response.sources, shown.documentId = row.documentId ∧
      QueryService.normalized unicode found.text <:+: QueryService.normalized unicode shown.text

namespace QueryService
variable {service : QueryService} {tenant : String} {request : QueryRequest}
  {database : Database} {hits : List SearchHit} {documents : List StoredDocument}

theorem retrieved_ofTenant (vector : List Scalar) :
    service.retrieved tenant request vector (database.ofTenant tenant) =
      service.retrieved tenant request vector database := by
  simp only [retrieved, retrieve, snapshot, documentNames_ofTenant, nearestChunks_ofTenant,
    searchText_ofTenant, Database.getDocument_ofTenant]

theorem query_ofTenant (elapsed : ℚ) :
    service.query tenant request (.ok (database.ofTenant tenant)) elapsed =
      service.query tenant request (.ok database) elapsed := by
  simp only [query, Except.mapError]
  cases service.embedded request with
  | error error => rfl
  | ok vector =>
      change (service.retrieved tenant request vector (database.ofTenant tenant) >>= _) =
        (service.retrieved tenant request vector database >>= _)
      rw [retrieved_ofTenant]

theorem retrieved_cases {vector : List Scalar}
    (h : service.retrieved tenant request vector database = .ok (hits, documents)) :
    (hits.length ≤ min request.topK service.settings.queryTopKMax ∧
      ∀ hit ∈ hits, Stored database tenant request.filter hit) ∧
    ∀ document ∈ documents, ∃ hit ∈ hits, database.getDocument tenant hit.documentId =
      some document := by
  unfold retrieved at h
  split at h
  · cases h
  · rename_i found hFound
    cases h
    refine ⟨mem_retrieve hFound, fun document hDocument => ?_⟩
    obtain ⟨id, hId, hRead⟩ := List.mem_filterMap.mp hDocument
    obtain ⟨hit, hHit, rfl⟩ := List.mem_map.mp (mem_fromKeys.mp hId)
    exact ⟨hit, hHit, hRead⟩

/-- A response of such hits and documents shows nothing else. -/
theorem response_shows {unicode : Unicode} {threshold elapsed : ℚ} {cap depth : Nat}
    {generation : Generation} {provider : GenerationInfo}
    (hDocuments : ∀ document ∈ documents, ∃ hit ∈ hits,
      database.getDocument tenant hit.documentId = some document) :
    Shows unicode database tenant hits
      (response unicode threshold cap depth hits documents generation provider elapsed) := by
  cases hAbstained : (response unicode threshold cap depth hits documents generation provider
      elapsed).abstained with
  | true =>
      have hAssessed : (Ranking.assessGeneration unicode generation provider hits
          threshold).2.1 = true := hAbstained
      constructor
      · intro shown hShown
        simp only [response, hAssessed, if_true] at hShown
        obtain ⟨hit, hHit, rfl⟩ := List.mem_map.mp hShown
        exact ⟨hit, hHit, rfl⟩
      · intro _
        simp [response, hAssessed]
      · intro hAnswered
        cases hAbstained.symm.trans hAnswered
      · intro found hFound
        simp [response, hAssessed] at hFound
  | false =>
      have grounded := grounded_of_answered hAbstained
      obtain ⟨places, hSome, -, -, -, hRange, hSources⟩ := grounded.sources
      constructor
      · intro shown hShown
        have hPlace := @List.mem_map_of_mem _ _ _ _ some hShown
        rw [hSources] at hPlace
        obtain ⟨place, -, hSource⟩ := List.mem_map.mp hPlace
        obtain ⟨hit, hHit, rfl⟩ := Option.map_eq_some_iff.mp hSource
        exact ⟨hit, List.mem_of_getElem? hHit, rfl⟩
      · intro hWithheld
        cases hAbstained.symm.trans hWithheld
      · intro _
        refine ⟨by rw [grounded.answer]; exact grounded.nonblank, fun hNone => ?_⟩
        rw [hNone] at hSources
        exact hSome (List.map_eq_nil_iff.mp hSources.symm)
      · intro found hFound
        obtain ⟨document, hDocument, entity, hEntity, rfl, -, shown, hShown, hId, hInside⟩ :=
          grounded.entities found hFound
        obtain ⟨hit, -, hRead⟩ := hDocuments document hDocument
        obtain ⟨hSame, hRows⟩ := mem_getDocument hRead
        obtain ⟨row, hRow, hTenant, hOwner, rfl⟩ := hRows entity hEntity
        have hFrom : document.id = row.documentId := hSame.trans hOwner.symm
        refine ⟨row, hRow, hTenant, ?_, shown, hShown, hId.trans hFrom, hInside⟩
        rw [citedEntity, hFrom]

/-- A query that gets to generation: its hits and documents, and what is made of them. -/
theorem query_cases {elapsed : ℚ} {program : Hosted QueryResponse}
    (h : service.query tenant request (.ok database) elapsed = .ok program) :
    ∃ vector hits documents, service.retrieved tenant request vector database =
        .ok (hits, documents) ∧
      program = (service.generator.generate tenant request.question
        (hits.map fun hit => hit.chunk.text)).bind fun result =>
          .done (.ok (response service.unicode service.settings.abstainThreshold
            service.settings.queryTopKMax request.topK hits documents result.1 result.2 elapsed)) := by
  obtain ⟨vector, -, h⟩ := Raising.bind_eq_ok.mp h
  obtain ⟨opened, hOpened, h⟩ := Raising.bind_eq_ok.mp h
  cases hOpened
  obtain ⟨⟨hits, documents⟩, hRetrieved, h⟩ := Raising.bind_eq_ok.mp h
  cases h
  exact ⟨vector, hits, documents, hRetrieved, rfl⟩

/-- The response to a tenant's question, and all that is asked for on the way, come from the
tenant's rows alone. What is retrieved are its stored passages under the filter, as many as
asked for at most; the provider is told the question and these passages, and nothing where
there are none. Whatever it and the ledger answer, the response shows passages and entities of
those, or nothing but the retrieved evidence, and only errors without a fallback are raised. -/
theorem query_own (service : QueryService) (request : QueryRequest) {tenant : String}
    {database other : Database} (hAgree : database.ofTenant tenant = other.ofTenant tenant)
    (elapsed : ℚ) :
    service.query tenant request (.ok database) elapsed =
      service.query tenant request (.ok other) elapsed ∧
    ∀ program, service.query tenant request (.ok database) elapsed = .ok program →
      ∃ hits : List SearchHit, hits.length ≤ min request.topK service.settings.queryTopKMax ∧
        (∀ hit ∈ hits, Stored database tenant request.filter hit) ∧
        program.Makes (Told tenant request.question (hits.map fun hit => hit.chunk.text)) ∧
        (hits = [] → ∃ outcome, program = .done outcome) ∧
        ∀ made outcome, program.Performs made outcome →
          (∀ error, outcome = .error error → fallbackFor error = none) ∧
          ∀ response, outcome = .ok response →
            response.retrieval = ⟨min request.topK service.settings.queryTopKMax, hits.length, true⟩ ∧
            Shows service.unicode database tenant hits response := by
  constructor
  · rw [← query_ofTenant, hAgree, query_ofTenant]
  · intro program hProgram
    obtain ⟨vector, hits, documents, hRetrieved, rfl⟩ := query_cases hProgram
    obtain ⟨⟨hLength, hStored⟩, hDocuments⟩ := retrieved_cases hRetrieved
    refine ⟨hits, hLength, hStored, ?_, ?_, ?_⟩
    · apply (makes_generate _).bind
      intro result
      trivial
    · rintro rfl
      simp [FallbackGenerator.generate]
    · intro made outcome hRun
      rcases Program.performs_bind hRun with ⟨error, hFailed, rfl⟩ |
        ⟨first, result, second, -, hDone, -⟩
      · constructor
        · intro raised hRaised
          cases hRaised
          exact performs_generate hFailed
        · intro response hResponse
          cases hResponse
      · obtain ⟨-, rfl⟩ := Program.performs_done.mp hDone
        constructor
        · intro raised hRaised
          cases hRaised
        · intro response hResponse
          cases hResponse
          exact ⟨rfl, response_shows hDocuments⟩

/-- A passage of one tenant, and the same beside another tenant's. -/
def acmeRow : ChunkRow where
  id := ⟨101⟩
  tenantId := "acme"
  documentId := ⟨1⟩
  chunk := Storage.sampleChunk

def acmeAlone : Database where
  documents := [Storage.sampleRow 1 "acme"]
  chunks := [acmeRow]

def acmeBeside : Database where
  documents := [Storage.sampleRow 2 "umbrella", Storage.sampleRow 1 "acme"]
  chunks := [{ acmeRow with id := ⟨102⟩, tenantId := "umbrella", documentId := ⟨2⟩ }, acmeRow]

def sampleService : QueryService where
  functions := Storage.sampleAdapters.functions
  dimension := 1
  embedQuery _ := .ok [.finite 1]
  unicode := ⟨fun _ => true, fun _ => false, id, id⟩
  ratio _ _ := 0
  generator :=
    { primary := none, model := "", ledger := none, maxOutput := 700,
      fallback := fun _ _ => { answer := [], supported := false } }
  settings := {}

theorem samplePassage_ne : text "Passage?" ≠ [] := by decide

theorem sampleDepth_ge : 1 ≤ 5 := by decide

theorem sampleDepth_le : 5 ≤ 20 := by decide

def sampleQuestion : QueryRequest where
  question := text "Passage?"
  question_ne := samplePassage_ne
  topK_ge := sampleDepth_ge
  topK_le := sampleDepth_le

/-- The response to the sample question, where nothing else is asked for. -/
def sampleAnswer (database : Database) : Option QueryResponse :=
  match sampleService.query "acme" sampleQuestion (.ok database) 0 with
  | .ok (.done (.ok response)) => some response
  | _ => none

theorem query_of_sampleAnswer {database : Database} {response : QueryResponse}
    (h : sampleAnswer database = some response) :
    sampleService.query "acme" sampleQuestion (.ok database) 0 = .ok (.done (.ok response)) := by
  unfold sampleAnswer at h
  split at h
  · rename_i found hFound
    cases h
    exact hFound
  · cases h

/-- The one passage of the tenant's is retrieved, and not the same one of another tenant. -/
theorem query_own_sample : ∃ response hit,
    sampleService.query "acme" sampleQuestion (.ok acmeBeside) 0 = .ok (.done (.ok response)) ∧
    sampleService.query "acme" sampleQuestion (.ok acmeAlone) 0 = .ok (.done (.ok response)) ∧
    Stored acmeBeside "acme" {} hit ∧
    Shows sampleService.unicode acmeBeside "acme" [hit] response := by
  obtain ⟨hSame, hOwn⟩ := query_own sampleService sampleQuestion
    (show acmeBeside.ofTenant "acme" = acmeAlone.ofTenant "acme" by decide) 0
  have hAnswer : (sampleAnswer acmeBeside).map (fun response => response.retrieval.hits) =
      some 1 := by
    decide +kernel
  obtain ⟨response, hResponse, hOne⟩ := Option.map_eq_some_iff.mp hAnswer
  have hProgram := query_of_sampleAnswer hResponse
  obtain ⟨hits, -, hStored, -, -, hEnds⟩ := hOwn _ hProgram
  obtain ⟨-, hTold⟩ := hEnds [] (.ok response) (Program.performs_done.mpr ⟨rfl, rfl⟩)
  obtain ⟨hRetrieval, shows⟩ := hTold response rfl
  have hLength : hits.length = 1 := by rw [← hOne, hRetrieval]
  obtain ⟨hit, rfl⟩ := List.length_eq_one_iff.mp hLength
  exact ⟨response, hit, hProgram, hSame ▸ hProgram, hStored hit (List.mem_singleton_self hit), shows⟩

end QueryService

end DocInsight.Query
