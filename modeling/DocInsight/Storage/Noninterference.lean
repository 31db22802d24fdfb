import DocInsight.Query.LedgerTenancy
import DocInsight.Storage.Confinement
import DocInsight.Worker.QueryRepository

/-! No tenant's rows have a say in what another tenant reads or writes. -/
namespace DocInsight.Storage

open DocInsight.Contracts DocInsight.Worker DocInsight.Query Interaction Table

/-- The six tables. -/
structure Tables where
  database : Database := {}
  ledger : LedgerTables := {}
  deriving DecidableEq, Repr

/-- The rows of one tenant. -/
def Tables.ofTenant (tenant : String) (tables : Tables) : Tables where
  database := tables.database.ofTenant tenant
  ledger := tables.ledger.ofTenant tenant

/-- What the adapters are set up with. -/
structure Adapters where
  uuid5 : UUID → String → UUID
  dimension : Nat
  functions : SearchFunctions
  ledger : PostgresUsageLedger

/-- What surrounds an operation: each call's answers, and the UTC day. -/
structure Surroundings where
  choices : Nat → Choice
  today : Day

/-- What is read for a tenant. -/
inductive Read where
  | findBySha256 (sha256 : String)
  | listDocuments (limit offset : Int)
  | getDocument (documentId : UUID)
  | documentNames
  | nearestChunks (vector : List Scalar) (k : Int) (filter : Option QueryFilter)
  | searchText (query : Python.Text) (k : Int) (filter : Option QueryFilter)
  | summary
  | pendingBatch (batch : Nat)

abbrev Read.Answer : Read → Type
  | findBySha256 _ | getDocument _ => Option StoredDocument
  | listDocuments _ _ => Except Failure (List StoredDocument)
  | documentNames => List (UUID × String)
  | nearestChunks _ _ _ | searchText _ _ _ => Except Failure (List SearchHit)
  | summary => Except LedgerError PostgresUsageLedger.Summary
  | pendingBatch _ => List OutboxRow

def Read.run (adapters : Adapters) (today : Day) (tenant : String) (tables : Tables) :
    (read : Read) → read.Answer
  | .findBySha256 sha256 => (tables.database.findByContent tenant sha256).map storedRow
  | .listDocuments limit offset => Worker.listDocuments tenant limit offset tables.database
  | .getDocument documentId => tables.database.getDocument tenant documentId
  | .documentNames => PostgresQueryReader.documentNames tenant tables.database
  | .nearestChunks vector k filter =>
      PostgresQueryReader.nearestChunks adapters.functions adapters.dimension tenant vector k
        filter tables.database
  | .searchText query k filter =>
      PostgresQueryReader.searchText adapters.functions tenant query k filter tables.database
  | .summary => adapters.ledger.summary today tenant tables.ledger
  | .pendingBatch batch => Ingest.pendingBatch tenant batch tables.database

/-- What is written for a tenant. -/
inductive Mutation where
  | registerUpload (filename sha256 : String) (mediaType : MediaType) (sizeBytes : Nat)
      (objectKey : String)
  | markStatus (documentId : UUID) (status : DocumentStatus) (error : Option String)
  | upsertDocument (filename : String) (document : Document)
  | replaceChunksAndEntities (documentId : UUID) (chunks : List Chunk) (entities : List Entity)
  | reserve (tokens : Int) (model : String)
  | settle (reservation : UUID) (usage : Option TokenUsage) (outcome : String)
  | setPublished (id : UUID)

namespace Mutation

abbrev Outcome : Mutation → Type
  | registerUpload _ _ _ _ _ | upsertDocument _ _ => Except Failure StoredDocument
  | markStatus _ _ _ | replaceChunksAndEntities _ _ _ => Except Failure Unit
  | reserve _ _ => Except LedgerError UUID
  | settle _ _ _ => Except LedgerError Unit
  | setPublished _ => Unit

section Run
variable (adapters : Adapters) (surroundings : Surroundings) (tenant : String) (tables : Tables)

/-- An operation on the tables of documents. -/
def onDatabase {Result : Type} (procedure : Procedure Result) : Except Failure Result × Tables :=
  let ended := transact surroundings.choices procedure tables.database
  (ended.1, { tables with database := ended.2 })

/-- An operation on the tables of the ledger. -/
def onLedger {Result : Type} (body : Except LedgerError (Result × LedgerTables)) :
    Except LedgerError Result × Tables :=
  let ended := tables.ledger.commit body
  (ended.1, { tables with ledger := ended.2 })

def run : (mutation : Mutation) → mutation.Outcome × Tables
  | .registerUpload filename sha256 mediaType sizeBytes objectKey =>
      onDatabase surroundings tables
        (Storage.registerUpload tenant filename sha256 mediaType sizeBytes objectKey)
  | .markStatus documentId status error =>
      onDatabase surroundings tables (Storage.markStatus tenant documentId status error)
  | .upsertDocument filename document =>
      onDatabase surroundings tables
        (Storage.upsertDocument adapters.uuid5 adapters.dimension tenant filename document)
  | .replaceChunksAndEntities documentId chunks entities =>
      onDatabase surroundings tables
        (Storage.replaceChunksAndEntities adapters.uuid5 adapters.dimension tenant documentId
          chunks entities)
  | .reserve tokens model =>
      onLedger tables (adapters.ledger.reserve surroundings.today
        (surroundings.choices 0).identifier tenant tokens model tables.ledger)
  | .settle reservation usage outcome =>
      onLedger tables (PostgresUsageLedger.settle tenant reservation usage outcome tables.ledger)
  | .setPublished id =>
      ((), { tables with
        database := Ingest.setPublished tenant id (surroundings.choices 0).now tables.database })

end Run

/-- The chunks that an operation stores. -/
def chunks : Mutation → List Chunk
  | upsertDocument _ document => document.chunks
  | replaceChunksAndEntities _ chunks _ => chunks
  | _ => []

/-- The entities that an operation stores. -/
def entities : Mutation → List Entity
  | upsertDocument _ document => document.entities
  | replaceChunksAndEntities _ _ entities => entities
  | _ => []

/-- The identifiers that an operation makes. -/
def identifiers (adapters : Adapters) (surroundings : Surroundings) (mutation : Mutation) :
    Identifiers where
  made id := ∃ call, id = (surroundings.choices call).identifier
  chunk documentId id := ∃ index, index < mutation.chunks.length ∧
    id = adapters.uuid5 documentId ("chunks:" ++ toString index)
  entity documentId id := ∃ index, index < mutation.entities.length ∧
    id = adapters.uuid5 documentId ("entities:" ++ toString index)

/-- The identifiers that an operation makes are not those of other tenants' rows. -/
structure MakesNew (adapters : Adapters) (surroundings : Surroundings) (tenant : String)
    (mutation : Mutation) (tables : Tables) : Prop where
  database : Fresh tenant (mutation.identifiers adapters surroundings) tables.database
  ledger : ∀ row ∈ tables.ledger.llmUsage, row.tenantId ≠ tenant →
    ∀ call, row.id ≠ (surroundings.choices call).identifier

section Noninterference
variable {adapters : Adapters} {surroundings : Surroundings} {tenant other : String}
  {tables : Tables}

/-- An operation makes its identifiers within bounds. -/
theorem confined_of (mutation : Mutation) :
    (∀ call, (mutation.identifiers adapters surroundings).made
      (surroundings.choices call).identifier) ∧
    (∀ documentId index, index < mutation.chunks.length →
      (mutation.identifiers adapters surroundings).chunk documentId
        (adapters.uuid5 documentId ("chunks:" ++ toString index))) ∧
    ∀ documentId index, index < mutation.entities.length →
      (mutation.identifiers adapters surroundings).entity documentId
        (adapters.uuid5 documentId ("entities:" ++ toString index)) :=
  ⟨fun call => ⟨call, rfl⟩, fun _ index hIndex => ⟨index, hIndex, rfl⟩,
    fun _ index hIndex => ⟨index, hIndex, rfl⟩⟩

/-- A tenant's procedure is one on the tenant's rows, beside the ledger. -/
theorem onDatabase_ofTenant {Result : Type} {mutation : Mutation} {procedure : Procedure Result}
    (consistent : tables.database.Consistent)
    (new : mutation.MakesNew adapters surroundings tenant tables)
    (confined : ConfinedTo tenant (mutation.identifiers adapters surroundings) procedure) :
    onDatabase surroundings (tables.ofTenant tenant) procedure =
      ((onDatabase surroundings tables procedure).1,
        (onDatabase surroundings tables procedure).2.ofTenant tenant) := by
  have hMade := (@confined_of adapters surroundings mutation).1
  simp only [onDatabase, Tables.ofTenant]
  rw [transact_ofTenant consistent new.database hMade confined]

theorem onLedger_ofTenant {Result : Type} {body : Except LedgerError (Result × LedgerTables)} :
    onLedger (tables.ofTenant tenant)
        (body.map fun (result, after) => (result, after.ofTenant tenant)) =
      ((onLedger tables body).1, (onLedger tables body).2.ofTenant tenant) := by
  cases body with
  | error error => rfl
  | ok result => rfl

/-- A tenant's operation is one on the tenant's rows. -/
theorem run_ofTenant (mutation : Mutation) (consistent : tables.database.Consistent)
    (new : mutation.MakesNew adapters surroundings tenant tables) :
    mutation.run adapters surroundings tenant (tables.ofTenant tenant) =
      ((mutation.run adapters surroundings tenant tables).1,
        (mutation.run adapters surroundings tenant tables).2.ofTenant tenant) := by
  obtain ⟨hMade, hChunk, hEntity⟩ := @confined_of adapters surroundings mutation
  cases mutation with
  | registerUpload filename sha256 mediaType sizeBytes objectKey =>
      exact onDatabase_ofTenant consistent new
        (confined_registerUpload filename sha256 mediaType sizeBytes objectKey)
  | markStatus documentId status error =>
      exact onDatabase_ofTenant consistent new (confined_markStatus documentId status error)
  | upsertDocument filename document =>
      exact onDatabase_ofTenant consistent new
        (confined_upsertDocument hChunk hEntity filename)
  | replaceChunksAndEntities documentId chunks entities =>
      exact onDatabase_ofTenant consistent new
        (confined_replaceChunksAndEntities hChunk hEntity documentId)
  | reserve tokens model =>
      have hReserve := @PostgresUsageLedger.reserve_ofTenant adapters.ledger tenant
        surroundings.today tables.ledger (surroundings.choices 0).identifier tokens model
        fun row hRow hOther => new.ledger row hRow hOther 0
      simp only [run, Tables.ofTenant]
      rw [hReserve]
      exact onLedger_ofTenant
  | settle reservation usage outcome =>
      simp only [run, Tables.ofTenant]
      rw [PostgresUsageLedger.settle_ofTenant]
      exact onLedger_ofTenant
  | setPublished id =>
      simp only [run, Tables.ofTenant, Ingest.setPublished, Database.ofTenant]
      rw [ofOwner_updateWhere]
      exact fun row _ => rfl

theorem onLedger_other {Result : Type} {body : Except LedgerError (Result × LedgerTables)}
    (hBody : ∀ result after, body = .ok (result, after) →
      after.ofTenant tenant = tables.ledger.ofTenant tenant) :
    (onLedger tables body).2.ofTenant tenant = tables.ofTenant tenant := by
  cases hResult : body with
  | error error => rfl
  | ok result =>
      simp only [onLedger, LedgerTables.commit, Tables.ofTenant]
      rw [hBody result.1 result.2 hResult]

theorem onDatabase_other {Result : Type} {procedure : Procedure Result}
    {identifiers : Identifiers} (hOther : other ≠ tenant)
    (hMade : ∀ call, identifiers.made (surroundings.choices call).identifier)
    (confined : ConfinedTo other identifiers procedure) :
    (onDatabase surroundings tables procedure).2.ofTenant tenant = tables.ofTenant tenant := by
  simp only [onDatabase, Tables.ofTenant]
  rw [transact_other hOther hMade confined]

/-- Another tenant's operation leaves the tenant's rows as they are. -/
theorem run_other (mutation : Mutation) (hOther : other ≠ tenant) :
    (mutation.run adapters surroundings other tables).2.ofTenant tenant =
      tables.ofTenant tenant := by
  obtain ⟨hMade, hChunk, hEntity⟩ := @confined_of adapters surroundings mutation
  cases mutation with
  | registerUpload filename sha256 mediaType sizeBytes objectKey =>
      exact onDatabase_other hOther hMade
        (confined_registerUpload filename sha256 mediaType sizeBytes objectKey)
  | markStatus documentId status error =>
      exact onDatabase_other hOther hMade (confined_markStatus documentId status error)
  | upsertDocument filename document =>
      exact onDatabase_other hOther hMade (confined_upsertDocument hChunk hEntity filename)
  | replaceChunksAndEntities documentId chunks entities =>
      exact onDatabase_other hOther hMade
        (confined_replaceChunksAndEntities hChunk hEntity documentId)
  | reserve tokens model =>
      apply onLedger_other
      intro reservation after hReserve
      exact PostgresUsageLedger.reserve_other hReserve hOther
  | settle reservation usage outcome =>
      apply onLedger_other
      intro _ after hSettle
      exact PostgresUsageLedger.settle_other hSettle hOther
  | setPublished id =>
      simp only [run, Tables.ofTenant, Ingest.setPublished, Database.ofTenant]
      rw [ofOwner_updateWhere_other]
      · exact fun row _ => rfl
      · intro row hRow hTenant
        exact hOther ((of_decide_eq_true hRow).1.symm.trans hTenant)

/-- Operations keep the keys. -/
theorem run_consistent (mutation : Mutation) (consistent : tables.database.Consistent) :
    (mutation.run adapters surroundings tenant tables).2.database.Consistent := by
  obtain ⟨hMade, hChunk, hEntity⟩ := @confined_of adapters surroundings mutation
  cases mutation with
  | registerUpload filename sha256 mediaType sizeBytes objectKey =>
      exact transact_consistent consistent hMade
        (confined_registerUpload filename sha256 mediaType sizeBytes objectKey)
  | markStatus documentId status error =>
      exact transact_consistent consistent hMade (confined_markStatus documentId status error)
  | upsertDocument filename document =>
      exact transact_consistent consistent hMade
        (confined_upsertDocument hChunk hEntity filename)
  | replaceChunksAndEntities documentId chunks entities =>
      exact transact_consistent consistent hMade
        (confined_replaceChunksAndEntities hChunk hEntity documentId)
  | reserve tokens model => exact consistent
  | settle reservation usage outcome => exact consistent
  | setPublished id =>
      refine ⟨⟨consistent.unique.ids, consistent.unique.contents⟩, consistent.chunks,
        consistent.entities, consistent.outbox.updateWhere ?_⟩
      exact fun row _ => rfl

end Noninterference

end Mutation

section Reads
variable {adapters : Adapters} {today : Day} {tenant : String} {database : Database}

theorem read_ofTenant (k : Int) (filter : Option QueryFilter) (condition : ChunkRow → Bool)
    (order score : ChunkRow → ℚ) :
    PostgresQueryReader.read tenant k filter condition order score (database.ofTenant tenant) =
      PostgresQueryReader.read tenant k filter condition order score database := by
  have hRows : (database.ofTenant tenant).chunks.filter (fun row =>
      condition row && row.tenantId = tenant && filter.all fun filter => filter.admits row) =
        database.chunks.filter fun row =>
          condition row && row.tenantId = tenant && filter.all fun filter => filter.admits row := by
    apply filter_ofOwner
    intro row _ hRow
    simp only [Bool.and_eq_true, decide_eq_true_eq] at hRow
    exact hRow.1.2
  rw [PostgresQueryReader.read, hRows, PostgresQueryReader.read]

/-- What is read for a tenant is read from the tenant's rows. -/
theorem Read.run_ofTenant (read : Read) (tables : Tables) :
    read.run adapters today tenant (tables.ofTenant tenant) =
      read.run adapters today tenant tables := by
  have hDocuments : (tables.ofTenant tenant).database.documents.filter (fun row =>
      row.tenantId = tenant) = tables.database.documents.filter fun row => row.tenantId = tenant :=
    filter_ofOwner fun row _ hRow => of_decide_eq_true hRow
  have hOutbox : (tables.ofTenant tenant).database.outbox.filter (fun row =>
      row.tenantId = tenant ∧ row.publishedAt = none) =
        tables.database.outbox.filter fun row =>
          row.tenantId = tenant ∧ row.publishedAt = none :=
    filter_ofOwner fun row _ hRow => (of_decide_eq_true hRow).1
  cases read with
  | findBySha256 sha256 =>
      exact congrArg (Option.map storedRow) (Database.findByContent_ofTenant ..)
  | getDocument documentId => exact Database.getDocument_ofTenant ..
  | listDocuments limit offset =>
      rw [run, Worker.listDocuments, hDocuments, run, Worker.listDocuments]
  | documentNames =>
      rw [run, PostgresQueryReader.documentNames, hDocuments, run,
        PostgresQueryReader.documentNames]
  | nearestChunks vector k filter =>
      simp only [run, Tables.ofTenant, PostgresQueryReader.nearestChunks, read_ofTenant]
  | searchText query k filter =>
      simp only [run, Tables.ofTenant, PostgresQueryReader.searchText, read_ofTenant]
  | summary => exact PostgresUsageLedger.summary_ofTenant ..
  | pendingBatch batch => rw [run, Ingest.pendingBatch, hOutbox, run, Ingest.pendingBatch]

end Reads

/-- A write that is made for a tenant. -/
structure Request where
  tenant : String
  mutation : Mutation
  surroundings : Surroundings

def Request.run (adapters : Adapters) (tables : Tables) (request : Request) : Tables :=
  (request.mutation.run adapters request.surroundings request.tenant tables).2

/-- What a tenant's requests make is new when their turns come. -/
def MakeNew (adapters : Adapters) (tenant : String) : Tables → List Request → Prop
  | _, [] => True
  | tables, request :: rest =>
      (request.tenant = tenant →
        request.mutation.MakesNew adapters request.surroundings tenant tables) ∧
      MakeNew adapters tenant (request.run adapters tables) rest

/-- Whatever others ask for in between, a tenant's rows come out as if it were alone. -/
theorem ofTenant_foldl {adapters : Adapters} {tenant : String} {requests : List Request}
    {tables : Tables} (consistent : tables.database.Consistent)
    (new : MakeNew adapters tenant tables requests) :
    (requests.foldl (Request.run adapters) tables).ofTenant tenant =
      (requests.filter fun request => request.tenant = tenant).foldl (Request.run adapters)
        (tables.ofTenant tenant) := by
  induction requests generalizing tables with
  | nil => rfl
  | cons request rest ih =>
      have hRest := ih (request.mutation.run_consistent consistent) new.2
      rw [List.foldl_cons]
      by_cases hTenant : request.tenant = tenant
      · have hRun : request.run adapters (tables.ofTenant tenant) =
            (request.run adapters tables).ofTenant tenant := by
          subst hTenant
          exact congrArg Prod.snd (request.mutation.run_ofTenant consistent (new.1 rfl))
        rw [List.filter_cons_of_pos (by simpa using hTenant), List.foldl_cons, hRun]
        exact hRest
      · have hRun : (request.run adapters tables).ofTenant tenant = tables.ofTenant tenant :=
          request.mutation.run_other hTenant
        rw [List.filter_cons_of_neg (by simpa using hTenant), ← hRun]
        exact hRest

/-- Whatever other tenants' rows are, a tenant reads the same, and its writes come to the
same outcome and leave the same rows of its own; no write of another tenant touches them. So
where the tenant asks for the same writes in the same order, whatever others ask for in between,
its rows are the same at the end. -/
theorem tenant_noninterference (adapters : Adapters) {tenant : String} {first second : Tables}
    (hFirst : first.database.Consistent) (hSecond : second.database.Consistent)
    (hAgree : first.ofTenant tenant = second.ofTenant tenant) :
    (∀ today (read : Read),
      read.run adapters today tenant first = read.run adapters today tenant second) ∧
    (∀ surroundings (mutation : Mutation),
      mutation.MakesNew adapters surroundings tenant first →
      mutation.MakesNew adapters surroundings tenant second →
      (mutation.run adapters surroundings tenant first).1 =
          (mutation.run adapters surroundings tenant second).1 ∧
        (mutation.run adapters surroundings tenant first).2.ofTenant tenant =
          (mutation.run adapters surroundings tenant second).2.ofTenant tenant) ∧
    (∀ surroundings (mutation : Mutation) other, other ≠ tenant →
      (mutation.run adapters surroundings other first).2.ofTenant tenant =
        first.ofTenant tenant) ∧
    ∀ requests others : List Request,
      MakeNew adapters tenant first requests → MakeNew adapters tenant second others →
      (requests.filter fun request => request.tenant = tenant) =
        (others.filter fun request => request.tenant = tenant) →
      (requests.foldl (Request.run adapters) first).ofTenant tenant =
        (others.foldl (Request.run adapters) second).ofTenant tenant := by
  refine ⟨fun today read => ?_, fun surroundings mutation newFirst newSecond => ?_,
    fun surroundings mutation other hOther => mutation.run_other hOther,
    fun requests others newFirst newSecond hRequests => ?_⟩
  · rw [← Read.run_ofTenant read first, hAgree, Read.run_ofTenant read second]
  · have hRuns := (mutation.run_ofTenant hFirst newFirst).symm
    rw [hAgree, mutation.run_ofTenant hSecond newSecond] at hRuns
    exact Prod.mk.inj hRuns
  · rw [ofTenant_foldl hFirst newFirst, ofTenant_foldl hSecond newSecond, hRequests, hAgree]

/-! Two states of the tables with the same document of one tenant, beside another tenant's
document with its chunk in the first and a third tenant's document in the second. -/

def sampleChunk : Chunk where
  text := Python.text "Passage."
  page := 1
  ord := 0
  charStart := 0
  charEnd := 8
  tokenCount := 2
  embedding := some [.finite 1]

def sampleRow (id : Nat) (tenantId : String) : DocumentRow where
  id := ⟨BitVec.ofNat 128 id⟩
  tenantId
  filename := "a.pdf"
  sha256 := "00"
  mediaType := .pdf
  createdAt := 0

def sampleAdapters : Adapters where
  uuid5 id _ := ⟨id.bits + 100⟩
  dimension := 1
  functions :=
    { cosineDistance := fun _ _ => 0
      textMatches := fun text query => text = query
      textRank := fun _ _ => 1 }
  ledger := { limit := 1000 }

def besideUmbrella : Tables where
  database :=
    { documents := [sampleRow 1 "acme", sampleRow 2 "umbrella"]
      chunks := [{ id := ⟨102⟩, tenantId := "umbrella", documentId := ⟨2⟩, chunk := sampleChunk }] }

def besideGlobex : Tables where
  database := { documents := [sampleRow 3 "globex", sampleRow 1 "acme"] }

theorem tenant_noninterference_sample :
    let surroundings : Surroundings := { choices := fun _ => giving 9, today := 0 }
    let mutation : Mutation := .replaceChunksAndEntities ⟨1⟩ [sampleChunk] []
    let first := mutation.run sampleAdapters surroundings "acme" besideUmbrella
    let second := mutation.run sampleAdapters surroundings "acme" besideGlobex
    first.1 = second.1 ∧ first.2.ofTenant "acme" = second.2.ofTenant "acme" ∧
      first.2.database.chunks.length = 2 ∧
      (mutation.run sampleAdapters surroundings "umbrella" besideUmbrella).2.ofTenant "acme" =
        besideUmbrella.ofTenant "acme" ∧
      ([⟨"acme", mutation, surroundings⟩, ⟨"umbrella", mutation, surroundings⟩].foldl
          (Request.run sampleAdapters) besideUmbrella).ofTenant "acme" =
        ([⟨"acme", mutation, surroundings⟩].foldl (Request.run sampleAdapters)
          besideGlobex).ofTenant "acme" := by
  intro surroundings mutation first second
  have hFirst : besideUmbrella.database.Consistent :=
    ⟨⟨by unfold Keyed; decide, by unfold Keyed; decide⟩, by unfold Keyed; decide,
      List.nodup_nil, List.nodup_nil⟩
  have hSecond : besideGlobex.database.Consistent :=
    ⟨⟨by unfold Keyed; decide, by unfold Keyed; decide⟩, List.nodup_nil, List.nodup_nil,
      List.nodup_nil⟩
  have hMade (id : UUID) (h : (mutation.identifiers sampleAdapters surroundings).made id) :
      id = ⟨9⟩ := by
    obtain ⟨_, rfl⟩ := h
    rfl
  have newFirst : mutation.MakesNew sampleAdapters surroundings "acme" besideUmbrella := by
    refine ⟨⟨fun row hRow _ hId => ?_, fun row hRow => ?_, fun row hRow _ id hOwn hId => ?_,
      fun row hRow => ?_⟩, fun row hRow => ?_⟩
    · exact (show ∀ row ∈ besideUmbrella.database.documents, row.id ≠ ⟨9⟩ by decide) row hRow
        (hMade _ hId)
    · cases hRow
    · obtain ⟨index, _, hIndex⟩ := hId
      have hOther : ∀ row ∈ besideUmbrella.database.documents, row.tenantId = "acme" →
          (⟨102⟩ : UUID) ≠ sampleAdapters.uuid5 row.id "" := by decide
      cases List.mem_singleton.mp hRow
      cases hOwn with
      | inl hNew =>
          rw [hMade id hNew] at hIndex
          exact absurd hIndex (show (⟨102⟩ : UUID) ≠ sampleAdapters.uuid5 ⟨9⟩ "" by decide)
      | inr hOld =>
          obtain ⟨row, hRow, hTenant, rfl⟩ := hOld
          exact hOther row hRow hTenant hIndex
    · cases hRow
    · cases hRow
  have newSecond : mutation.MakesNew sampleAdapters surroundings "acme" besideGlobex := by
    refine ⟨⟨fun row hRow _ hId => ?_, fun row hRow => ?_, fun row hRow => ?_,
      fun row hRow => ?_⟩, fun row hRow => ?_⟩
    · exact (show ∀ row ∈ besideGlobex.database.documents, row.id ≠ ⟨9⟩ by decide) row hRow
        (hMade _ hId)
    · cases hRow
    · cases hRow
    · cases hRow
    · cases hRow
  obtain ⟨_, hWrites, hOthers, hRuns⟩ := tenant_noninterference sampleAdapters hFirst hSecond
    (show besideUmbrella.ofTenant "acme" = besideGlobex.ofTenant "acme" by decide)
  obtain ⟨hSame, hAgree⟩ := hWrites surroundings mutation newFirst newSecond
  have hBeside := hRuns [⟨"acme", mutation, surroundings⟩, ⟨"umbrella", mutation, surroundings⟩]
    [⟨"acme", mutation, surroundings⟩] ⟨fun _ => newFirst, fun h => absurd h (by decide), trivial⟩
    ⟨fun _ => newSecond, trivial⟩ rfl
  exact ⟨hSame, hAgree, by decide +kernel, hOthers surroundings mutation "umbrella" (by decide),
    hBeside⟩

end DocInsight.Storage
