import DocInsight.Library.RowSecurity
import DocInsight.Storage.Noninterference

/-! The row security of the six tables, below the filters of the repository: whatever
statements a tenant's transactions run, rows of other tenants stay out of their reach. -/
namespace DocInsight.Storage

open DocInsight.Contracts DocInsight.Worker DocInsight.Query RowSecurity Table

/-- A row of one of the tables. -/
inductive TenantRow where
  | document (row : DocumentRow)
  | chunk (row : ChunkRow)
  | entity (row : EntityRow)
  | event (row : OutboxRow)
  | budget (row : BudgetRow)
  | usage (row : UsageRow)
  deriving DecidableEq, Repr

def TenantRow.tenantId : TenantRow → String
  | document row => row.tenantId
  | chunk row => row.tenantId
  | entity row => row.tenantId
  | event row => row.tenantId
  | budget row => row.tenantId
  | usage row => row.tenantId

/-- All rows of the tables. -/
def Tables.rows (tables : Tables) : List TenantRow :=
  tables.database.documents.map .document ++ tables.database.chunks.map .chunk ++
    tables.database.entities.map .entity ++ tables.database.outbox.map .event ++
    tables.ledger.llmBudgets.map .budget ++ tables.ledger.llmUsage.map .usage

/-- The rows as the tables they are in. -/
def tablesOf (rows : List TenantRow) : Tables where
  database :=
    { documents := rows.filterMap fun | .document row => some row | _ => none
      chunks := rows.filterMap fun | .chunk row => some row | _ => none
      entities := rows.filterMap fun | .entity row => some row | _ => none
      outbox := rows.filterMap fun | .event row => some row | _ => none }
  ledger :=
    { llmBudgets := rows.filterMap fun | .budget row => some row | _ => none
      llmUsage := rows.filterMap fun | .usage row => some row | _ => none }

/-- `NULLIF(current_setting('app.tenant_id', true), '')` -/
def currentTenant (setting : Option String) : Option String :=
  setting.filter (· ≠ "")

/-- `tenant_id = NULLIF(current_setting('app.tenant_id', true), '')` -/
def tenantIsolation (setting : Option String) (row : TenantRow) : Bool :=
  currentTenant setting = some row.tenantId

/-- `REFERENCES documents(id, tenant_id) ON DELETE CASCADE` -/
def deletedAlong : TenantRow → TenantRow → Bool
  | .document parent, .chunk row => (row.tenantId, row.documentId) = parent.ownerKey
  | .document parent, .entity row => (row.tenantId, row.documentId) = parent.ownerKey
  | .document parent, .event row => (row.tenantId, row.aggregateId) = parent.ownerKey
  | _, _ => false

/-- The keys, references and checks of the tables. -/
def Tables.legal (tables : Tables) : Bool :=
  let documents := tables.database.documents
  let owners := documents.map DocumentRow.ownerKey
  (documents.map (·.id)).Nodup && (documents.map DocumentRow.contentKey).Nodup &&
  (tables.database.chunks.map (·.id)).Nodup &&
  tables.database.chunks.all (fun row => owners.contains (row.tenantId, row.documentId)) &&
  (tables.database.entities.map (·.id)).Nodup &&
  tables.database.entities.all (fun row => owners.contains (row.tenantId, row.documentId)) &&
  (tables.database.outbox.map (·.id)).Nodup &&
  tables.database.outbox.all (fun row => owners.contains (row.tenantId, row.aggregateId)) &&
  (tables.ledger.llmBudgets.map BudgetRow.key).Nodup &&
  tables.ledger.llmBudgets.all (fun row => 0 ≤ row.charged && 0 ≤ row.reserved) &&
  (tables.ledger.llmUsage.map (·.id)).Nodup &&
  tables.ledger.llmUsage.all fun row => 0 < row.reservedTokens &&
    (tables.ledger.llmBudgets.map BudgetRow.key).contains (row.tenantId, row.day)

/-- The schema as the migrations leave it; every table forces its policy for every command. -/
def schema : Schema TenantRow (Option String) where
  visible := tenantIsolation
  writable := tenantIsolation
  cascades := deletedAlong
  legal rows := (tablesOf rows).legal

theorem schema_isolates : schema.Isolates TenantRow.tenantId currentTenant where
  visible _ _ h := of_decide_eq_true h
  writable _ _ h := of_decide_eq_true h
  cascades parent row h := by
    cases parent with
    | document parent =>
        cases row with
        | chunk row => exact congrArg Prod.fst (of_decide_eq_true h)
        | entity row => exact congrArg Prod.fst (of_decide_eq_true h)
        | event row => exact congrArg Prod.fst (of_decide_eq_true h)
        | document | budget | usage => cases h
    | chunk | entity | event | budget | usage => cases h

/-- Whatever statements run in interleaved transactions of pooled connections, without any
filter of their own: a tenant that no transaction is bound to keeps its rows, and none of them
is shown; and what a statement is shown belongs to the tenant that its own transaction was
bound to, which no earlier transaction of the connection has left behind. -/
theorem row_security (tables : Tables) (actions : List (Action TenantRow (Option String))) :
    let reached (actions : List (Action TenantRow (Option String))) :=
      (Server.idle none tables.rows).run schema none actions
    (∀ tenant, (∀ connection setting, .set connection setting ∈ actions →
        currentTenant setting ≠ some tenant) →
      ownedBy TenantRow.tenantId tenant (reached actions).committed =
          ownedBy TenantRow.tenantId tenant tables.rows ∧
        ∀ answer ∈ (reached actions).answers, ∀ row ∈ answer.2, row.tenantId ≠ tenant) ∧
    ∀ first connection statement rest, actions = first ++ .execute connection statement :: rest →
      ∀ answer ∈ (reached (first ++ [.execute connection statement])).answers,
        answer ∈ (reached first).answers ∨ ∀ row ∈ answer.2,
          currentTenant (bound none connection first) = some row.tenantId := by
  intro reached
  constructor
  · intro tenant hUnbound
    have hUnset : currentTenant none ≠ some tenant := fun h => by cases h
    have untouched : Untouched TenantRow.tenantId currentTenant tenant
        (ownedBy TenantRow.tenantId tenant tables.rows) (Server.idle none tables.rows) :=
      ⟨rfl, fun _ => hUnset, fun _ _ h => (List.not_mem_nil h).elim,
        fun _ h => (List.not_mem_nil h).elim⟩
    have h := untouched.run schema_isolates hUnset hUnbound
    exact ⟨h.committed, h.answers⟩
  · intro first connection statement rest _ answer hAnswer
    apply answers_bound schema_isolates first tables.rows connection statement
    simpa [reached, Server.run, List.foldl_append] using hAnswer

section Transparent
variable {tenant : String} {tables : Tables}

theorem tablesOf_rows (tables : Tables) : tablesOf tables.rows = tables := by
  simp [tablesOf, Tables.rows, List.filterMap_append, List.filterMap_map]

theorem currentTenant_some (hTenant : tenant ≠ "") : currentTenant (some tenant) = some tenant := by
  simp [currentTenant, hTenant]

theorem filter_map_isolated {Row : Type} {make : Row → TenantRow} {owner : Row → String}
    (hOwner : ∀ row, (make row).tenantId = owner row) (hTenant : tenant ≠ "") (rows : List Row) :
    (rows.map make).filter (tenantIsolation (some tenant)) =
      (ofOwner owner tenant rows).map make := by
  rw [List.filter_map, ofOwner]
  congr 1
  apply List.filter_congr
  intro row _
  simp [tenantIsolation, currentTenant_some hTenant, hOwner, eq_comm]

/-- What a tenant's transaction sees are the tenant's tables. -/
theorem seen_rows (hTenant : tenant ≠ "") :
    schema.seen (some tenant) tables.rows = (tables.ofTenant tenant).rows := by
  have hVisible : ∀ rows : List TenantRow, schema.seen (some tenant) rows =
      rows.filter (tenantIsolation (some tenant)) := fun _ => rfl
  simp only [hVisible, Tables.rows, List.filter_append,
    @filter_map_isolated tenant _ TenantRow.document DocumentRow.tenantId (fun _ => rfl) hTenant,
    @filter_map_isolated tenant _ TenantRow.chunk ChunkRow.tenantId (fun _ => rfl) hTenant,
    @filter_map_isolated tenant _ TenantRow.entity EntityRow.tenantId (fun _ => rfl) hTenant,
    @filter_map_isolated tenant _ TenantRow.event OutboxRow.tenantId (fun _ => rfl) hTenant,
    @filter_map_isolated tenant _ TenantRow.budget BudgetRow.tenantId (fun _ => rfl) hTenant,
    @filter_map_isolated tenant _ TenantRow.usage UsageRow.tenantId (fun _ => rfl) hTenant]
  rfl

/-- A row is among those of its tenant. -/
theorem mem_rows_ofTenant {row : TenantRow} :
    row ∈ (tables.ofTenant row.tenantId).rows ↔ row ∈ tables.rows := by
  cases row <;> simp [Tables.rows, Tables.ofTenant, Database.ofTenant, LedgerTables.ofTenant,
    mem_ofOwner, TenantRow.tenantId]

/-- The row security is in the way of nothing that the repository does for a tenant: what is
visible answers every read, and an operation adds rows that pass the policy and changes or
removes none but visible ones. -/
theorem row_security_transparent (adapters : Adapters) (hTenant : tenant ≠ "") :
    (∀ today (read : Read), read.run adapters today tenant
        (tablesOf (schema.seen (some tenant) tables.rows)) =
      read.run adapters today tenant tables) ∧
    ∀ surroundings (mutation : Mutation) row,
      let after := (mutation.run adapters surroundings tenant tables).2
      (row ∈ after.rows → row ∉ tables.rows → schema.writable (some tenant) row = true) ∧
      (row ∈ tables.rows → row ∉ after.rows → schema.visible (some tenant) row = true) := by
  constructor
  · intro today read
    rw [seen_rows hTenant, tablesOf_rows, Read.run_ofTenant]
  · intro surroundings mutation row after
    have hOwn : ¬(row ∈ after.rows ↔ row ∈ tables.rows) →
        tenantIsolation (some tenant) row = true := by
      intro hChanged
      by_cases hRow : tenant = row.tenantId
      · subst hRow
        simp [tenantIsolation, currentTenant_some hTenant]
      · have hSame : after.ofTenant row.tenantId = tables.ofTenant row.tenantId :=
          mutation.run_other hRow
        rw [← mem_rows_ofTenant, hSame, mem_rows_ofTenant] at hChanged
        exact absurd Iff.rfl hChanged
    exact ⟨fun hAfter hBefore => hOwn fun h => hBefore (h.mp hAfter),
      fun hBefore hAfter => hOwn fun h => hAfter (h.mpr hBefore)⟩

theorem row_security_transparent_sample :
    let surroundings : Surroundings := { choices := fun _ => giving 9, today := 0 }
    let mutation : Mutation := .replaceChunksAndEntities ⟨1⟩ [sampleChunk] []
    let added : TenantRow := .chunk ⟨⟨101⟩, "acme", ⟨1⟩, sampleChunk⟩
    added ∈ (mutation.run sampleAdapters surroundings "acme" besideUmbrella).2.rows ∧
      added ∉ besideUmbrella.rows ∧ schema.writable (some "acme") added = true := by
  intro surroundings mutation added
  have hAdded : added ∈
      (mutation.run sampleAdapters surroundings "acme" besideUmbrella).2.rows := by decide +kernel
  have hNew : added ∉ besideUmbrella.rows := by decide +kernel
  have hTransparent := (@row_security_transparent "acme" besideUmbrella sampleAdapters
    (by decide)).2 surroundings mutation added
  exact ⟨hAdded, hNew, hTransparent.1 hAdded hNew⟩

end Transparent

end DocInsight.Storage
