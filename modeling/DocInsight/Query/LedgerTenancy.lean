import DocInsight.Library.Partition
import DocInsight.Query.Usage

/-! The ledger's statements for a tenant are about that tenant's rows. -/
namespace DocInsight.Query

open DocInsight.Contracts Table

/-- The rows of one tenant. -/
def LedgerTables.ofTenant (tenant : String) (tables : LedgerTables) : LedgerTables where
  llmBudgets := ofOwner BudgetRow.tenantId tenant tables.llmBudgets
  llmUsage := ofOwner UsageRow.tenantId tenant tables.llmUsage

namespace PostgresUsageLedger
variable {ledger : PostgresUsageLedger} {tenant other : String} {today : Day}
  {tables after : LedgerTables}

theorem budget_ofTenant (tenant : String) (today : Day) (budgets : List BudgetRow) :
    select BudgetRow.key (tenant, today) (ofOwner BudgetRow.tenantId tenant budgets) =
      select BudgetRow.key (tenant, today) budgets :=
  select_ofOwner fun _ _ hKey => congrArg Prod.fst hKey

theorem summary_ofTenant (ledger : PostgresUsageLedger) (today : Day) (tenant : String)
    (tables : LedgerTables) :
    ledger.summary today tenant (tables.ofTenant tenant) = ledger.summary today tenant tables := by
  have hUsage : (tables.ofTenant tenant).llmUsage.filter (fun row =>
      row.tenantId = tenant ∧ row.day = today) = tables.llmUsage.filter (fun row =>
        row.tenantId = tenant ∧ row.day = today) :=
    filter_ofOwner fun row _ hRow => (of_decide_eq_true hRow).1
  have hTotals : ledger.totals today tenant (tables.ofTenant tenant) =
      ledger.totals today tenant tables := by
    rw [totals, LedgerTables.ofTenant, budget_ofTenant]
    rw [LedgerTables.ofTenant] at hUsage
    rw [hUsage, totals]
  rw [summary, hTotals, summary]

theorem upsertBudget_ofTenant (tokens : Int) (budgets : List BudgetRow) :
    ledger.upsertBudget tenant today tokens (ofOwner BudgetRow.tenantId tenant budgets) =
      (ledger.upsertBudget tenant today tokens budgets).map fun (day, after) =>
        (day, ofOwner BudgetRow.tenantId tenant after) := by
  rw [upsertBudget, upsertBudget, budget_ofTenant]
  have hReserve : updateWhere (fun old => old.key = (tenant, today)) (·.reserve tokens)
      (ofOwner BudgetRow.tenantId tenant budgets) = ofOwner BudgetRow.tenantId tenant
        (updateWhere (fun old => old.key = (tenant, today)) (·.reserve tokens) budgets) := by
    rw [ofOwner_updateWhere]
    exact fun row _ => rfl
  by_cases hEmpty : tenant = ""
  · rw [if_pos hEmpty, if_pos hEmpty]
    rfl
  · rw [if_neg hEmpty, if_neg hEmpty]
    cases select BudgetRow.key (tenant, today) budgets with
    | none =>
        simp only
        split_ifs
        · simp [Except.map, ofOwner]
        · rfl
    | some row =>
        simp only [hReserve]
        split_ifs <;> rfl

theorem insertUsage_ofTenant {row : UsageRow} {usage : List UsageRow}
    (hTenant : row.tenantId = tenant)
    (hFresh : ∀ old ∈ usage, old.tenantId ≠ tenant → old.id ≠ row.id) :
    insertUsage row (ofOwner UsageRow.tenantId tenant usage) =
      (insertUsage row usage).map (ofOwner UsageRow.tenantId tenant) := by
  have hUsed : select UsageRow.id row.id (ofOwner UsageRow.tenantId tenant usage) =
      select UsageRow.id row.id usage := by
    apply select_ofOwner
    intro old hOld hId
    by_contra hOther
    exact hFresh old hOld hOther hId
  have hRow : ofOwner UsageRow.tenantId tenant [row] = [row] :=
    ofOwner_of_all fun new hNew => List.mem_singleton.mp hNew ▸ hTenant
  rw [insertUsage, insertUsage, hUsed]
  split_ifs
  · simp [Except.map, hRow]
  · rfl

/-- A reservation is settled by the tenant's rows, and is one in them. -/
theorem reserve_ofTenant {identifier : UUID} (tokens : Int) (model : String)
    (hFresh : ∀ row ∈ tables.llmUsage, row.tenantId ≠ tenant → row.id ≠ identifier) :
    ledger.reserve today identifier tenant tokens model (tables.ofTenant tenant) =
      (ledger.reserve today identifier tenant tokens model tables).map fun (id, after) =>
        (id, after.ofTenant tenant) := by
  rw [reserve, reserve]
  split_ifs
  · rfl
  · rfl
  · simp only [LedgerTables.ofTenant, upsertBudget_ofTenant]
    cases ledger.upsertBudget tenant today tokens tables.llmBudgets with
    | error error => rfl
    | ok answer =>
        obtain ⟨_ | day, llmBudgets⟩ := answer
        · rfl
        · simp only [Except.map]
          rw [insertUsage_ofTenant rfl hFresh]
          cases insertUsage _ tables.llmUsage with
          | error error => rfl
          | ok llmUsage => rfl

theorem reservedRow_ofTenant (reservation : UUID) :
    reservedRow tenant reservation (tables.ofTenant tenant) =
      reservedRow tenant reservation tables := by
  apply find?_ofOwner
  intro row _ hOpen
  simp only [UsageRow.openFor, Bool.and_eq_true, decide_eq_true_eq] at hOpen
  exact hOpen.1.2

theorem settleBudget_ofTenant (day : Day) (reserved charged : Int) (budgets : List BudgetRow) :
    settleBudget tenant day reserved charged (ofOwner BudgetRow.tenantId tenant budgets) =
      (settleBudget tenant day reserved charged budgets).map
        (ofOwner BudgetRow.tenantId tenant) := by
  have hSettle : updateWhere (fun row => row.key = (tenant, day)) (·.settle reserved charged)
      (ofOwner BudgetRow.tenantId tenant budgets) = ofOwner BudgetRow.tenantId tenant
        (updateWhere (fun row => row.key = (tenant, day)) (·.settle reserved charged) budgets) := by
    rw [ofOwner_updateWhere]
    exact fun row _ => rfl
  have hValid : ((ofOwner BudgetRow.tenantId tenant budgets).all fun row =>
      !decide (row.key = (tenant, day)) || (row.settle reserved charged).valid) =
        budgets.all fun row =>
          !decide (row.key = (tenant, day)) || (row.settle reserved charged).valid := by
    rw [Bool.eq_iff_iff, List.all_eq_true, List.all_eq_true]
    constructor
    · intro hOwn row hRow
      by_cases hKey : row.key = (tenant, day)
      · exact hOwn row (mem_ofOwner.mpr ⟨hRow, congrArg Prod.fst hKey⟩)
      · simp [hKey]
    · exact fun hAll row hRow => hAll row (mem_ofOwner.mp hRow).1
  simp only [settleBudget, hValid, hSettle]
  split_ifs <;> rfl

/-- So is a settlement. -/
theorem settle_ofTenant (reservation : UUID) (usage : Option TokenUsage) (outcome : String) :
    settle tenant reservation usage outcome (tables.ofTenant tenant) =
      (settle tenant reservation usage outcome tables).map fun (_, after) =>
        ((), after.ofTenant tenant) := by
  rw [settle, settle, reservedRow_ofTenant]
  split_ifs
  · rfl
  · cases reservedRow tenant reservation tables with
    | none => rfl
    | some row =>
        simp only [LedgerTables.ofTenant, settleBudget_ofTenant]
        split_ifs
        · rfl
        · cases settleBudget tenant row.day row.reservedTokens (row.charge usage)
            tables.llmBudgets with
          | error error => rfl
          | ok llmBudgets =>
              simp only [Except.map]
              rw [ofOwner_updateWhere]
              exact fun row _ => rfl

theorem reserve_other {identifier reservation : UUID} {tokens : Int} {model : String}
    (h : ledger.reserve today identifier other tokens model tables = .ok (reservation, after))
    (hOther : other ≠ tenant) : after.ofTenant tenant = tables.ofTenant tenant := by
  obtain ⟨_, _, _, _, hUsage, hBudgets⟩ := reserve_cases h
  have hSame : ofOwner BudgetRow.tenantId tenant after.llmBudgets =
      ofOwner BudgetRow.tenantId tenant tables.llmBudgets := by
    cases hBudgets with
    | inl hNew => simp [hNew.2, ofOwner, hOther]
    | inr hOld =>
        obtain ⟨row, _, _, hAfter⟩ := hOld
        rw [hAfter, ofOwner_updateWhere_other]
        · exact fun old _ => rfl
        · intro old hOld hTenant
          exact hOther ((congrArg Prod.fst (of_decide_eq_true hOld)).symm.trans hTenant)
  rw [LedgerTables.ofTenant, hSame, hUsage]
  simp [LedgerTables.ofTenant, ofOwner, hOther]

theorem settle_other {reservation : UUID} {usage : Option TokenUsage} {outcome : String}
    (h : settle other reservation usage outcome tables = .ok ((), after))
    (hOther : other ≠ tenant) : after.ofTenant tenant = tables.ofTenant tenant := by
  cases settle_cases h with
  | inl hNone => rw [hNone.2]
  | inr hSettled =>
      obtain ⟨row, _, hUsage, hBudgets⟩ := hSettled
      rw [LedgerTables.ofTenant, hUsage, hBudgets, ofOwner_updateWhere_other,
        ofOwner_updateWhere_other, LedgerTables.ofTenant]
      · exact fun old _ => rfl
      · intro old hOpen hTenant
        simp only [UsageRow.openFor, Bool.and_eq_true, decide_eq_true_eq] at hOpen
        exact hOther (hOpen.1.2.symm.trans hTenant)
      · exact fun old _ => rfl
      · intro old hOld hTenant
        exact hOther ((congrArg Prod.fst (of_decide_eq_true hOld)).symm.trans hTenant)

end PostgresUsageLedger

end DocInsight.Query
