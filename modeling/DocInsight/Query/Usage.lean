import DocInsight.Contracts.Usage
import DocInsight.Library.Table

/-! The token ledger over its two tables. A transaction reads and writes whole
tables and commits or leaves them as they were; the locks it holds until then make
it one step for every other caller. -/
namespace DocInsight.Query

open DocInsight.Contracts Table

/-- A UTC calendar day, counted from some fixed one. -/
abbrev Day := Int

/-- What a `bigint` column can hold. -/
def bigint (value : Int) : Bool := -2 ^ 63 ≤ value && value < 2 ^ 63

structure BudgetRow where
  tenantId : String
  day : Day
  charged : Int := 0
  reserved : Int := 0
  deriving DecidableEq, Repr

structure UsageRow where
  id : UUID
  tenantId : String
  day : Day
  model : String
  reservedTokens : Int
  inputTokens : Int := 0
  outputTokens : Int := 0
  cachedInputTokens : Int := 0
  requestId : Option String := none
  outcome : String := "reserved"
  deriving DecidableEq, Repr

namespace BudgetRow

def key (row : BudgetRow) : String × Day := (row.tenantId, row.day)

/-- The two checks of the table and the range of its columns. -/
def valid (row : BudgetRow) : Bool :=
  0 ≤ row.charged && 0 ≤ row.reserved && bigint row.charged && bigint row.reserved

def reserve (tokens : Int) (row : BudgetRow) : BudgetRow :=
  { row with reserved := row.reserved + tokens }

def settle (reserved charged : Int) (row : BudgetRow) : BudgetRow :=
  { row with reserved := row.reserved - reserved, charged := row.charged + charged }

@[simp] theorem key_reserve (tokens : Int) (row : BudgetRow) :
    (row.reserve tokens).key = row.key := rfl

@[simp] theorem key_settle (reserved charged : Int) (row : BudgetRow) :
    (row.settle reserved charged).key = row.key := rfl

end BudgetRow

namespace UsageRow

/-- The foreign key to the budget of the row's day. -/
def budget (row : UsageRow) : String × Day := (row.tenantId, row.day)

def valid (row : UsageRow) : Bool :=
  0 < row.reservedTokens && bigint row.reservedTokens && bigint row.inputTokens &&
    bigint row.outputTokens && bigint row.cachedInputTokens

/-- The condition of the settling update. -/
def openFor (tenant : String) (reservation : UUID) (row : UsageRow) : Bool :=
  row.id = reservation && row.tenantId = tenant && row.outcome = "reserved"

def settle (actual : TokenUsage) (outcome : String) (row : UsageRow) : UsageRow :=
  { row with
    inputTokens := actual.inputTokens
    outputTokens := actual.outputTokens
    cachedInputTokens := actual.cachedInputTokens
    requestId := actual.requestId
    outcome := outcome }

@[simp] theorem id_settle (actual : TokenUsage) (outcome : String) (row : UsageRow) :
    (row.settle actual outcome).id = row.id := rfl

@[simp] theorem budget_settle (actual : TokenUsage) (outcome : String) (row : UsageRow) :
    (row.settle actual outcome).budget = row.budget := rfl

@[simp] theorem reservedTokens_settle (actual : TokenUsage) (outcome : String)
    (row : UsageRow) : (row.settle actual outcome).reservedTokens = row.reservedTokens := rfl

@[simp] theorem outcome_settle (actual : TokenUsage) (outcome : String) (row : UsageRow) :
    (row.settle actual outcome).outcome = outcome := rfl

/-- Unknown usage charges the whole reservation. -/
def charge (row : UsageRow) : Option TokenUsage → Int
  | some usage => usage.total
  | none => row.reservedTokens

theorem charge_congr {first second : UsageRow}
    (h : first.reservedTokens = second.reservedTokens) (usage : Option TokenUsage) :
    first.charge usage = second.charge usage := by
  cases usage with
  | none => exact h
  | some report => rfl

end UsageRow

structure LedgerTables where
  llmBudgets : List BudgetRow := []
  llmUsage : List UsageRow := []
  deriving DecidableEq, Repr

/-- A refusal, or whatever the database raises. -/
inductive LedgerError where
  | budgetExceeded (refusal : BudgetExceeded)
  | integrity
  deriving DecidableEq, Repr

/-- What a transaction leaves behind: its tables, or the ones it started from. -/
def LedgerTables.commit {Result : Type} (before : LedgerTables)
    (body : Except LedgerError (Result × LedgerTables)) :
    Except LedgerError Result × LedgerTables :=
  match body with
  | .ok (result, after) => (.ok result, after)
  | .error error => (.error error, before)

structure PostgresUsageLedger where
  limit : Int
  deriving DecidableEq, Repr

namespace PostgresUsageLedger

/-- The conditional upsert and the day it returns. The insert branch has no test of
the limit; the row security policy admits no row of the empty tenant. -/
def upsertBudget (ledger : PostgresUsageLedger) (tenant : String) (today : Day) (tokens : Int)
    (budgets : List BudgetRow) : Except LedgerError (Option Day × List BudgetRow) :=
  if tenant = "" then .error .integrity
  else match select BudgetRow.key (tenant, today) budgets with
    | none =>
        let row : BudgetRow := { tenantId := tenant, day := today, reserved := tokens }
        if row.valid then .ok (some today, budgets ++ [row]) else .error .integrity
    | some row =>
        if row.charged + row.reserved + tokens ≤ ledger.limit then
          if (row.reserve tokens).valid then
            .ok (some row.day,
              updateWhere (fun old => old.key = (tenant, today)) (·.reserve tokens) budgets)
          else .error .integrity
        else .ok (none, budgets)

/-- The primary key refuses an identifier in use, and the columns what they cannot hold. -/
def insertUsage (row : UsageRow) (usage : List UsageRow) :
    Except LedgerError (List UsageRow) :=
  if row.valid && textColumn row.model && (select UsageRow.id row.id usage).isNone then
    .ok (usage ++ [row])
  else .error .integrity

/-- Atomically reserve capacity of the UTC day or refuse before inference. The day
and the identifier are what the clock and the random source answer. -/
def reserve (ledger : PostgresUsageLedger) (today : Day) (identifier : UUID) (tenant : String)
    (tokens : Int) (model : String) (tables : LedgerTables) :
    Except LedgerError (UUID × LedgerTables) :=
  if tokens < 1 ∨ ledger.limit < tokens then .error (.budgetExceeded ⟨"daily_budget"⟩)
  else if !textColumn tenant then .error .integrity
  else
    match ledger.upsertBudget tenant today tokens tables.llmBudgets with
    | .error error => .error error
    | .ok (none, _) => .error (.budgetExceeded ⟨"daily_budget"⟩)
    | .ok (some day, llmBudgets) =>
        let row : UsageRow :=
          { id := identifier, tenantId := tenant, day := day, model := model,
            reservedTokens := tokens }
        match insertUsage row tables.llmUsage with
        | .error error => .error error
        | .ok llmUsage => .ok (identifier, { llmBudgets, llmUsage })

/-- The row a settlement finds: the tenant's own reservation, still unsettled. -/
def reservedRow (tenant : String) (reservation : UUID) (tables : LedgerTables) :
    Option UsageRow :=
  tables.llmUsage.find? (·.openFor tenant reservation)

/-- Move a settled reservation's tokens within the budget of its day. -/
def settleBudget (tenant : String) (day : Day) (reserved charged : Int)
    (budgets : List BudgetRow) : Except LedgerError (List BudgetRow) :=
  let wanted (row : BudgetRow) : Bool := row.key = (tenant, day)
  if budgets.all fun row => !wanted row || (row.settle reserved charged).valid then
    .ok (updateWhere wanted (·.settle reserved charged) budgets)
  else .error .integrity

/-- Every text that a settlement sends fits a column. -/
def settlementText (tenant : String) (actual : TokenUsage) (outcome : String) : Bool :=
  textColumn tenant && actual.requestId.all textColumn && textColumn outcome

/-- Unknown usage charges the whole reservation; repeated settlement is a no-op. Texts are
refused before any row is looked for. -/
def settle (tenant : String) (reservation : UUID) (usage : Option TokenUsage)
    (outcome : String) (tables : LedgerTables) : Except LedgerError (Unit × LedgerTables) :=
  let actual := usage.getD {}
  if !settlementText tenant actual outcome then .error .integrity
  else
    match reservedRow tenant reservation tables with
    | none => .ok ((), tables)
    | some row =>
        if !(row.settle actual outcome).valid then .error .integrity
        else
          let llmUsage :=
            updateWhere (·.openFor tenant reservation) (·.settle actual outcome) tables.llmUsage
          match settleBudget tenant row.day row.reservedTokens (row.charge usage)
              tables.llmBudgets with
          | .error error => .error error
          | .ok llmBudgets => .ok ((), { llmBudgets, llmUsage })

/-- Current charges, outstanding reservations and provider counts of the UTC day. -/
structure Summary where
  dailyLimit : Int
  chargedTokens : Int
  reservedTokens : Int
  requests : Nat
  inputTokens : Int
  outputTokens : Int
  cachedInputTokens : Int
  deriving DecidableEq, Repr

/-- What the tables hold of a tenant's day. -/
def totals (ledger : PostgresUsageLedger) (today : Day) (tenant : String)
    (tables : LedgerTables) : Summary :=
  let budget := select BudgetRow.key (tenant, today) tables.llmBudgets
  let usage := tables.llmUsage.filter fun row => row.tenantId = tenant ∧ row.day = today
  { dailyLimit := ledger.limit
    chargedTokens := (budget.map BudgetRow.charged).getD 0
    reservedTokens := (budget.map BudgetRow.reserved).getD 0
    requests := usage.length
    inputTokens := (usage.map UsageRow.inputTokens).sum
    outputTokens := (usage.map UsageRow.outputTokens).sum
    cachedInputTokens := (usage.map UsageRow.cachedInputTokens).sum }

def summary (ledger : PostgresUsageLedger) (today : Day) (tenant : String)
    (tables : LedgerTables) : Except LedgerError Summary :=
  if !textColumn tenant then .error .integrity else .ok (ledger.totals today tenant tables)

/-- The conditional upsert answers a day in two cases: it opened the budget with
the reservation, or the sum stayed within the limit. -/
theorem upsertBudget_cases {ledger : PostgresUsageLedger} {tenant : String} {today day : Day}
    {tokens : Int} {budgets after : List BudgetRow}
    (h : ledger.upsertBudget tenant today tokens budgets = .ok (some day, after)) :
    day = today ∧
      ((select BudgetRow.key (tenant, today) budgets = none ∧
          after = budgets ++ [{ tenantId := tenant, day := today, reserved := tokens }]) ∨
        ∃ row, select BudgetRow.key (tenant, today) budgets = some row ∧
          row.charged + row.reserved + tokens ≤ ledger.limit ∧
          after = updateWhere (fun old => old.key = (tenant, today)) (·.reserve tokens)
            budgets) := by
  unfold upsertBudget at h
  split_ifs at h with hTenant
  cases hSelect : select BudgetRow.key (tenant, today) budgets with
  | none =>
      simp only [hSelect] at h
      split_ifs at h
      cases h
      exact ⟨rfl, Or.inl ⟨rfl, rfl⟩⟩
  | some row =>
      simp only [hSelect] at h
      split_ifs at h with hLimit hValid
      · have hDay : row.day = today := congrArg Prod.snd (select_mem hSelect).2
        cases h
        exact ⟨hDay, Or.inr ⟨row, rfl, hLimit, rfl⟩⟩
      · cases h

/-- Everything a committed reservation does: open the day's budget or add to it
within the limit, and record one new row. -/
theorem reserve_cases {ledger : PostgresUsageLedger} {today : Day} {identifier : UUID}
    {tenant : String} {tokens : Int} {model : String} {tables after : LedgerTables}
    {reservation : UUID}
    (h : ledger.reserve today identifier tenant tokens model tables = .ok (reservation, after)) :
    reservation = identifier ∧ 0 < tokens ∧ tokens ≤ ledger.limit ∧
      select UsageRow.id identifier tables.llmUsage = none ∧
      after.llmUsage = tables.llmUsage ++
        [{ id := identifier, tenantId := tenant, day := today, model := model,
           reservedTokens := tokens }] ∧
      ((select BudgetRow.key (tenant, today) tables.llmBudgets = none ∧
          after.llmBudgets = tables.llmBudgets ++
            [{ tenantId := tenant, day := today, reserved := tokens }]) ∨
        ∃ row, select BudgetRow.key (tenant, today) tables.llmBudgets = some row ∧
          row.charged + row.reserved + tokens ≤ ledger.limit ∧
          after.llmBudgets = updateWhere (fun old => old.key = (tenant, today))
            (·.reserve tokens) tables.llmBudgets) := by
  unfold reserve at h
  split_ifs at h with hBound hText
  obtain ⟨hLower, hUpper⟩ := not_or.mp hBound
  cases hUpsert : ledger.upsertBudget tenant today tokens tables.llmBudgets with
  | error error => simp [hUpsert] at h
  | ok answer =>
      obtain ⟨_ | day, llmBudgets⟩ := answer
      · simp [hUpsert] at h
      · obtain ⟨rfl, hBudgets⟩ := upsertBudget_cases hUpsert
        simp only [hUpsert, insertUsage, Bool.and_eq_true, Option.isNone_iff_eq_none] at h
        split_ifs at h with hInsert
        cases h
        exact ⟨rfl, by omega, by omega, hInsert.2, rfl, hBudgets⟩

/-- Everything a settlement does: nothing when it finds no reservation, otherwise
mark the row and move its tokens within the budget of the row's own day. -/
theorem settle_cases {tenant : String} {reservation : UUID} {usage : Option TokenUsage}
    {outcome : String} {tables after : LedgerTables}
    (h : settle tenant reservation usage outcome tables = .ok ((), after)) :
    (reservedRow tenant reservation tables = none ∧ after = tables) ∨
    ∃ row, reservedRow tenant reservation tables = some row ∧
      after.llmUsage = updateWhere (·.openFor tenant reservation)
        (·.settle (usage.getD {}) outcome) tables.llmUsage ∧
      after.llmBudgets = updateWhere (fun old => old.key = (tenant, row.day))
        (·.settle row.reservedTokens (row.charge usage)) tables.llmBudgets := by
  simp only [settle] at h
  split_ifs at h
  cases hRow : reservedRow tenant reservation tables with
  | none =>
      simp only [hRow] at h
      cases h
      exact Or.inl ⟨rfl, rfl⟩
  | some row =>
      simp only [hRow, settleBudget] at h
      split_ifs at h with hValid hBudgets
      cases h
      exact Or.inr ⟨row, rfl, rfl, rfl⟩

end PostgresUsageLedger

end DocInsight.Query
