import DocInsight.Library.Simulation
import DocInsight.Query.LedgerInvariant
import DocInsight.Testing.Rows

/-! The usage ledger that provider tests use in place of the one over PostgreSQL. It keeps
the reservations only and recounts them for every answer. -/
namespace DocInsight.Testing

open DocInsight.Contracts DocInsight.Python DocInsight.Query Simulation Table

structure UsageEntry where
  tenant : String
  tokens : Int
  usage : Option TokenUsage
  state : String
  deriving DecidableEq, Repr

/-- What a settled reservation has cost: what was reported, or all of it. -/
def UsageEntry.charge (entry : UsageEntry) : Int :=
  match entry.usage with
  | some usage => usage.total
  | none => entry.tokens

/-- A count that was reported for a reservation, if one was. -/
def UsageEntry.count (field : TokenUsage → Nat) (entry : UsageEntry) : Int :=
  ((entry.usage.map field).getD 0 : Nat)

structure InMemoryUsageLedger where
  limit : Int
  entries : List (UUID × UsageEntry) := []
  deriving DecidableEq, Repr

namespace InMemoryUsageLedger

def summary (tenant : String) (ledger : InMemoryUsageLedger) : PostgresUsageLedger.Summary :=
  let rows := (ledger.entries.map Prod.snd).filter fun entry => entry.tenant = tenant
  { dailyLimit := ledger.limit
    chargedTokens := ((rows.filter fun entry => entry.state ≠ "reserved").map UsageEntry.charge).sum
    reservedTokens := ((rows.filter fun entry => entry.state = "reserved").map UsageEntry.tokens).sum
    requests := rows.length
    inputTokens := (rows.map (UsageEntry.count TokenUsage.inputTokens)).sum
    outputTokens := (rows.map (UsageEntry.count TokenUsage.outputTokens)).sum
    cachedInputTokens := (rows.map (UsageEntry.count TokenUsage.cachedInputTokens)).sum }

def reserve (identifier : UUID) (tenant : String) (tokens : Int) (ledger : InMemoryUsageLedger) :
    Except LedgerError UUID × InMemoryUsageLedger :=
  let summary := ledger.summary tenant
  if tokens < 1 ∨ ledger.limit < summary.chargedTokens + summary.reservedTokens + tokens then
    (.error (.budgetExceeded ⟨"daily_budget"⟩), ledger)
  else
    (.ok identifier,
      { ledger with
        entries := setItem ledger.entries identifier ⟨tenant, tokens, none, "reserved"⟩ })

def settle (tenant : String) (reservation : UUID) (usage : Option TokenUsage) (outcome : String)
    (ledger : InMemoryUsageLedger) : InMemoryUsageLedger :=
  match getItem ledger.entries reservation with
  | some row =>
      if row.tenant = tenant ∧ row.state = "reserved" then
        { ledger with
          entries := setItem ledger.entries reservation ⟨tenant, row.tokens, usage, outcome⟩ }
      else ledger
  | none => ledger

end InMemoryUsageLedger

/-- A call of a ledger, with the identifier that a reservation would get. -/
inductive UsageCall where
  | reserve (identifier : UUID) (tenant : String) (tokens : Int) (model : String)
  | settle (tenant : String) (reservation : UUID) (usage : Option TokenUsage) (outcome : String)
  | summary (tenant : String)

abbrev UsageCall.Answer : UsageCall → Type
  | reserve _ _ _ _ => Except LedgerError UUID
  | settle _ _ _ _ => Except LedgerError Unit
  | summary _ => Except LedgerError PostgresUsageLedger.Summary

/-- The ledger that recounts its reservations. -/
def recounting : Component InMemoryUsageLedger UsageCall UsageCall.Answer
  | ledger, .reserve identifier tenant tokens _ => ledger.reserve identifier tenant tokens
  | ledger, .settle tenant reservation usage outcome =>
      (.ok (), ledger.settle tenant reservation usage outcome)
  | ledger, .summary tenant => (.ok (ledger.summary tenant), ledger)

/-- The ledger that keeps counters, on one day. -/
def counting (ledger : PostgresUsageLedger) (today : Day) :
    Component LedgerSession UsageCall UsageCall.Answer
  | session, .reserve identifier tenant tokens model =>
      session.reserve ledger today identifier tenant tokens model
  | session, .settle tenant reservation usage outcome =>
      session.settle tenant reservation usage outcome
  | session, .summary tenant => (ledger.summary today tenant session.tables, session)

/-- The calls as callers make them: identifiers are fresh, and no outcome is the word for
a reservation that is still open. -/
def Ordinary (memory : InMemoryUsageLedger) : UsageCall → Prop
  | .reserve identifier _ _ _ => identifier ∉ memory.entries.map Prod.fst
  | .settle _ _ _ outcome => outcome ≠ "reserved"
  | .summary _ => True

/-- What a reservation would be charged. -/
def chargeOf (tokens : Int) : Option TokenUsage → Int
  | some usage => usage.total
  | none => tokens

/-- The texts and the amounts that a call sends fit the columns of the tables, and the tenant of
a reservation has a name. -/
def Fits (memory : InMemoryUsageLedger) : UsageCall → Prop
  | .reserve _ tenant tokens model => 1 ≤ tokens → tokens ≤ memory.limit → tenant ≠ "" ∧
      textColumn tenant = true ∧ textColumn model = true ∧
      (memory.summary tenant).chargedTokens + (memory.summary tenant).reservedTokens + tokens <
        2 ^ 63
  | .settle tenant reservation usage outcome =>
      PostgresUsageLedger.settlementText tenant (usage.getD {}) outcome = true ∧
      match getItem memory.entries reservation with
      | some entry => entry.tenant = tenant → entry.state = "reserved" →
          (usage.getD {}).inputTokens < 2 ^ 63 ∧ (usage.getD {}).outputTokens < 2 ^ 63 ∧
            (usage.getD {}).cachedInputTokens < 2 ^ 63 ∧
            (memory.summary tenant).chargedTokens + chargeOf entry.tokens usage < 2 ^ 63
      | none => True
  | .summary tenant => textColumn tenant = true

/-- What was reported for a row, if it is settled and something was. -/
def reportFor (settled : List Settlement) (row : UsageRow) : Option TokenUsage :=
  (settled.find? (·.reservation = row.id)).bind Settlement.usage

/-- A row of the tables as the entry that the fake ledger has for it. -/
def entryOf (settled : List Settlement) (row : UsageRow) : UsageEntry :=
  ⟨row.tenantId, row.reservedTokens, reportFor settled row, row.outcome⟩

/-- A row of the day with the counts that its entry has, within the checks of its table. -/
structure Counted (settled : List Settlement) (today : Day) (row : UsageRow) : Prop where
  day : row.day = today
  inputTokens : row.inputTokens = (entryOf settled row).count TokenUsage.inputTokens
  outputTokens : row.outputTokens = (entryOf settled row).count TokenUsage.outputTokens
  cachedInputTokens : row.cachedInputTokens =
    (entryOf settled row).count TokenUsage.cachedInputTokens
  valid : row.valid = true

/-- The fake ledger has an entry for every row of the day. -/
structure Mirrors (ledger : PostgresUsageLedger) (today : Day) (memory : InMemoryUsageLedger)
    (session : LedgerSession) : Prop where
  invariant : session.Invariant ledger
  limit : memory.limit = ledger.limit
  entries : memory.entries =
    items UsageRow.id (entryOf session.settled) session.tables.llmUsage
  rows : ∀ row ∈ session.tables.llmUsage, Counted session.settled today row
  budgets : ∀ budget ∈ session.tables.llmBudgets, budget.valid = true

section Mirrors
variable {ledger : PostgresUsageLedger} {today : Day} {memory : InMemoryUsageLedger}
  {session : LedgerSession}

/-- The entries of a tenant are its rows of the day. -/
theorem Mirrors.tenant_entries (mirrors : Mirrors ledger today memory session) (tenant : String) :
    (memory.entries.map Prod.snd).filter (fun entry => entry.tenant = tenant) =
      (session.tables.llmUsage.filter fun row => row.budget = (tenant, today)).map
        (entryOf session.settled) := by
  rw [mirrors.entries, items, List.map_map, List.filter_map]
  have hFilter : session.tables.llmUsage.filter
      ((fun entry : UsageEntry => decide (entry.tenant = tenant)) ∘
        Prod.snd ∘ fun row => (row.id, entryOf session.settled row)) =
      session.tables.llmUsage.filter fun row => row.budget = (tenant, today) := by
    apply List.filter_congr
    intro row hRow
    simp [entryOf, UsageRow.budget, (mirrors.rows row hRow).day]
  rw [hFilter]
  rfl

theorem Mirrors.reserved_eq (mirrors : Mirrors ledger today memory session) (tenant : String) :
    (memory.summary tenant).reservedTokens = session.reserved (tenant, today) := by
  rw [(mirrors.invariant.counters (tenant, today)).1]
  simp only [InMemoryUsageLedger.summary, mirrors.tenant_entries, List.filter_map, List.map_map,
    List.filter_filter, outstanding, sumWhere]
  congr 2
  apply List.filter_congr
  intro row _
  exact Bool.and_comm _ _

/-- What a settled row was charged is what its entry is. -/
theorem charge_entryOf (invariant : session.Invariant ledger) {row : UsageRow}
    (hRow : row ∈ session.tables.llmUsage) (hSettled : row.outcome ≠ "reserved") :
    (entryOf session.settled row).charge = chargedFor session.settled row := by
  obtain ⟨settlement, hMem, hId⟩ := invariant.rowsSettled row hRow hSettled
  have hFind : session.settled.find? (·.reservation = row.id) = some settlement :=
    invariant.settledOnce.select_eq_some.mpr ⟨hMem, hId⟩
  simp only [UsageEntry.charge, entryOf, reportFor, chargedFor, hFind, Option.bind_some]
  cases settlement.usage with
  | none => rfl
  | some usage => rfl

theorem Mirrors.charged_eq (mirrors : Mirrors ledger today memory session) (tenant : String) :
    (memory.summary tenant).chargedTokens = session.charged (tenant, today) := by
  rw [(mirrors.invariant.counters (tenant, today)).2]
  simp only [InMemoryUsageLedger.summary, mirrors.tenant_entries, List.filter_map, List.map_map,
    List.filter_filter, spent, sumWhere]
  have hRows : session.tables.llmUsage.filter (fun row =>
      ((fun entry : UsageEntry => decide (entry.state ≠ "reserved")) ∘ entryOf session.settled) row &&
        decide (row.budget = (tenant, today))) =
      session.tables.llmUsage.filter fun row =>
        decide (row.budget = (tenant, today)) && decide (row.outcome ≠ "reserved") := by
    apply List.filter_congr
    intro row _
    exact Bool.and_comm _ _
  rw [hRows]
  congr 1
  apply List.map_congr_left
  intro row hRow
  obtain ⟨hMem, hCondition⟩ := List.mem_filter.mp hRow
  simp only [Bool.and_eq_true, decide_eq_true_eq] at hCondition
  exact charge_entryOf mirrors.invariant hMem hCondition.2

/-- The fake ledger reports what the counters and the rows of the day say. -/
theorem Mirrors.summary_eq (mirrors : Mirrors ledger today memory session) (tenant : String) :
    memory.summary tenant = ledger.totals today tenant session.tables := by
  have hRows : session.tables.llmUsage.filter (fun row => row.tenantId = tenant ∧ row.day = today) =
      session.tables.llmUsage.filter fun row => row.budget = (tenant, today) := by
    apply List.filter_congr
    intro row _
    simp [UsageRow.budget]
  have hSum (field : TokenUsage → Nat) (value : UsageRow → Int)
      (h : ∀ row ∈ session.tables.llmUsage, value row =
        (entryOf session.settled row).count field) :
      ((session.tables.llmUsage.filter fun row => row.budget = (tenant, today)).map
        (UsageEntry.count field ∘ entryOf session.settled)).sum =
      ((session.tables.llmUsage.filter fun row => row.budget = (tenant, today)).map value).sum := by
    congr 1
    apply List.map_congr_left
    intro row hRow
    exact (h row (List.mem_of_mem_filter hRow)).symm
  have hReserved := mirrors.reserved_eq tenant
  have hCharged := mirrors.charged_eq tenant
  simp only [InMemoryUsageLedger.summary, mirrors.tenant_entries, List.length_map, List.map_map,
    LedgerSession.reserved, LedgerSession.charged] at hReserved hCharged ⊢
  simp only [PostgresUsageLedger.totals, hRows, hReserved, hCharged, mirrors.limit]
  congr 1
  · exact hSum _ _ fun row hRow => (mirrors.rows row hRow).inputTokens
  · exact hSum _ _ fun row hRow => (mirrors.rows row hRow).outputTokens
  · exact hSum _ _ fun row hRow => (mirrors.rows row hRow).cachedInputTokens

theorem Mirrors.charged_nonneg (mirrors : Mirrors ledger today memory session) (tenant : String) :
    0 ≤ session.charged (tenant, today) := by
  rw [(mirrors.invariant.counters (tenant, today)).2, spent]
  apply sumWhere_nonneg
  intro row hRow _
  exact mirrors.invariant.chargedFor_nonneg hRow session.settled

theorem Mirrors.select_entry (mirrors : Mirrors ledger today memory session) (reservation : UUID) :
    getItem memory.entries reservation =
      (select UsageRow.id reservation session.tables.llmUsage).map
        (entryOf session.settled) := by
  rw [mirrors.entries, getItem_items]

theorem bigint_of_lt {value : Int} (hNonneg : 0 ≤ value) (h : value < 2 ^ 63) :
    bigint value = true := by
  simp only [bigint, Bool.and_eq_true, decide_eq_true_eq]
  omega

theorem charge_nonneg {row : UsageRow} (hPositive : 0 < row.reservedTokens)
    (usage : Option TokenUsage) : 0 ≤ row.charge usage := by
  cases usage with
  | none => exact hPositive.le
  | some report => exact Int.natCast_nonneg _

theorem budget_valid_iff {budget : BudgetRow} : budget.valid = true ↔
    0 ≤ budget.charged ∧ 0 ≤ budget.reserved ∧ budget.charged < 2 ^ 63 ∧
      budget.reserved < 2 ^ 63 := by
  simp only [BudgetRow.valid, bigint, Bool.and_eq_true, decide_eq_true_eq]
  omega

theorem bigint_zero : bigint 0 = true := by decide

/-- A row that passes its checks is inserted under an identifier that is not in use. -/
theorem insertUsage_fresh {row : UsageRow} {usage : List UsageRow} (hValid : row.valid = true)
    (hModel : textColumn row.model = true) (hFresh : select UsageRow.id row.id usage = none) :
    PostgresUsageLedger.insertUsage row usage = .ok (usage ++ [row]) := by
  apply if_pos
  rw [hValid, hModel, hFresh]
  rfl

/-- A reservation that the limit admits and the columns can hold is committed. -/
theorem Mirrors.reserve_commits (mirrors : Mirrors ledger today memory session)
    {identifier : UUID} {tenant : String} {tokens : Int} {model : String}
    (hFresh : identifier ∉ memory.entries.map Prod.fst) (hTenant : tenant ≠ "")
    (hText : textColumn tenant = true) (hModel : textColumn model = true) (hPositive : 1 ≤ tokens)
    (hLimit : session.charged (tenant, today) + session.reserved (tenant, today) + tokens ≤
      ledger.limit)
    (hFits : session.charged (tenant, today) + session.reserved (tenant, today) + tokens <
      2 ^ 63) :
    ∃ after, ledger.reserve today identifier tenant tokens model session.tables =
      .ok (identifier, after) := by
  have hCharged := mirrors.charged_nonneg tenant
  have hReserved := mirrors.invariant.reserved_nonneg (tenant, today)
  have hAbsent : select UsageRow.id identifier session.tables.llmUsage = none := by
    rw [select_eq_none]
    intro row hRow hSame
    apply hFresh
    rw [mirrors.entries, keys_items]
    exact List.mem_map.mpr ⟨row, hRow, hSame⟩
  have hTokens : bigint tokens = true := bigint_of_lt (by omega) (by omega)
  have hPos : (0 : Int) < tokens := by omega
  have hInsert := @insertUsage_fresh
    ⟨identifier, tenant, today, model, tokens, 0, 0, 0, none, "reserved"⟩ session.tables.llmUsage
    (by simp only [UsageRow.valid, hTokens, bigint_zero, hPos, decide_true, Bool.and_true]) hModel
    hAbsent
  have hBound : ¬(tokens < 1 ∨ ledger.limit < tokens) := by omega
  cases hSelect : select BudgetRow.key (tenant, today) session.tables.llmBudgets with
  | none =>
      have hValid : ({ tenantId := tenant, day := today, reserved := tokens } :
          BudgetRow).valid = true := by
        simp only [BudgetRow.valid, hTokens, bigint_zero, hPos.le, le_refl, decide_true,
          Bool.and_true]
      simp only [PostgresUsageLedger.reserve, if_neg hBound, hText, Bool.not_true,
        Bool.false_eq_true, if_false, PostgresUsageLedger.upsertBudget, if_neg hTenant, hSelect,
        hValid, if_true, hInsert]
      exact ⟨_, rfl⟩
  | some row =>
      simp only [LedgerSession.charged, LedgerSession.reserved, hSelect, Option.map_some,
        Option.getD_some] at hLimit hFits hCharged hReserved
      have hValid : (row.reserve tokens).valid = true := by
        have hNonneg : 0 ≤ row.reserved + tokens := by omega
        simp [BudgetRow.valid, BudgetRow.reserve, hCharged, hNonneg,
          bigint_of_lt hCharged (by omega), bigint_of_lt hNonneg (by omega)]
      have hDay : row.day = today := congrArg Prod.snd (select_mem hSelect).2
      simp only [PostgresUsageLedger.reserve, if_neg hBound, hText, Bool.not_true,
        Bool.false_eq_true, if_false, PostgresUsageLedger.upsertBudget, if_neg hTenant, hSelect,
        if_pos hLimit, hValid, if_true, hDay, hInsert]
      exact ⟨_, rfl⟩

/-- A reservation that the limit does not admit is refused. -/
theorem reserve_refuses (session : LedgerSession) (identifier : UUID) {tenant : String}
    {tokens : Int} (model : String)
    (hTenant : 1 ≤ tokens → tokens ≤ ledger.limit → tenant ≠ "" ∧ textColumn tenant = true)
    (h : tokens < 1 ∨ ledger.limit <
      session.charged (tenant, today) + session.reserved (tenant, today) + tokens) :
    ledger.reserve today identifier tenant tokens model session.tables =
      .error (.budgetExceeded ⟨"daily_budget"⟩) := by
  by_cases hBound : tokens < 1 ∨ ledger.limit < tokens
  · exact if_pos hBound
  · obtain ⟨hNamed, hText⟩ := hTenant (by omega) (by omega)
    cases hSelect : select BudgetRow.key (tenant, today) session.tables.llmBudgets with
    | none =>
        simp only [LedgerSession.charged, LedgerSession.reserved, hSelect, Option.map_none,
          Option.getD_none] at h
        omega
    | some row =>
        simp only [LedgerSession.charged, LedgerSession.reserved, hSelect, Option.map_some,
          Option.getD_some] at h
        have hLimit : ¬row.charged + row.reserved + tokens ≤ ledger.limit := by omega
        simp only [PostgresUsageLedger.reserve, if_neg hBound, hText, Bool.not_true,
          Bool.false_eq_true, if_false, PostgresUsageLedger.upsertBudget, if_neg hNamed, hSelect,
          if_neg hLimit]

/-- Nothing was settled under an identifier that is not in use. -/
theorem settled_absent (invariant : session.Invariant ledger) {identifier : UUID}
    (h : select UsageRow.id identifier session.tables.llmUsage = none) :
    session.settled.find? (·.reservation = identifier) = none := by
  rw [List.find?_eq_none]
  intro settlement hSettlement hSame
  obtain ⟨other, hOther, hId, -⟩ := invariant.settledRows settlement hSettlement
  exact select_eq_none.mp h other hOther (hId.trans (of_decide_eq_true hSame))

/-- A reservation is admitted or refused alike, and the ledgers still agree. -/
theorem Mirrors.reserve (mirrors : Mirrors ledger today memory session) {identifier : UUID}
    {tenant : String} {tokens : Int} {model : String}
    (hFresh : identifier ∉ memory.entries.map Prod.fst)
    (hFits : 1 ≤ tokens → tokens ≤ ledger.limit → tenant ≠ "" ∧ textColumn tenant = true ∧
      textColumn model = true ∧
      session.charged (tenant, today) + session.reserved (tenant, today) + tokens < 2 ^ 63) :
    (memory.reserve identifier tenant tokens).1 =
        (session.reserve ledger today identifier tenant tokens model).1 ∧
      Mirrors ledger today (memory.reserve identifier tenant tokens).2
        (session.reserve ledger today identifier tenant tokens model).2 := by
  have hCharged := mirrors.charged_nonneg tenant
  have hReserved := mirrors.invariant.reserved_nonneg (tenant, today)
  have hInvariant := LedgerSession.reserve_invariant mirrors.invariant today identifier tenant
    tokens model
  simp only [InMemoryUsageLedger.reserve, mirrors.charged_eq, mirrors.reserved_eq, mirrors.limit]
  by_cases hRefused : tokens < 1 ∨ ledger.limit <
      session.charged (tenant, today) + session.reserved (tenant, today) + tokens
  · have hError := reserve_refuses session identifier model
      (fun hPositive hLimit => ⟨(hFits hPositive hLimit).1, (hFits hPositive hLimit).2.1⟩) hRefused
    simp only [if_pos hRefused, LedgerSession.reserve, hError, LedgerTables.commit]
    exact ⟨trivial, mirrors⟩
  · have hPositive : 1 ≤ tokens := by omega
    obtain ⟨hTenant, hText, hModel, hSum⟩ := hFits hPositive (by omega)
    obtain ⟨after, hCommitted⟩ := mirrors.reserve_commits hFresh hTenant hText hModel hPositive
      (by omega) hSum
    obtain ⟨-, -, -, hAbsent, hUsage, -⟩ := PostgresUsageLedger.reserve_cases hCommitted
    simp only [if_neg hRefused, LedgerSession.reserve, hCommitted, LedgerTables.commit] at hInvariant ⊢
    have hNone := settled_absent mirrors.invariant hAbsent
    refine ⟨trivial, ⟨hInvariant, rfl, ?_, ?_, ?_⟩⟩
    · show setItem memory.entries identifier ⟨tenant, tokens, none, "reserved"⟩ = _
      have hEntry : (⟨tenant, tokens, none, "reserved"⟩ : UsageEntry) =
          entryOf session.settled ⟨identifier, tenant, today, model, tokens, 0, 0, 0, none,
            "reserved"⟩ := by
        simp only [entryOf, reportFor, hNone, Option.bind_none]
      rw [hUsage, mirrors.entries, hEntry]
      exact @setItem_append _ _ _ _ UsageRow.id _ _ _
        ⟨identifier, tenant, today, model, tokens, 0, 0, 0, none, "reserved"⟩ hAbsent
        fun _ _ => rfl
    · intro row hRow
      simp only [hUsage, List.mem_append, List.mem_singleton] at hRow
      rcases hRow with hOld | rfl
      · exact mirrors.rows row hOld
      · constructor
        · rfl
        · simp [entryOf, reportFor, hNone, UsageEntry.count]
        · simp [entryOf, reportFor, hNone, UsageEntry.count]
        · simp [entryOf, reportFor, hNone, UsageEntry.count]
        · have hTokens : bigint tokens = true := bigint_of_lt (by omega) (by omega)
          have hPos : (0 : Int) < tokens := by omega
          simp only [UsageRow.valid, hTokens, bigint_zero, hPos, decide_true, Bool.and_true]
    · intro budget hBudget
      rcases mirrors.invariant.reserve_budget hCommitted hBudget with
        ⟨hOld, -⟩ | ⟨-, hBudgetCharged, hBudgetReserved, -⟩
      · exact mirrors.budgets budget hOld
      · obtain ⟨hOutstanding, hSpent⟩ := mirrors.invariant.counters (tenant, today)
        rw [← hSpent] at hBudgetCharged
        rw [← hOutstanding] at hBudgetReserved
        apply budget_valid_iff.mpr
        omega

/-- The reservation that a settlement finds is the tenant's own, still open. -/
theorem Mirrors.reservedRow_iff (mirrors : Mirrors ledger today memory session) {tenant : String}
    {reservation : UUID} {row : UsageRow} :
    PostgresUsageLedger.reservedRow tenant reservation session.tables = some row ↔
      select UsageRow.id reservation session.tables.llmUsage = some row ∧
        row.tenantId = tenant ∧ row.outcome = "reserved" := by
  constructor
  · intro hRow
    obtain ⟨hMem, hId, hTenant, hOutcome, -⟩ := mirrors.invariant.openFor_iff hRow
    exact ⟨mirrors.invariant.usage.select_eq_some.mpr ⟨hMem, hId⟩, hTenant, hOutcome⟩
  · rintro ⟨hSelect, hTenant, hOutcome⟩
    obtain ⟨hMem, hId⟩ := select_mem hSelect
    have hOpen : row.openFor tenant reservation = true := by
      simp only [UsageRow.openFor, hId, hTenant, hOutcome, decide_true, Bool.and_true]
    cases hFound : PostgresUsageLedger.reservedRow tenant reservation session.tables with
    | none => exact absurd hOpen (List.find?_eq_none.mp hFound row hMem)
    | some other =>
        obtain ⟨-, -, -, -, hOnly⟩ := mirrors.invariant.openFor_iff hFound
        rw [(hOnly row hMem).mp hOpen]

/-- A settlement of a row whose amounts fit is committed. -/
theorem Mirrors.settle_commits (mirrors : Mirrors ledger today memory session) {tenant : String}
    {reservation : UUID} {usage : Option TokenUsage} {outcome : String} {row : UsageRow}
    (hText : PostgresUsageLedger.settlementText tenant (usage.getD {}) outcome = true)
    (hRow : PostgresUsageLedger.reservedRow tenant reservation session.tables = some row)
    (hInput : (usage.getD {}).inputTokens < 2 ^ 63) (hOutput : (usage.getD {}).outputTokens < 2 ^ 63)
    (hCached : (usage.getD {}).cachedInputTokens < 2 ^ 63)
    (hCharge : session.charged (tenant, today) + row.charge usage < 2 ^ 63) :
    ∃ after, PostgresUsageLedger.settle tenant reservation usage outcome session.tables =
      .ok ((), after) ∧ (row.settle (usage.getD {}) outcome).valid = true ∧
        ∀ budget ∈ after.llmBudgets, budget.valid = true := by
  obtain ⟨hMem, hId, hTenant, hOutcome, -⟩ := mirrors.invariant.openFor_iff hRow
  have counted := mirrors.rows row hMem
  have hValid : (row.settle (usage.getD {}) outcome).valid = true := by
    have hPos := mirrors.invariant.positive row hMem
    have hBefore := counted.valid
    simp only [UsageRow.valid, Bool.and_eq_true] at hBefore
    simp only [UsageRow.valid, UsageRow.settle, hPos, decide_true, hBefore.1.1.1.2,
      bigint_of_lt (Int.natCast_nonneg _) (by exact_mod_cast hInput),
      bigint_of_lt (Int.natCast_nonneg _) (by exact_mod_cast hOutput),
      bigint_of_lt (Int.natCast_nonneg _) (by exact_mod_cast hCached), Bool.and_true]
  have hBudgets : (session.tables.llmBudgets.all fun budget =>
      !decide (budget.key = (tenant, row.day)) ||
        (budget.settle row.reservedTokens (row.charge usage)).valid) = true := by
    rw [List.all_eq_true]
    intro budget hBudget
    by_cases hKey : budget.key = (tenant, row.day)
    · rw [counted.day] at hKey
      have hSelect := mirrors.invariant.budgets.select_eq_some.mpr ⟨hBudget, hKey⟩
      have hReserved : row.reservedTokens ≤ session.reserved (tenant, today) := by
        rw [(mirrors.invariant.counters (tenant, today)).1]
        apply le_sumWhere (fun other hOther _ => (mirrors.invariant.positive other hOther).le) hMem
        simp [UsageRow.budget, hTenant, counted.day, hOutcome]
      have hCharged := mirrors.charged_nonneg tenant
      have hCharge' := charge_nonneg (mirrors.invariant.positive row hMem) usage
      simp only [LedgerSession.charged, LedgerSession.reserved, hSelect, Option.map_some,
        Option.getD_some] at hCharge hReserved hCharged
      have hFits := (budget_valid_iff.mp (mirrors.budgets budget hBudget)).2.2.2
      have hPos := mirrors.invariant.positive row hMem
      rw [Bool.or_eq_true]
      right
      apply budget_valid_iff.mpr
      simp only [BudgetRow.settle]
      omega
    · rw [decide_eq_false hKey]
      rfl
  simp only [PostgresUsageLedger.settle, hText, hRow, hValid, Bool.not_true, Bool.false_eq_true,
    if_false, PostgresUsageLedger.settleBudget, hBudgets, if_true]
  refine ⟨_, rfl, trivial, ?_⟩
  intro budget hBudget
  obtain ⟨old, hOld, rfl⟩ := mem_updateWhere.mp hBudget
  split_ifs with hKey
  · have hSettled := List.all_eq_true.mp hBudgets old hOld
    rwa [hKey, Bool.not_true, Bool.false_or] at hSettled
  · exact mirrors.budgets old hOld

/-- The entries of the rows that a settlement leaves alone stay. -/
theorem entryOf_cons {settled : List Settlement} {settlement : Settlement} {row : UsageRow}
    (h : row.id ≠ settlement.reservation) :
    entryOf (settlement :: settled) row = entryOf settled row := by
  rw [entryOf, reportFor, List.find?_cons_of_neg (by simpa using h.symm), entryOf, reportFor]

theorem reportFor_cons_self {settled : List Settlement} {settlement : Settlement} {row : UsageRow}
    (h : row.id = settlement.reservation) :
    reportFor (settlement :: settled) row = settlement.usage := by
  rw [reportFor, List.find?_cons_of_pos (by simpa using h.symm), Option.bind_some]

/-- The entry of a settled row has the report and the outcome, and all others stay. -/
theorem Mirrors.entries_settle (mirrors : Mirrors ledger today memory session) {tenant : String}
    {reservation : UUID} (usage : Option TokenUsage) (outcome : String) {row : UsageRow}
    (hRow : PostgresUsageLedger.reservedRow tenant reservation session.tables = some row) :
    setItem memory.entries reservation ⟨tenant, row.reservedTokens, usage, outcome⟩ =
      items UsageRow.id (entryOf (⟨reservation, usage, outcome⟩ :: session.settled))
        (updateWhere (·.openFor tenant reservation) (·.settle (usage.getD {}) outcome)
          session.tables.llmUsage) := by
  obtain ⟨hMem, hId, hTenant, -, hOnly⟩ := mirrors.invariant.openFor_iff hRow
  have hReport := @reportFor_cons_self session.settled ⟨reservation, usage, outcome⟩
    (row.settle (usage.getD {}) outcome) hId
  have hEntry : (⟨tenant, row.reservedTokens, usage, outcome⟩ : UsageEntry) =
      entryOf (⟨reservation, usage, outcome⟩ :: session.settled)
        (row.settle (usage.getD {}) outcome) := by
    rw [entryOf, hReport, ← hTenant]
    rfl
  rw [mirrors.entries, hEntry, ← hId]
  apply setItem_updateWhere mirrors.invariant.usage hMem
  · rw [hId]
    exact hOnly
  · rfl
  · intro other hOther hNe
    apply entryOf_cons
    exact fun h => hNe (mirrors.invariant.usage.eq_of_key hOther hMem h)

/-- The rows of the day count what their entries do after a settlement. -/
theorem Mirrors.counted_settle (mirrors : Mirrors ledger today memory session) {tenant : String}
    {reservation : UUID} (usage : Option TokenUsage) (outcome : String) {row : UsageRow}
    (hRow : PostgresUsageLedger.reservedRow tenant reservation session.tables = some row)
    (hValid : (row.settle (usage.getD {}) outcome).valid = true) :
    ∀ other ∈ updateWhere (·.openFor tenant reservation) (·.settle (usage.getD {}) outcome)
        session.tables.llmUsage,
      Counted (⟨reservation, usage, outcome⟩ :: session.settled) today other := by
  obtain ⟨hMem, hId, -, -, hOnly⟩ := mirrors.invariant.openFor_iff hRow
  intro other hOther
  obtain ⟨old, hOld, rfl⟩ := mem_updateWhere.mp hOther
  split_ifs with hOpen
  · rw [(hOnly old hOld).mp hOpen]
    have hReport := @reportFor_cons_self session.settled ⟨reservation, usage, outcome⟩
      (row.settle (usage.getD {}) outcome) hId
    have hCount (field : TokenUsage → Nat) (hZero : field {} = 0) :
        ((field (usage.getD {}) : Nat) : Int) =
          (entryOf (⟨reservation, usage, outcome⟩ :: session.settled)
            (row.settle (usage.getD {}) outcome)).count field := by
      simp only [UsageEntry.count, entryOf, hReport]
      cases usage with
      | none => simp [hZero]
      | some report => simp
    constructor
    · exact (mirrors.rows row hMem).day
    · exact hCount TokenUsage.inputTokens rfl
    · exact hCount TokenUsage.outputTokens rfl
    · exact hCount TokenUsage.cachedInputTokens rfl
    · exact hValid
  · have hNe : old.id ≠ reservation := by
      intro h
      apply hOpen
      exact (hOnly old hOld).mpr
        (mirrors.invariant.usage.eq_of_key hOld hMem (h.trans hId.symm))
    have counted := mirrors.rows old hOld
    constructor
    · exact counted.day
    · rw [entryOf_cons hNe]
      exact counted.inputTokens
    · rw [entryOf_cons hNe]
      exact counted.outputTokens
    · rw [entryOf_cons hNe]
      exact counted.cachedInputTokens
    · exact counted.valid

/-- A settlement has the same effect, and the ledgers still agree. -/
theorem Mirrors.settle (mirrors : Mirrors ledger today memory session) {tenant : String}
    {reservation : UUID} {usage : Option TokenUsage} {outcome : String}
    (hOutcome : outcome ≠ "reserved") (hFits : Fits memory (.settle tenant reservation usage outcome)) :
    (session.settle tenant reservation usage outcome).1 = .ok () ∧
      Mirrors ledger today (memory.settle tenant reservation usage outcome)
        (session.settle tenant reservation usage outcome).2 := by
  obtain ⟨hText, hFits⟩ := hFits
  have hUnfound (hNone : PostgresUsageLedger.reservedRow tenant reservation session.tables = none) :
      session.settle tenant reservation usage outcome = (.ok (), session) := by
    simp [LedgerSession.settle, PostgresUsageLedger.settle, hText, hNone, LedgerTables.commit]
  have hInvariant := LedgerSession.settle_invariant mirrors.invariant tenant reservation usage hOutcome
  have hEntry := mirrors.select_entry reservation
  rw [hEntry] at hFits
  rw [InMemoryUsageLedger.settle, hEntry]
  cases hSelect : select UsageRow.id reservation session.tables.llmUsage with
  | none =>
      have hNone : PostgresUsageLedger.reservedRow tenant reservation session.tables = none := by
        rw [Option.eq_none_iff_forall_ne_some]
        intro row hRow
        rw [(mirrors.reservedRow_iff.mp hRow).1] at hSelect
        cases hSelect
      rw [hUnfound hNone]
      exact ⟨rfl, mirrors⟩
  | some row =>
      obtain ⟨hMem, hId⟩ := select_mem hSelect
      simp only [Option.map_some]
      split_ifs with hOpen
      · obtain ⟨hTenant, hReserved⟩ := hOpen
        have hRow := mirrors.reservedRow_iff.mpr ⟨hSelect, hTenant, hReserved⟩
        rw [hSelect] at hFits
        obtain ⟨hInput, hOutput, hCached, hCharge⟩ := hFits hTenant hReserved
        have hChargeOf : chargeOf (entryOf session.settled row).tokens usage = row.charge usage := by
          cases usage with
          | none => rfl
          | some report => rfl
        rw [mirrors.charged_eq, hChargeOf] at hCharge
        obtain ⟨after, hSettled, hValid, hBudgets⟩ :=
          mirrors.settle_commits hText hRow hInput hOutput hCached hCharge
        have hNext : session.settle tenant reservation usage outcome = (.ok (),
            { tables := after, settled := ⟨reservation, usage, outcome⟩ :: session.settled }) := by
          simp [LedgerSession.settle, hSettled, LedgerTables.commit, hRow, Except.toBool]
        rcases PostgresUsageLedger.settle_cases hSettled with ⟨hNone, -⟩ | ⟨other, hRow', hUsage, -⟩
        · rw [hRow] at hNone
          cases hNone
        rw [hRow] at hRow'
        cases hRow'
        rw [hNext] at hInvariant ⊢
        refine ⟨rfl, ⟨hInvariant, mirrors.limit, ?_, ?_, hBudgets⟩⟩
        · show setItem memory.entries reservation _ = _
          rw [hUsage]
          exact mirrors.entries_settle usage outcome hRow
        · show ∀ other ∈ after.llmUsage, _
          rw [hUsage]
          exact mirrors.counted_settle usage outcome hRow hValid
      · have hNone : PostgresUsageLedger.reservedRow tenant reservation session.tables = none := by
          rw [Option.eq_none_iff_forall_ne_some]
          intro other hOther
          obtain ⟨hSame, hFacts⟩ := mirrors.reservedRow_iff.mp hOther
          rw [hSelect] at hSame
          cases hSame
          exact hOpen hFacts
        rw [hUnfound hNone]
        exact ⟨rfl, mirrors⟩

/-- Every call is answered alike, and the ledgers still agree. -/
theorem Mirrors.step (mirrors : Mirrors ledger today memory session) {call : UsageCall}
    (hCall : Ordinary memory call ∧ Fits memory call) :
    (recounting memory call).1 = (counting ledger today session call).1 ∧
      Mirrors ledger today (recounting memory call).2 (counting ledger today session call).2 := by
  obtain ⟨hOrdinary, hFits⟩ := hCall
  cases call with
  | reserve identifier tenant tokens model =>
      apply mirrors.reserve hOrdinary
      simpa only [Fits, mirrors.charged_eq, mirrors.reserved_eq, mirrors.limit] using hFits
  | settle tenant reservation usage outcome =>
      obtain ⟨hAnswer, hAfter⟩ := mirrors.settle hOrdinary hFits
      exact ⟨hAnswer.symm, hAfter⟩
  | summary tenant =>
      refine ⟨?_, mirrors⟩
      have hText : textColumn tenant = true := hFits
      simp only [recounting, counting, PostgresUsageLedger.summary, hText, Bool.not_true,
        Bool.false_eq_true, if_false, mirrors.summary_eq]

end Mirrors

instance (memory : InMemoryUsageLedger) (call : UsageCall) : Decidable (Ordinary memory call) :=
  match call with
  | .reserve identifier _ _ _ => inferInstanceAs (Decidable (identifier ∉ memory.entries.map Prod.fst))
  | .settle _ _ _ outcome => inferInstanceAs (Decidable (outcome ≠ "reserved"))
  | .summary _ => isTrue trivial

instance (memory : InMemoryUsageLedger) (call : UsageCall) : Decidable (Fits memory call) :=
  match call with
  | .reserve _ tenant tokens model =>
      inferInstanceAs (Decidable (1 ≤ tokens → tokens ≤ memory.limit → tenant ≠ "" ∧
        textColumn tenant = true ∧ textColumn model = true ∧
        (memory.summary tenant).chargedTokens + (memory.summary tenant).reservedTokens + tokens <
          2 ^ 63))
  | .settle tenant reservation usage outcome =>
      match h : getItem memory.entries reservation with
      | some entry =>
          decidable_of_iff (PostgresUsageLedger.settlementText tenant (usage.getD {}) outcome = true ∧
            (entry.tenant = tenant → entry.state = "reserved" →
              (usage.getD {}).inputTokens < 2 ^ 63 ∧ (usage.getD {}).outputTokens < 2 ^ 63 ∧
                (usage.getD {}).cachedInputTokens < 2 ^ 63 ∧
                (memory.summary tenant).chargedTokens + chargeOf entry.tokens usage < 2 ^ 63))
            (by simp only [Fits, h])
      | none =>
          decidable_of_iff
            (PostgresUsageLedger.settlementText tenant (usage.getD {}) outcome = true)
            (by simp only [Fits, h, and_true])
  | .summary tenant => inferInstanceAs (Decidable (textColumn tenant = true))

/-- Whether a call was answered without an error. -/
def succeeded : Sigma UsageCall.Answer → Bool
  | ⟨.reserve _ _ _ _, answer⟩ => answer.toBool
  | ⟨.settle _ _ _ _, answer⟩ => answer.toBool
  | ⟨.summary _, answer⟩ => answer.toBool

end DocInsight.Testing
