import DocInsight.Library.Transition
import DocInsight.Query.Usage
import Mathlib.Tactic.Linarith

/-! Runs of the token ledger under any number of callers. The budget counters are
the sums of the usage rows they stand for, across days, tenants and repetitions. -/
namespace DocInsight.Query

open DocInsight.Contracts Table PostgresUsageLedger

/-- A settlement that found its reservation, with what it reported. -/
structure Settlement where
  reservation : UUID
  usage : Option TokenUsage
  outcome : String
  deriving DecidableEq, Repr

inductive LedgerCall where
  | reserve (today : Day) (identifier : UUID) (tenant : String) (tokens : Int) (model : String)
  | settle (tenant : String) (reservation : UUID) (usage : Option TokenUsage) (outcome : String)
  deriving DecidableEq, Repr

/-- The tables with the record of every settlement that took effect, newest first. -/
structure LedgerSession where
  tables : LedgerTables := {}
  settled : List Settlement := []
  deriving DecidableEq, Repr

/-- The report a row was settled with decides what it was charged. -/
def chargedFor (settled : List Settlement) (row : UsageRow) : Int :=
  match settled.find? (·.reservation = row.id) with
  | some settlement => row.charge settlement.usage
  | none => 0

/-- The reserved tokens of a budget's rows still outstanding. -/
def outstanding (key : String × Day) (usage : List UsageRow) : Int :=
  sumWhere (fun row => row.budget = key && row.outcome = "reserved") (·.reservedTokens) usage

/-- The charges of a budget's settled rows. -/
def spent (settled : List Settlement) (key : String × Day) (usage : List UsageRow) : Int :=
  sumWhere (fun row => row.budget = key && row.outcome ≠ "reserved") (chargedFor settled) usage

namespace LedgerSession

def reserve (ledger : PostgresUsageLedger) (today : Day) (identifier : UUID) (tenant : String)
    (tokens : Int) (model : String) (session : LedgerSession) :
    Except LedgerError UUID × LedgerSession :=
  let answer := session.tables.commit
    (ledger.reserve today identifier tenant tokens model session.tables)
  (answer.1, { session with tables := answer.2 })

/-- A settlement joins the record when it found its reservation and committed. -/
def settle (tenant : String) (reservation : UUID) (usage : Option TokenUsage)
    (outcome : String) (session : LedgerSession) : Except LedgerError Unit × LedgerSession :=
  let answer := session.tables.commit
    (PostgresUsageLedger.settle tenant reservation usage outcome session.tables)
  let effective := answer.1.toBool && (reservedRow tenant reservation session.tables).isSome
  (answer.1,
    { tables := answer.2
      settled := if effective then ⟨reservation, usage, outcome⟩ :: session.settled
                 else session.settled })

/-- One transaction of some caller, which the database may also fail and roll back. -/
def step (ledger : PostgresUsageLedger) (session : LedgerSession) :
    LedgerCall × Bool → Option LedgerSession
  | (.reserve today identifier tenant tokens model, committed) =>
      if committed then some (session.reserve ledger today identifier tenant tokens model).2
      else some session
  | (.settle tenant reservation usage outcome, committed) =>
      if outcome = "reserved" then none
      else if committed then some (session.settle tenant reservation usage outcome).2
      else some session

/-- The two counters of a budget; a budget not yet opened holds nothing. -/
def reserved (session : LedgerSession) (key : String × Day) : Int :=
  ((select BudgetRow.key key session.tables.llmBudgets).map (·.reserved)).getD 0

def charged (session : LedgerSession) (key : String × Day) : Int :=
  ((select BudgetRow.key key session.tables.llmBudgets).map (·.charged)).getD 0

/-- Each settlement of the budget's reservations reported at most what was reserved. -/
def ReportsWithin (session : LedgerSession) (key : String × Day) : Prop :=
  ∀ settlement ∈ session.settled, ∀ row ∈ session.tables.llmUsage,
    row.id = settlement.reservation → row.budget = key →
      row.charge settlement.usage ≤ row.reservedTokens

/-- The counters equal the sums of their rows, and the record of settlements names
exactly the settled rows, each once. -/
structure Invariant (ledger : PostgresUsageLedger) (session : LedgerSession) : Prop where
  budgets : Keyed BudgetRow.key session.tables.llmBudgets
  usage : Keyed UsageRow.id session.tables.llmUsage
  budgeted : ∀ row ∈ session.tables.llmUsage,
    ∃ budget ∈ session.tables.llmBudgets, budget.key = row.budget
  positive : ∀ row ∈ session.tables.llmUsage, 0 < row.reservedTokens
  settledOnce : Keyed Settlement.reservation session.settled
  settledRows : ∀ settlement ∈ session.settled, ∃ row ∈ session.tables.llmUsage,
    row.id = settlement.reservation ∧ row.outcome ≠ "reserved"
  rowsSettled : ∀ row ∈ session.tables.llmUsage, row.outcome ≠ "reserved" →
    ∃ settlement ∈ session.settled, settlement.reservation = row.id
  reserved_eq : ∀ budget ∈ session.tables.llmBudgets,
    budget.reserved = outstanding budget.key session.tables.llmUsage
  charged_eq : ∀ budget ∈ session.tables.llmBudgets,
    budget.charged = spent session.settled budget.key session.tables.llmUsage
  limited : ∀ budget ∈ session.tables.llmBudgets, session.ReportsWithin budget.key →
    budget.charged + budget.reserved ≤ ledger.limit

theorem start_invariant (ledger : PostgresUsageLedger) : ({} : LedgerSession).Invariant ledger := by
  constructor <;> simp [Keyed]

variable {ledger : PostgresUsageLedger} {session : LedgerSession}

/-- Nothing is counted under a budget that was never opened. -/
theorem Invariant.no_rows (invariant : session.Invariant ledger) {key : String × Day}
    (hNone : select BudgetRow.key key session.tables.llmBudgets = none) :
    ∀ row ∈ session.tables.llmUsage, row.budget ≠ key := by
  intro row hRow hKey
  obtain ⟨budget, hBudget, hSame⟩ := invariant.budgeted row hRow
  exact select_eq_none.mp hNone budget hBudget (hSame.trans hKey)

theorem outstanding_of_no_rows {key : String × Day} {usage : List UsageRow}
    (h : ∀ row ∈ usage, row.budget ≠ key) : outstanding key usage = 0 := by
  have hFilter : usage.filter (fun row => row.budget = key && row.outcome = "reserved") = [] := by
    simp only [List.filter_eq_nil_iff]
    intro row hRow
    simp [h row hRow]
  rw [outstanding, sumWhere, hFilter]
  rfl

theorem spent_of_no_rows {settled : List Settlement} {key : String × Day}
    {usage : List UsageRow} (h : ∀ row ∈ usage, row.budget ≠ key) :
    spent settled key usage = 0 := by
  have hFilter : usage.filter (fun row => row.budget = key && row.outcome ≠ "reserved") = [] := by
    simp only [List.filter_eq_nil_iff]
    intro row hRow
    simp [h row hRow]
  rw [spent, sumWhere, hFilter]
  rfl

theorem outstanding_append (key : String × Day) (usage : List UsageRow) {row : UsageRow}
    (hReserved : row.outcome = "reserved") : outstanding key (usage ++ [row]) =
      outstanding key usage + (if row.budget = key then row.reservedTokens else 0) := by
  rw [outstanding, sumWhere_append, sumWhere_cons, sumWhere_nil, outstanding]
  simp [hReserved]

theorem spent_append (settled : List Settlement) (key : String × Day) (usage : List UsageRow)
    {row : UsageRow} (hReserved : row.outcome = "reserved") :
    spent settled key (usage ++ [row]) = spent settled key usage := by
  rw [spent, sumWhere_append, sumWhere_cons, sumWhere_nil, spent]
  simp [hReserved]

/-- A reservation never counts against the reports already made. -/
theorem reportsWithin_of_append (next : LedgerSession) {row : UsageRow} {key : String × Day}
    (hUsage : next.tables.llmUsage = session.tables.llmUsage ++ [row])
    (hSettled : next.settled = session.settled) (hWithin : next.ReportsWithin key) :
    session.ReportsWithin key := by
  intro settlement hSettlement old hOld
  refine hWithin settlement (hSettled ▸ hSettlement) old ?_
  rw [hUsage]
  exact List.mem_append_left _ hOld

/-- Every budget after a committed reservation is an old one of another day or
tenant, or counts the reservation within the limit. -/
theorem Invariant.reserve_budget (invariant : session.Invariant ledger) {today : Day}
    {identifier reservation : UUID} {tenant : String} {tokens : Int} {model : String}
    {after : LedgerTables} (hReserve : ledger.reserve today identifier tenant tokens model
      session.tables = .ok (reservation, after)) {budget : BudgetRow}
    (hBudget : budget ∈ after.llmBudgets) :
    (budget ∈ session.tables.llmBudgets ∧ budget.key ≠ (tenant, today)) ∨
      (budget.key = (tenant, today) ∧
        budget.charged = spent session.settled (tenant, today) session.tables.llmUsage ∧
        budget.reserved =
          outstanding (tenant, today) session.tables.llmUsage + tokens ∧
        budget.charged + budget.reserved ≤ ledger.limit) := by
  obtain ⟨-, -, hLimit, -, -, hBudgets⟩ := reserve_cases hReserve
  obtain ⟨hNone, hAfter⟩ | ⟨row, hSelect, hSum, hAfter⟩ := hBudgets
  · rw [hAfter, List.mem_append, List.mem_singleton] at hBudget
    rcases hBudget with hOld | rfl
    · exact Or.inl ⟨hOld, select_eq_none.mp hNone budget hOld⟩
    · have hRows := invariant.no_rows hNone
      rw [spent_of_no_rows hRows, outstanding_of_no_rows hRows]
      exact Or.inr ⟨rfl, rfl, by simp, by simpa using hLimit⟩
  · rw [hAfter, mem_updateWhere] at hBudget
    obtain ⟨old, hOld, rfl⟩ := hBudget
    by_cases hKey : old.key = (tenant, today)
    · obtain ⟨hRow, hRowKey⟩ := select_mem hSelect
      obtain rfl := invariant.budgets.eq_of_key hOld hRow (hKey.trans hRowKey.symm)
      have hReserved := invariant.reserved_eq old hOld
      have hCharged := invariant.charged_eq old hOld
      rw [hKey] at hReserved hCharged
      rw [if_pos (by simpa using hKey)]
      refine Or.inr ⟨hKey, hCharged, ?_, ?_⟩
      · simp only [BudgetRow.reserve, hReserved]
      · simp only [BudgetRow.reserve]
        omega
    · rw [if_neg (by simpa using hKey)]
      exact Or.inl ⟨hOld, hKey⟩

/-- A committed reservation opens at most its own budget and removes none. -/
theorem reserve_keys {today : Day} {identifier reservation : UUID} {tenant : String}
    {tokens : Int} {model : String} {before after : LedgerTables}
    (hBudgets : Keyed BudgetRow.key before.llmBudgets)
    (hReserve : ledger.reserve today identifier tenant tokens model before =
      .ok (reservation, after)) :
    Keyed BudgetRow.key after.llmBudgets ∧
      (∀ budget ∈ before.llmBudgets, ∃ next ∈ after.llmBudgets, next.key = budget.key) ∧
      ∃ next ∈ after.llmBudgets, next.key = (tenant, today) := by
  obtain ⟨-, -, -, -, -, hCases⟩ := reserve_cases hReserve
  obtain ⟨hNone, hAfter⟩ | ⟨row, hSelect, -, hAfter⟩ := hCases
  · rw [hAfter]
    refine ⟨hBudgets.append hNone, fun budget hBudget => ?_, ?_⟩
    · exact ⟨budget, List.mem_append_left _ hBudget, rfl⟩
    · exact ⟨_, List.mem_append_right _ (List.mem_singleton.mpr rfl), rfl⟩
  · have hSame : after.llmBudgets.map BudgetRow.key = before.llmBudgets.map BudgetRow.key := by
      rw [hAfter]
      exact map_key_updateWhere before.llmBudgets fun _ _ => rfl
    have hKept : ∀ budget ∈ before.llmBudgets,
        ∃ next ∈ after.llmBudgets, next.key = budget.key := by
      intro budget hBudget
      have hMem := List.mem_map_of_mem (f := BudgetRow.key) hBudget
      rw [← hSame] at hMem
      exact List.mem_map.mp hMem
    obtain ⟨hRow, hKey⟩ := select_mem hSelect
    obtain ⟨next, hNext, hNextKey⟩ := hKept row hRow
    refine ⟨?_, hKept, next, hNext, hNextKey.trans hKey⟩
    rw [Keyed, hSame]
    exact hBudgets

theorem reserve_invariant (invariant : session.Invariant ledger) (today : Day)
    (identifier : UUID) (tenant : String) (tokens : Int) (model : String) :
    (session.reserve ledger today identifier tenant tokens model).2.Invariant ledger := by
  cases hReserve : ledger.reserve today identifier tenant tokens model session.tables with
  | error error => simpa [LedgerSession.reserve, hReserve, LedgerTables.commit] using invariant
  | ok answer =>
      obtain ⟨reservation, after⟩ := answer
      have hNext : (session.reserve ledger today identifier tenant tokens model).2 =
          { tables := after, settled := session.settled } := by
        simp [LedgerSession.reserve, hReserve, LedgerTables.commit]
      obtain ⟨-, hPositive, -, hFresh, hUsage, hBudgets⟩ := reserve_cases hReserve
      rw [hNext]
      have hOutstanding (key : String × Day) : outstanding key after.llmUsage =
          outstanding key session.tables.llmUsage +
            (if (tenant, today) = key then tokens else 0) := by
        rw [hUsage, outstanding_append key _ rfl]
        rfl
      have hSpent (key : String × Day) : spent session.settled key after.llmUsage =
          spent session.settled key session.tables.llmUsage := by
        rw [hUsage, spent_append _ _ _ rfl]
      have hOldRow : ∀ row ∈ session.tables.llmUsage, row ∈ after.llmUsage := by
        intro row hRow
        rw [hUsage]
        exact List.mem_append_left _ hRow
      obtain ⟨hKeyed, hKept, hOpened⟩ := reserve_keys invariant.budgets hReserve
      constructor
      · exact hKeyed
      · show Keyed UsageRow.id after.llmUsage
        rw [hUsage]
        exact invariant.usage.append hFresh
      · intro row hRow
        change row ∈ after.llmUsage at hRow
        rw [hUsage, List.mem_append, List.mem_singleton] at hRow
        rcases hRow with hOld | rfl
        · obtain ⟨budget, hBudget, hKey⟩ := invariant.budgeted row hOld
          obtain ⟨next, hMem, hSame⟩ := hKept budget hBudget
          exact ⟨next, hMem, hSame.trans hKey⟩
        · exact hOpened
      · intro row hRow
        change row ∈ after.llmUsage at hRow
        rw [hUsage, List.mem_append, List.mem_singleton] at hRow
        rcases hRow with hOld | rfl
        · exact invariant.positive row hOld
        · exact hPositive
      · exact invariant.settledOnce
      · intro settlement hSettlement
        obtain ⟨row, hRow, hFacts⟩ := invariant.settledRows settlement hSettlement
        exact ⟨row, hOldRow row hRow, hFacts⟩
      · intro row hRow hOutcome
        change row ∈ after.llmUsage at hRow
        rw [hUsage, List.mem_append, List.mem_singleton] at hRow
        rcases hRow with hOld | rfl
        · exact invariant.rowsSettled row hOld hOutcome
        · exact absurd rfl hOutcome
      · intro budget hBudget
        show budget.reserved = outstanding budget.key after.llmUsage
        rw [hOutstanding]
        rcases invariant.reserve_budget hReserve hBudget with ⟨hOld, hKey⟩ | ⟨hKey, -, hSum, -⟩
        · rw [if_neg (Ne.symm hKey), invariant.reserved_eq budget hOld, add_zero]
        · rw [hKey, if_pos rfl, hSum]
      · intro budget hBudget
        show budget.charged = spent session.settled budget.key after.llmUsage
        rw [hSpent]
        rcases invariant.reserve_budget hReserve hBudget with ⟨hOld, -⟩ | ⟨hKey, hSum, -⟩
        · exact invariant.charged_eq budget hOld
        · rw [hKey, hSum]
      · intro budget hBudget hWithin
        rcases invariant.reserve_budget hReserve hBudget with ⟨hOld, -⟩ | ⟨-, -, -, hLimit⟩
        · exact invariant.limited budget hOld (reportsWithin_of_append ⟨after, _⟩ hUsage rfl hWithin)
        · exact hLimit

/-- The row a settlement finds is the tenant's, is reserved, and is the only one
the update touches. -/
theorem Invariant.openFor_iff (invariant : session.Invariant ledger) {tenant : String}
    {reservation : UUID} {row : UsageRow}
    (hRow : reservedRow tenant reservation session.tables = some row) :
    row ∈ session.tables.llmUsage ∧ row.id = reservation ∧ row.tenantId = tenant ∧
      row.outcome = "reserved" ∧
      ∀ other ∈ session.tables.llmUsage,
        other.openFor tenant reservation = true ↔ other = row := by
  have hMem := List.mem_of_find?_eq_some hRow
  have hOpen : row.openFor tenant reservation = true := List.find?_some hRow
  have hParts := hOpen
  simp only [UsageRow.openFor, Bool.and_eq_true, decide_eq_true_eq] at hParts
  obtain ⟨⟨hId, hTenant⟩, hOutcome⟩ := hParts
  refine ⟨hMem, hId, hTenant, hOutcome, fun other hOther => ⟨fun h => ?_, fun h => h ▸ hOpen⟩⟩
  simp only [UsageRow.openFor, Bool.and_eq_true, decide_eq_true_eq] at h
  exact invariant.usage.eq_of_key hOther hMem (h.1.1.trans hId.symm)

/-- A recorded settlement is the one that decides its row's charge. -/
theorem chargedFor_of_mem {settled : List Settlement}
    (hOnce : Keyed Settlement.reservation settled) {settlement : Settlement}
    (hMem : settlement ∈ settled) {row : UsageRow} (hId : settlement.reservation = row.id) :
    chargedFor settled row = row.charge settlement.usage := by
  have hFind : settled.find? (fun entry => entry.reservation = row.id) = some settlement :=
    hOnce.select_eq_some.mpr ⟨hMem, hId⟩
  rw [chargedFor, hFind]

theorem Invariant.chargedFor_nonneg (invariant : session.Invariant ledger) {row : UsageRow}
    (hRow : row ∈ session.tables.llmUsage) (settled : List Settlement) :
    0 ≤ chargedFor settled row := by
  unfold chargedFor
  split
  · rename_i settlement _
    cases settlement.usage with
    | none => exact (invariant.positive row hRow).le
    | some report => exact Int.natCast_nonneg report.total
  · exact le_refl 0

theorem chargedFor_cons_of_ne {settled : List Settlement} {settlement : Settlement}
    {row : UsageRow} (hId : row.id ≠ settlement.reservation) :
    chargedFor (settlement :: settled) row = chargedFor settled row := by
  rw [chargedFor, List.find?_cons_of_neg (by simpa using hId.symm), chargedFor]

/-- Settling a row takes its reserved tokens out of the outstanding ones. -/
theorem Invariant.outstanding_settle (invariant : session.Invariant ledger) {tenant : String}
    {reservation : UUID} {row : UsageRow} (actual : TokenUsage) {outcome : String}
    (hRow : reservedRow tenant reservation session.tables = some row)
    (hOutcome : outcome ≠ "reserved") (key : String × Day) :
    outstanding key (updateWhere (·.openFor tenant reservation) (·.settle actual outcome)
      session.tables.llmUsage) =
      outstanding key session.tables.llmUsage -
        (if row.budget = key then row.reservedTokens else 0) := by
  obtain ⟨hMem, -, -, hReserved, hOnly⟩ := invariant.openFor_iff hRow
  have hNodup : session.tables.llmUsage.Nodup := List.Nodup.of_map _ invariant.usage
  rw [outstanding, sumWhere_updateWhere_single hNodup hMem hOnly, outstanding]
  simp [hReserved, hOutcome]

/-- Settling a row adds its charge to its budget's and to no other. -/
theorem Invariant.spent_settle (invariant : session.Invariant ledger) {tenant : String}
    {reservation : UUID} {row : UsageRow} (usage : Option TokenUsage) {outcome : String}
    (hRow : reservedRow tenant reservation session.tables = some row)
    (hOutcome : outcome ≠ "reserved") (key : String × Day) :
    spent (⟨reservation, usage, outcome⟩ :: session.settled) key
      (updateWhere (·.openFor tenant reservation) (·.settle (usage.getD {}) outcome)
        session.tables.llmUsage) =
      spent session.settled key session.tables.llmUsage +
        (if row.budget = key then row.charge usage else 0) := by
  obtain ⟨hMem, hId, -, hReserved, hOnly⟩ := invariant.openFor_iff hRow
  have hNodup : session.tables.llmUsage.Nodup := List.Nodup.of_map _ invariant.usage
  -- the new report changes no charge of a row settled before it
  have hOld : spent (⟨reservation, usage, outcome⟩ :: session.settled) key
      session.tables.llmUsage = spent session.settled key session.tables.llmUsage := by
    refine sumWhere_congr (fun _ _ => rfl) fun other hOther hSettled => ?_
    refine chargedFor_cons_of_ne fun hSame => ?_
    obtain rfl := invariant.usage.eq_of_key hOther hMem (hSame.trans hId.symm)
    simp [hReserved] at hSettled
  rw [spent, sumWhere_updateWhere_single hNodup hMem hOnly, ← spent, hOld]
  have hNew : chargedFor (⟨reservation, usage, outcome⟩ :: session.settled)
      (row.settle (usage.getD {}) outcome) = row.charge usage := by
    rw [chargedFor, List.find?_cons_of_pos (by simp [hId])]
    rfl
  rw [hNew]
  by_cases hKey : row.budget = key
  · simp [hReserved, hOutcome, hKey]
  · simp [hReserved, hKey]

/-- What the settling update makes of a row: its own row gets the outcome, every
other stays, and nothing else the counters depend on changes. -/
def SettledTo (row : UsageRow) (outcome : String) (old next : UsageRow) : Prop :=
  next.id = old.id ∧ next.budget = old.budget ∧ next.reservedTokens = old.reservedTokens ∧
    (old = row ∧ next.outcome = outcome ∨ old ≠ row ∧ next = old)

theorem Invariant.settledTo (invariant : session.Invariant ledger) {tenant : String}
    {reservation : UUID} {row : UsageRow} (actual : TokenUsage) (outcome : String)
    (hRow : reservedRow tenant reservation session.tables = some row) {old : UsageRow}
    (hOld : old ∈ session.tables.llmUsage) :
    SettledTo row outcome old
      (if old.openFor tenant reservation then old.settle actual outcome else old) := by
  obtain ⟨-, -, -, -, hOnly⟩ := invariant.openFor_iff hRow
  by_cases hSame : old = row
  · rw [if_pos ((hOnly old hOld).mpr hSame)]
    exact ⟨rfl, rfl, rfl, Or.inl ⟨hSame, rfl⟩⟩
  · rw [if_neg (fun h => hSame ((hOnly old hOld).mp h))]
    exact ⟨rfl, rfl, rfl, Or.inr ⟨hSame, rfl⟩⟩

/-- What the budget update of a settlement makes of each budget. -/
theorem mem_settledBudgets {key : String × Day} {reserved charged : Int}
    {budgets : List BudgetRow} {budget : BudgetRow}
    (hBudget : budget ∈ updateWhere (fun old => old.key = key) (·.settle reserved charged)
      budgets) :
    ∃ old ∈ budgets, budget.key = old.key ∧
      budget.reserved = old.reserved - (if key = old.key then reserved else 0) ∧
      budget.charged = old.charged + (if key = old.key then charged else 0) := by
  rw [mem_updateWhere] at hBudget
  obtain ⟨old, hOld, rfl⟩ := hBudget
  refine ⟨old, hOld, ?_⟩
  by_cases hKey : old.key = key
  · rw [if_pos (by simpa using hKey), if_pos hKey.symm, if_pos hKey.symm]
    exact ⟨rfl, rfl, rfl⟩
  · rw [if_neg (by simpa using hKey), if_neg (Ne.symm hKey), if_neg (Ne.symm hKey)]
    exact ⟨rfl, (sub_zero _).symm, (add_zero _).symm⟩

/-- A settlement that found its row keeps every counter equal to its sum. -/
theorem Invariant.settle_row (invariant : session.Invariant ledger) {tenant : String}
    {reservation : UUID} (usage : Option TokenUsage) {outcome : String} {row : UsageRow}
    {after : LedgerTables} (hRow : reservedRow tenant reservation session.tables = some row)
    (hOutcome : outcome ≠ "reserved")
    (hUsage : after.llmUsage = updateWhere (·.openFor tenant reservation)
      (·.settle (usage.getD {}) outcome) session.tables.llmUsage)
    (hBudgets : after.llmBudgets = updateWhere (fun old => old.key = (tenant, row.day))
      (·.settle row.reservedTokens (row.charge usage)) session.tables.llmBudgets) :
    ({ tables := after, settled := ⟨reservation, usage, outcome⟩ :: session.settled } :
      LedgerSession).Invariant ledger := by
  obtain ⟨hMem, hId, hTenant, hReserved, -⟩ := invariant.openFor_iff hRow
  have hBudgetKey : (tenant, row.day) = row.budget := by rw [UsageRow.budget, hTenant]
  have hRows : ∀ next ∈ after.llmUsage, ∃ old ∈ session.tables.llmUsage,
      SettledTo row outcome old next := by
    intro next hNext
    rw [hUsage, mem_updateWhere] at hNext
    obtain ⟨old, hOld, rfl⟩ := hNext
    exact ⟨old, hOld, invariant.settledTo _ _ hRow hOld⟩
  have hKept : ∀ old ∈ session.tables.llmUsage, ∃ next ∈ after.llmUsage,
      SettledTo row outcome old next := by
    intro old hOld
    refine ⟨_, ?_, invariant.settledTo (usage.getD {}) outcome hRow hOld⟩
    rw [hUsage]
    exact mem_updateWhere.mpr ⟨old, hOld, rfl⟩
  rw [hBudgetKey] at hBudgets
  have hBudgetKeys : after.llmBudgets.map BudgetRow.key =
      session.tables.llmBudgets.map BudgetRow.key := by
    rw [hBudgets]
    exact map_key_updateWhere _ fun _ _ => rfl
  constructor
  · rw [Keyed, hBudgetKeys]
    exact invariant.budgets
  · show Keyed UsageRow.id after.llmUsage
    rw [hUsage]
    exact invariant.usage.updateWhere fun _ _ => rfl
  · intro next hNext
    obtain ⟨old, hOld, -, hSame, -⟩ := hRows next hNext
    obtain ⟨budget, hBudget, hKey⟩ := invariant.budgeted old hOld
    have hKeyMem := List.mem_map_of_mem (f := BudgetRow.key) hBudget
    rw [← hBudgetKeys] at hKeyMem
    obtain ⟨moved, hMoved, hMovedKey⟩ := List.mem_map.mp hKeyMem
    exact ⟨moved, hMoved, by rw [hMovedKey, hKey, hSame]⟩
  · intro next hNext
    obtain ⟨old, hOld, -, -, hTokens, -⟩ := hRows next hNext
    rw [hTokens]
    exact invariant.positive old hOld
  · refine List.nodup_cons.mpr ⟨fun hOld => ?_, invariant.settledOnce⟩
    obtain ⟨settlement, hSettlement, hSame⟩ := List.mem_map.mp hOld
    obtain ⟨other, hOther, hOtherId, hSettled⟩ := invariant.settledRows settlement hSettlement
    obtain rfl := invariant.usage.eq_of_key hOther hMem (hOtherId.trans (hSame.trans hId.symm))
    exact hSettled hReserved
  · intro settlement hSettlement
    rcases List.mem_cons.mp hSettlement with rfl | hOld
    · obtain ⟨next, hNext, hNextId, -, -, ⟨-, hSettled⟩ | ⟨hNe, -⟩⟩ := hKept row hMem
      · exact ⟨next, hNext, hNextId.trans hId, by rwa [hSettled]⟩
      · exact absurd rfl hNe
    · obtain ⟨old, hOldRow, hOldId, hSettled⟩ := invariant.settledRows settlement hOld
      obtain ⟨next, hNext, hNextId, -, -, ⟨hSame, -⟩ | ⟨-, rfl⟩⟩ := hKept old hOldRow
      · exact absurd (hSame ▸ hReserved) hSettled
      · exact ⟨next, hNext, hOldId, hSettled⟩
  · intro next hNext hSettled
    obtain ⟨old, hOld, hOldId, -, -, ⟨hSame, -⟩ | ⟨-, rfl⟩⟩ := hRows next hNext
    · exact ⟨_, List.mem_cons_self .., by rw [hOldId, hSame, hId]⟩
    · obtain ⟨settlement, hSettlement, hSame⟩ := invariant.rowsSettled next hOld hSettled
      exact ⟨settlement, List.mem_cons_of_mem _ hSettlement, hSame⟩
  · intro budget hBudget
    obtain ⟨old, hOld, hKey, hTokens, -⟩ := mem_settledBudgets (hBudgets ▸ hBudget)
    show budget.reserved = outstanding budget.key after.llmUsage
    rw [hUsage, invariant.outstanding_settle _ hRow hOutcome, hKey, hTokens,
      invariant.reserved_eq old hOld]
  · intro budget hBudget
    obtain ⟨old, hOld, hKey, -, hTokens⟩ := mem_settledBudgets (hBudgets ▸ hBudget)
    show budget.charged = spent _ budget.key after.llmUsage
    rw [hUsage, invariant.spent_settle usage hRow hOutcome, hKey, hTokens,
      invariant.charged_eq old hOld]
  · intro budget hBudget hWithin
    obtain ⟨old, hOld, hKey, hTokens, hCharge⟩ := mem_settledBudgets (hBudgets ▸ hBudget)
    -- the reports that were within their reservations before still are
    have hReport : ∀ settlement ∈ (⟨reservation, usage, outcome⟩ :: session.settled),
        ∀ other ∈ session.tables.llmUsage, other.id = settlement.reservation →
          other.budget = old.key → other.charge settlement.usage ≤ other.reservedTokens := by
      intro settlement hSettlement other hOther hOtherId hOtherBudget
      obtain ⟨next, hNext, hNextId, hNextBudget, hNextTokens, -⟩ := hKept other hOther
      have hNextWithin := hWithin settlement hSettlement next hNext
        (hNextId.trans hOtherId) (by rw [hNextBudget, hOtherBudget, hKey])
      rwa [UsageRow.charge_congr hNextTokens, hNextTokens] at hNextWithin
    have hLimit := invariant.limited old hOld fun settlement hSettlement =>
      hReport settlement (List.mem_cons_of_mem _ hSettlement)
    rw [hTokens, hCharge]
    split_ifs with hHere
    · have hNew : row.charge usage ≤ row.reservedTokens :=
        hReport _ (List.mem_cons_self ..) row hMem hId hHere
      omega
    · omega

/-- A settlement of the session leaves everything as it was, unless it found its row
and committed. -/
theorem settle_cases (session : LedgerSession) (tenant : String) (reservation : UUID)
    (usage : Option TokenUsage) (outcome : String) :
    (session.settle tenant reservation usage outcome).2 = session ∧
      ((session.settle tenant reservation usage outcome).1.toBool = true →
        reservedRow tenant reservation session.tables = none) ∨
    ∃ row after, reservedRow tenant reservation session.tables = some row ∧
      after.llmUsage = updateWhere (·.openFor tenant reservation)
        (·.settle (usage.getD {}) outcome) session.tables.llmUsage ∧
      after.llmBudgets = updateWhere (fun old => old.key = (tenant, row.day))
        (·.settle row.reservedTokens (row.charge usage)) session.tables.llmBudgets ∧
      (session.settle tenant reservation usage outcome).2 =
        { tables := after, settled := ⟨reservation, usage, outcome⟩ :: session.settled } := by
  cases hSettle : PostgresUsageLedger.settle tenant reservation usage outcome session.tables with
  | error error =>
      refine Or.inl ⟨?_, ?_⟩ <;>
        simp [LedgerSession.settle, hSettle, LedgerTables.commit, Except.toBool]
  | ok answer =>
      obtain ⟨⟨⟩, after⟩ := answer
      rcases PostgresUsageLedger.settle_cases hSettle with
        ⟨hNone, hSame⟩ | ⟨row, hRow, hUsage, hBudgets⟩
      · refine Or.inl ⟨?_, fun _ => hNone⟩
        simp [LedgerSession.settle, hSettle, hNone, hSame, LedgerTables.commit]
      · refine Or.inr ⟨row, after, hRow, hUsage, hBudgets, ?_⟩
        simp [LedgerSession.settle, hSettle, hRow, LedgerTables.commit, Except.toBool]

theorem settle_invariant (invariant : session.Invariant ledger) (tenant : String)
    (reservation : UUID) (usage : Option TokenUsage) {outcome : String}
    (hOutcome : outcome ≠ "reserved") :
    (session.settle tenant reservation usage outcome).2.Invariant ledger := by
  rcases settle_cases session tenant reservation usage outcome with
    ⟨hSame, -⟩ | ⟨row, after, hRow, hUsage, hBudgets, hNext⟩
  · rw [hSame]
    exact invariant
  · rw [hNext]
    exact invariant.settle_row usage hRow hOutcome hUsage hBudgets

theorem step_invariant {next : LedgerSession} {action : LedgerCall × Bool}
    (invariant : session.Invariant ledger) (h : session.step ledger action = some next) :
    next.Invariant ledger := by
  obtain ⟨call, committed⟩ := action
  cases call with
  | reserve today identifier tenant tokens model =>
      simp only [step] at h
      split_ifs at h <;> cases h
      · exact reserve_invariant invariant today identifier tenant tokens model
      · exact invariant
  | settle tenant reservation usage outcome =>
      simp only [step] at h
      split_ifs at h with hOutcome <;> cases h
      · exact settle_invariant invariant tenant reservation usage hOutcome
      · exact invariant

theorem run_invariant {calls : List (LedgerCall × Bool)} {finish : LedgerSession}
    (hRun : Transition.run (step ledger) calls {} = some finish) : finish.Invariant ledger :=
  Transition.run_invariant (step ledger) (fun _ _ _ invariant h => step_invariant invariant h)
    (start_invariant ledger) hRun

/-- Both counters of any tenant's day are the sums of its rows. -/
theorem Invariant.counters (invariant : session.Invariant ledger) (key : String × Day) :
    session.reserved key = outstanding key session.tables.llmUsage ∧
      session.charged key = spent session.settled key session.tables.llmUsage := by
  cases hSelect : select BudgetRow.key key session.tables.llmBudgets with
  | none =>
      have hRows := invariant.no_rows hSelect
      rw [outstanding_of_no_rows hRows, spent_of_no_rows hRows, reserved, charged, hSelect]
      exact ⟨rfl, rfl⟩
  | some budget =>
      obtain ⟨hMem, hKey⟩ := select_mem hSelect
      rw [reserved, charged, hSelect, ← hKey]
      exact ⟨invariant.reserved_eq budget hMem, invariant.charged_eq budget hMem⟩

theorem Invariant.reserved_nonneg (invariant : session.Invariant ledger) (key : String × Day) :
    0 ≤ session.reserved key := by
  rw [(invariant.counters key).1, outstanding]
  exact sumWhere_nonneg fun row hRow _ => (invariant.positive row hRow).le

/-- A reservation once settled is never found again. -/
theorem Invariant.reservedRow_of_settled (invariant : session.Invariant ledger)
    {settlement : Settlement} (hSettled : settlement ∈ session.settled) (tenant : String) :
    reservedRow tenant settlement.reservation session.tables = none := by
  cases hRow : reservedRow tenant settlement.reservation session.tables with
  | none => rfl
  | some row =>
      obtain ⟨hMem, hId, -, hReserved, -⟩ := invariant.openFor_iff hRow
      obtain ⟨other, hOther, hOtherId, hOutcome⟩ := invariant.settledRows settlement hSettled
      obtain rfl := invariant.usage.eq_of_key hOther hMem (hOtherId.trans hId.symm)
      exact absurd hReserved hOutcome

/-- A call that is answered with an error changes nothing. -/
theorem reserve_refused {today : Day} {identifier : UUID} {tenant : String} {tokens : Int}
    {model : String} {error : LedgerError}
    (h : (session.reserve ledger today identifier tenant tokens model).1 = .error error) :
    (session.reserve ledger today identifier tenant tokens model).2 = session := by
  cases hReserve : ledger.reserve today identifier tenant tokens model session.tables with
  | error error => simp [LedgerSession.reserve, hReserve, LedgerTables.commit]
  | ok answer => simp [LedgerSession.reserve, hReserve, LedgerTables.commit] at h

/-- A settlement that finds no reservation changes nothing, whatever it answers. -/
theorem settle_unfound {session : LedgerSession} {tenant : String} {reservation : UUID}
    {usage : Option TokenUsage} {outcome : String}
    (hRow : reservedRow tenant reservation session.tables = none) :
    (session.settle tenant reservation usage outcome).2 = session := by
  cases hText : settlementText tenant (usage.getD {}) outcome with
  | true => simp [LedgerSession.settle, PostgresUsageLedger.settle, hText, hRow, LedgerTables.commit]
  | false => simp [LedgerSession.settle, PostgresUsageLedger.settle, hText, hRow, LedgerTables.commit]

/-- After any interleaving of reservations and settlements, by any tenants and on
any days, each budget's counters are the sums of its rows; a reservation is settled
at most once; a refusal changes nothing; and reports within their reservations keep
the day within the limit. -/
theorem ledger_invariant (ledger : PostgresUsageLedger) (calls : List (LedgerCall × Bool))
    (session : LedgerSession)
    (hRun : Transition.run (LedgerSession.step ledger) calls {} = some session) :
    (∀ key, session.reserved key = outstanding key session.tables.llmUsage ∧
      session.charged key = spent session.settled key session.tables.llmUsage ∧
      0 ≤ session.reserved key) ∧
    (∀ budget ∈ session.tables.llmBudgets, session.ReportsWithin budget.key →
      session.charged budget.key + session.reserved budget.key ≤ ledger.limit) ∧
    (∀ row ∈ session.tables.llmUsage, row.outcome ≠ "reserved" ↔
      ∃ settlement ∈ session.settled, settlement.reservation = row.id) ∧
    (session.settled.map (·.reservation)).Nodup ∧
    (∀ settlement ∈ session.settled, ∀ tenant usage outcome,
      (session.settle tenant settlement.reservation usage outcome).2 = session) ∧
    (∀ today identifier tenant tokens model error,
      (session.reserve ledger today identifier tenant tokens model).1 = .error error →
        (session.reserve ledger today identifier tenant tokens model).2 = session) := by
  have invariant := run_invariant hRun
  refine ⟨fun key => ?_, fun budget hBudget hWithin => ?_, fun row hRow => ?_,
    invariant.settledOnce, fun settlement hSettled tenant usage outcome => ?_,
    fun _ _ _ _ _ _ h => reserve_refused h⟩
  · obtain ⟨hReserved, hCharged⟩ := invariant.counters key
    exact ⟨hReserved, hCharged, invariant.reserved_nonneg key⟩
  · have hSelect := invariant.budgets.select_eq_some.mpr ⟨hBudget, rfl⟩
    simpa [charged, reserved, hSelect] using invariant.limited budget hBudget hWithin
  · refine ⟨invariant.rowsSettled row hRow, ?_⟩
    rintro ⟨settlement, hSettled, hId⟩
    obtain ⟨other, hOther, hOtherId, hOutcome⟩ := invariant.settledRows settlement hSettled
    obtain rfl := invariant.usage.eq_of_key hOther hRow (hOtherId.trans hId)
    exact hOutcome
  · have hRow := invariant.reservedRow_of_settled hSettled tenant
    exact settle_unfound hRow

/-- A day at its limit, a settlement with another tenant's name, one that arrives
on the next day, and its repetition. -/
def acrossDays : List (LedgerCall × Bool) :=
  [(.reserve 7 ⟨1⟩ "acme" 800 "model", true), (.reserve 7 ⟨2⟩ "acme" 201 "model", true),
   (.settle "other" ⟨1⟩ (some {}) "rejected", true), (.reserve 8 ⟨3⟩ "acme" 300 "model", true),
   (.settle "acme" ⟨1⟩ (some { inputTokens := 40, outputTokens := 10 }) "completed", true),
   (.settle "acme" ⟨1⟩ none "unknown", true)]

theorem ledger_invariant_acrossDays :
    ∃ session, Transition.run (LedgerSession.step ⟨1000⟩) acrossDays {} = some session ∧
      session.charged ("acme", 7) = 50 ∧ session.reserved ("acme", 7) = 0 ∧
      session.reserved ("acme", 8) = 300 ∧
      (session.settled.map (·.reservation)).Nodup := by
  refine ⟨_, rfl, by decide, by decide, by decide, ?_⟩
  exact (ledger_invariant ⟨1000⟩ acrossDays _ rfl).2.2.2.1

end LedgerSession

end DocInsight.Query
