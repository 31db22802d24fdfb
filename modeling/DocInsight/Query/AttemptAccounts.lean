import DocInsight.Query.HostedAttempts

/-! What keeps the accounts of concurrent attempts in order: each reservation is held
by one attempt and pays for at most one call, and a settlement fits that call. -/
namespace DocInsight.Query

open DocInsight.Contracts DocInsight.Python Interaction Table

/-- The outcomes of attempts that were refused before sending anything. -/
def refusals : List String := ["disabled", "busy", "circuit_open"]

/-- The settlement of the reservation an attempt holds. -/
def settledBy (ledger : LedgerSession) (records : Nat → AttemptRecord) (attempt : Nat) :
    Option Settlement :=
  (records attempt).reservation.bind fun id => select Settlement.reservation id ledger.settled

/-- A settlement that fits the attempt's call: a known usage is what was finally
billed, or nothing where nothing was sent, and refused attempts settle at nothing. -/
structure Fits (call : Option ProviderCall) (refused : Bool) (usage : Option TokenUsage)
    (outcome : String) : Prop where
  reported : outcome ≠ "reserved"
  unsent : call = none → ∀ report, usage = some report → report.total = 0
  billed : ∀ sent, call = some sent → ∀ report, usage = some report →
    sent.final = true ∧ report.total = sent.billed
  refused : refused = true → usage = some {}
  refusal : outcome ∈ refusals → usage = some {} ∧ call = none

/-- What steps of others can do to an attempt's call: bill it until it is final. -/
def Grows : Option ProviderCall → Option ProviderCall → Prop
  | none, after => after = none
  | some before, after => ∃ call, after = some call ∧ (before.final = true → call = before)

theorem Grows.refl (call : Option ProviderCall) : Grows call call := by
  cases call with
  | none => rfl
  | some call => exact ⟨call, rfl, fun _ => rfl⟩

theorem Grows.trans {first second third : Option ProviderCall} (h : Grows first second)
    (h' : Grows second third) : Grows first third := by
  cases first with
  | none =>
      obtain rfl := h
      exact h'
  | some before =>
      obtain ⟨middle, rfl, hMiddle⟩ := h
      obtain ⟨after, rfl, hAfter⟩ := h'
      refine ⟨after, rfl, fun hFinal => ?_⟩
      obtain rfl := hMiddle hFinal
      exact hAfter hFinal

theorem Fits.grows {before after : Option ProviderCall} {refused : Bool}
    {usage : Option TokenUsage} {outcome : String} (fits : Fits before refused usage outcome)
    (hGrows : Grows before after) : Fits after refused usage outcome := by
  cases before with
  | none =>
      obtain rfl := hGrows
      exact fits
  | some call =>
      obtain ⟨next, rfl, hNext⟩ := hGrows
      refine ⟨fits.reported, ?_, ?_, fits.refused, fun h => ?_⟩
      · intro h
        cases h
      · intro sent hSent report hReport
        cases hSent
        obtain ⟨hFinal, hTotal⟩ := fits.billed call rfl report hReport
        rw [hNext hFinal]
        exact ⟨hFinal, hTotal⟩
      · cases (fits.refusal h).2

/-- How reservations, calls and settlements of all attempts hang together. -/
structure Accounts (deployment : Deployment) (ledger : LedgerSession)
    (records : Nat → AttemptRecord) (calls : List ProviderCall) : Prop where
  counters : ledger.Invariant deployment.ledger
  heldRow : ∀ attempt id, (records attempt).reservation = some id →
    ∃ row ∈ ledger.tables.llmUsage,
      row.id = id ∧ row.tenantId = (deployment.attempts attempt).tenant
  heldOnce : ∀ first second id, (records first).reservation = some id →
    (records second).reservation = some id → first = second
  callsOnce : Keyed ProviderCall.attempt calls
  callHeld : ∀ call ∈ calls, ∃ id,
    call.reservation = some id ∧ (records call.attempt).reservation = some id
  callBound : ∀ call ∈ calls, ∀ row ∈ ledger.tables.llmUsage,
    call.reservation = some row.id → (call.billed : Int) ≤ row.reservedTokens
  refusedUnsent : ∀ attempt, deployment.refused records attempt = true →
    select ProviderCall.attempt attempt calls = none
  fits : ∀ attempt settlement, settledBy ledger records attempt = some settlement →
    Fits (select ProviderCall.attempt attempt calls) (deployment.refused records attempt)
      settlement.usage settlement.outcome
  settledHeld : ∀ settlement ∈ ledger.settled,
    ∃ attempt, (records attempt).reservation = some settlement.reservation

/-- The slots of a process are free or held. -/
def SlotsHeld (capacity : Nat) (processes : Nat → ProcessState) : Prop :=
  ∀ process, (processes process).free + (processes process).holders.length = capacity

structure HostedInvariant (deployment : Deployment) (state : HostedState) : Prop where
  accounts : Accounts deployment state.ledger state.records state.calls
  slots : SlotsHeld deployment.primary.concurrency state.processes

/-- What an attempt can rely on while others go on. -/
structure HostedRely (deployment : Deployment) (attempt : Nat) (state next : HostedState) :
    Prop where
  record : next.records attempt = state.records attempt
  settled : settledBy next.ledger next.records attempt =
    settledBy state.ledger state.records attempt
  call : Grows (state.callOf attempt) (next.callOf attempt)
  slot : ∀ process, attempt ∈ (state.processes process).holders →
    attempt ∈ (next.processes process).holders

/-- The attempt has not settled, and nothing was sent for it. -/
def HostedState.Idle (state : HostedState) (attempt : Nat) : Prop :=
  settledBy state.ledger state.records attempt = none ∧ state.callOf attempt = none

/-- What an attempt must know before each call. -/
def HostedGuard (deployment : Deployment) (attempt : Nat) (state : HostedState) :
    HostedCall → Prop
  | .reserve tenant _ _ =>
      tenant = (deployment.attempts attempt).tenant ∧ state.records attempt = {} ∧
        state.callOf attempt = none
  | .settle tenant reservation usage outcome =>
      tenant = (deployment.attempts attempt).tenant ∧
        (state.records attempt).reservation = some reservation ∧
        settledBy state.ledger state.records attempt = none ∧
        Fits (state.callOf attempt) (deployment.refused state.records attempt) usage outcome
  | .acquireSlot => state.Idle attempt
  | .acquireTicket => state.Idle attempt
  | .releaseSlot =>
      attempt ∈ (state.processes (deployment.attempts attempt).process).holders
  | .finishTicket _ _ => True
  | .send _ _ =>
      state.Idle attempt ∧ deployment.refused state.records attempt = false ∧
        ∃ id, (state.records attempt).reservation = some id
  | .receive => settledBy state.ledger state.records attempt = none

variable {deployment : Deployment} {ledger : LedgerSession} {records : Nat → AttemptRecord}
  {calls : List ProviderCall}

theorem start_accounts (deployment : Deployment) : Accounts deployment {} (fun _ => {}) [] := by
  refine ⟨LedgerSession.start_invariant _, ?_, ?_, List.nodup_nil, ?_, ?_, ?_, ?_, ?_⟩ <;>
    simp [settledBy, select]

/-- A record update that keeps the reservation keeps the accounts, where a refusal is
marked only while the attempt is idle. -/
theorem Accounts.mark (accounts : Accounts deployment ledger records calls)
    {next : Nat → AttemptRecord}
    (hSame : ∀ attempt, (next attempt).reservation = (records attempt).reservation)
    (hRefused : ∀ attempt, (next attempt).refused = (records attempt).refused ∨
      settledBy ledger records attempt = none ∧
        select ProviderCall.attempt attempt calls = none) :
    Accounts deployment ledger next calls := by
  have hSettled (attempt : Nat) :
      settledBy ledger next attempt = settledBy ledger records attempt := by
    rw [settledBy, hSame, settledBy]
  refine ⟨accounts.counters, ?_, ?_, accounts.callsOnce, ?_, accounts.callBound, ?_, ?_, ?_⟩
  · intro attempt id hHeld
    exact accounts.heldRow attempt id ((hSame attempt) ▸ hHeld)
  · intro first second id hFirst hSecond
    exact accounts.heldOnce first second id ((hSame first) ▸ hFirst) ((hSame second) ▸ hSecond)
  · intro call hCall
    obtain ⟨id, hReservation, hHeld⟩ := accounts.callHeld call hCall
    exact ⟨id, hReservation, (hSame call.attempt).trans hHeld⟩
  · intro attempt hMark
    rcases hRefused attempt with hKept | ⟨-, hNone⟩
    · exact accounts.refusedUnsent attempt (deployment.refused_congr hKept ▸ hMark)
    · exact hNone
  · intro attempt settlement hSettlement
    rw [hSettled] at hSettlement
    rcases hRefused attempt with hKept | ⟨hNone, -⟩
    · rw [deployment.refused_congr hKept]
      exact accounts.fits attempt settlement hSettlement
    · rw [hNone] at hSettlement
      cases hSettlement
  · intro settlement hSettlement
    obtain ⟨attempt, hHeld⟩ := accounts.settledHeld settlement hSettlement
    exact ⟨attempt, (hSame attempt).trans hHeld⟩

/-- A committed reservation adds one row under an unused identifier. -/
theorem reserve_row {limit : PostgresUsageLedger} {today : Day} {identifier : UUID}
    {tenant : String} {tokens : Int} {model : String} :
    ((ledger.reserve limit today identifier tenant tokens model).2 = ledger ∧
      ∀ id, (ledger.reserve limit today identifier tenant tokens model).1 ≠ .ok id) ∨
    ∃ row after, select UsageRow.id identifier ledger.tables.llmUsage = none ∧
      row.id = identifier ∧ row.tenantId = tenant ∧ 0 < row.reservedTokens ∧
      after.llmUsage = ledger.tables.llmUsage ++ [row] ∧
      ledger.reserve limit today identifier tenant tokens model =
        (.ok identifier, { tables := after, settled := ledger.settled }) := by
  cases hReserve : limit.reserve today identifier tenant tokens model ledger.tables with
  | error error =>
      refine Or.inl ⟨?_, fun id => ?_⟩ <;>
        simp [LedgerSession.reserve, hReserve, LedgerTables.commit]
  | ok answer =>
      obtain ⟨reservation, after⟩ := answer
      obtain ⟨rfl, hPositive, -, hFresh, hUsage, -⟩ := PostgresUsageLedger.reserve_cases hReserve
      refine Or.inr ⟨_, after, hFresh, rfl, rfl, hPositive, hUsage, ?_⟩
      simp [LedgerSession.reserve, hReserve, LedgerTables.commit]

/-- A reservation that nobody holds yet, answered or not, keeps the accounts. -/
theorem Accounts.reserve (accounts : Accounts deployment ledger records calls) (today : Day)
    (identifier : UUID) (tenant : String) (tokens : Int) (model : String) :
    Accounts deployment
      (ledger.reserve deployment.ledger today identifier tenant tokens model).2 records calls := by
  have hLedger := LedgerSession.reserve_invariant accounts.counters today identifier tenant tokens
    model
  rcases reserve_row with ⟨hSame, -⟩ | ⟨row, after, hFresh, hId, -, hPositive, hUsage, hNext⟩
  · rw [hSame]
    exact accounts
  · rw [hNext] at hLedger ⊢
    refine ⟨hLedger, ?_, accounts.heldOnce, accounts.callsOnce, accounts.callHeld, ?_,
      accounts.refusedUnsent, accounts.fits, accounts.settledHeld⟩
    · intro attempt id hHeld
      obtain ⟨old, hOld, hOldId⟩ := accounts.heldRow attempt id hHeld
      refine ⟨old, ?_, hOldId⟩
      rw [hUsage]
      exact List.mem_append_left _ hOld
    · intro call hCall other hOther hReservation
      rw [hUsage, List.mem_append, List.mem_singleton] at hOther
      rcases hOther with hOld | rfl
      · exact accounts.callBound call hCall other hOld hReservation
      · obtain ⟨id, hCallId, hHeld⟩ := accounts.callHeld call hCall
        rw [hCallId, Option.some.injEq] at hReservation
        obtain ⟨old, hOld, hOldId, -⟩ := accounts.heldRow _ id hHeld
        exact absurd (hOldId.trans (hReservation.trans hId)) (select_eq_none.mp hFresh old hOld)

/-- The answered reservation is held by its attempt alone. -/
theorem Accounts.hold (accounts : Accounts deployment ledger records calls) {attempt : Nat}
    {id : UUID} {row : UsageRow} (hEmpty : records attempt = {})
    (hNoCall : select ProviderCall.attempt attempt calls = none)
    (hRow : row ∈ ledger.tables.llmUsage) (hId : row.id = id)
    (hTenant : row.tenantId = (deployment.attempts attempt).tenant)
    (hFree : ∀ other, (records other).reservation ≠ some id)
    (hUnsettled : select Settlement.reservation id ledger.settled = none)
    {next : Nat → AttemptRecord} (hHolds : next attempt = { reservation := some id })
    (hOther : ∀ other, other ≠ attempt → next other = records other) :
    Accounts deployment ledger next calls := by
  have hCall : ∀ call ∈ calls, call.attempt ≠ attempt := select_eq_none.mp hNoCall
  refine ⟨accounts.counters, ?_, ?_, accounts.callsOnce, ?_, accounts.callBound, ?_, ?_, ?_⟩
  · intro other otherId hHeld
    by_cases hSame : other = attempt
    · subst hSame
      rw [hHolds, Option.some.injEq] at hHeld
      exact ⟨row, hRow, hId.trans hHeld, hTenant⟩
    · exact accounts.heldRow other otherId ((hOther other hSame) ▸ hHeld)
  · intro first second shared hFirst hSecond
    by_cases hFirstSame : first = attempt <;> by_cases hSecondSame : second = attempt
    · rw [hFirstSame, hSecondSame]
    · rw [hFirstSame, hHolds, Option.some.injEq] at hFirst
      rw [hOther second hSecondSame, ← hFirst] at hSecond
      exact absurd hSecond (hFree second)
    · rw [hSecondSame, hHolds, Option.some.injEq] at hSecond
      rw [hOther first hFirstSame, ← hSecond] at hFirst
      exact absurd hFirst (hFree first)
    · rw [hOther first hFirstSame] at hFirst
      rw [hOther second hSecondSame] at hSecond
      exact accounts.heldOnce first second shared hFirst hSecond
  · intro call hMem
    obtain ⟨callId, hReservation, hHeld⟩ := accounts.callHeld call hMem
    exact ⟨callId, hReservation, (hOther _ (hCall call hMem)).symm ▸ hHeld⟩
  · intro other hRefused
    by_cases hSame : other = attempt
    · exact hSame ▸ hNoCall
    · exact accounts.refusedUnsent other
        (deployment.refused_congr (congrArg _ (hOther other hSame)) ▸ hRefused)
  · intro other settlement hSettled
    by_cases hSame : other = attempt
    · rw [settledBy, hSame, hHolds, Option.bind_some, hUnsettled] at hSettled
      cases hSettled
    · rw [settledBy, hOther other hSame] at hSettled
      rw [deployment.refused_congr (congrArg _ (hOther other hSame))]
      exact accounts.fits other settlement hSettled
  · intro settlement hSettlement
    obtain ⟨other, hHeld⟩ := accounts.settledHeld settlement hSettlement
    have hSame : other ≠ attempt := by
      rintro rfl
      rw [hEmpty] at hHeld
      cases hHeld
    exact ⟨other, (hOther other hSame).symm ▸ hHeld⟩

/-- Settling one attempt's reservation touches no other attempt's. -/
theorem settledBy_settle (accounts : Accounts deployment ledger records calls) {attempt : Nat}
    {reservation : UUID} (hHeld : (records attempt).reservation = some reservation)
    (tenant : String) (usage : Option TokenUsage) (outcome : String) {other : Nat}
    (hOther : other ≠ attempt) :
    settledBy (ledger.settle tenant reservation usage outcome).2 records other =
      settledBy ledger records other := by
  rcases LedgerSession.settle_cases ledger tenant reservation usage outcome with
    ⟨hSame, -⟩ | ⟨row, after, -, -, -, hNext⟩
  · rw [hSame]
  · rw [hNext, settledBy, settledBy]
    cases hReservation : (records other).reservation with
    | none => rfl
    | some id =>
        have hNe : reservation ≠ id := by
          rintro rfl
          exact hOther (accounts.heldOnce other attempt _ hReservation hHeld)
        exact select_cons_of_ne ledger.settled hNe

/-- A settlement that fits keeps the accounts, whether or not it takes effect. -/
theorem Accounts.settle (accounts : Accounts deployment ledger records calls) {attempt : Nat}
    {reservation : UUID} (hHeld : (records attempt).reservation = some reservation)
    {usage : Option TokenUsage} {outcome : String}
    (fits : Fits (select ProviderCall.attempt attempt calls) (deployment.refused records attempt)
      usage outcome) (hUnsettled : settledBy ledger records attempt = none) (tenant : String) :
    Accounts deployment (ledger.settle tenant reservation usage outcome).2 records calls := by
  have hLedger := LedgerSession.settle_invariant accounts.counters tenant reservation usage
    fits.reported
  have hOthers {other : Nat} (hOther : other ≠ attempt) :=
    settledBy_settle accounts hHeld tenant usage outcome hOther
  rcases LedgerSession.settle_cases ledger tenant reservation usage outcome with
    ⟨hSame, -⟩ | ⟨row, after, hRow, hUsage, -, hNext⟩
  · rw [hSame]
    exact accounts
  · rw [hNext] at hLedger hOthers ⊢
    have hOld : ∀ next ∈ after.llmUsage, ∃ old ∈ ledger.tables.llmUsage,
        next.id = old.id ∧ next.reservedTokens = old.reservedTokens := by
      intro next hMem
      rw [hUsage, mem_updateWhere] at hMem
      obtain ⟨old, hOldMem, rfl⟩ := hMem
      exact ⟨old, hOldMem, by split_ifs <;> rfl, by split_ifs <;> rfl⟩
    refine ⟨hLedger, ?_, accounts.heldOnce, accounts.callsOnce, accounts.callHeld, ?_,
      accounts.refusedUnsent, ?_, ?_⟩
    · intro other id hOther
      obtain ⟨old, hMem, hId, hTenant⟩ := accounts.heldRow other id hOther
      refine ⟨_, (hUsage ▸ mem_updateWhere.mpr ⟨old, hMem, rfl⟩ : _ ∈ after.llmUsage), ?_, ?_⟩ <;>
        split_ifs
      · exact hId
      · exact hId
      · exact hTenant
      · exact hTenant
    · intro call hCall next hMem hReservation
      obtain ⟨old, hOldMem, hId, hTokens⟩ := hOld next hMem
      rw [hTokens]
      exact accounts.callBound call hCall old hOldMem (hReservation.trans (congrArg some hId))
    · intro other settlement hSettlement
      by_cases hSame : other = attempt
      · subst hSame
        rw [settledBy, hHeld, Option.bind_some] at hSettlement
        obtain rfl : ⟨reservation, usage, outcome⟩ = settlement := by
          simpa [select] using hSettlement
        exact fits
      · rw [hOthers hSame] at hSettlement
        exact accounts.fits other settlement hSettlement
    · intro settlement hSettlement
      rcases List.mem_cons.mp hSettlement with rfl | hEarlier
      · exact ⟨attempt, hHeld⟩
      · exact accounts.settledHeld settlement hEarlier

/-- A call is sent under the reservation its attempt holds. -/
theorem Accounts.send (accounts : Accounts deployment ledger records calls) {attempt : Nat}
    {id : UUID} (hHeld : (records attempt).reservation = some id)
    (hRefused : deployment.refused records attempt = false)
    (hUnsettled : settledBy ledger records attempt = none)
    (hNoCall : select ProviderCall.attempt attempt calls = none) :
    Accounts deployment ledger records
      (calls ++ [{ attempt, reservation := (records attempt).reservation }]) := by
  have hSelect {other : Nat} (hOther : other ≠ attempt) :
      select ProviderCall.attempt other
        (calls ++ [{ attempt, reservation := (records attempt).reservation }]) =
      select ProviderCall.attempt other calls :=
    select_append_of_ne calls (Ne.symm hOther)
  refine ⟨accounts.counters, accounts.heldRow, accounts.heldOnce,
    accounts.callsOnce.append hNoCall, ?_, ?_, ?_, ?_, accounts.settledHeld⟩
  · intro call hCall
    rcases List.mem_append.mp hCall with hOld | hNew
    · exact accounts.callHeld call hOld
    · obtain rfl := List.mem_singleton.mp hNew
      exact ⟨id, hHeld, hHeld⟩
  · intro call hCall row hRow hReservation
    rcases List.mem_append.mp hCall with hOld | hNew
    · exact accounts.callBound call hOld row hRow hReservation
    · obtain rfl := List.mem_singleton.mp hNew
      exact (accounts.counters.positive row hRow).le
  · intro other hMark
    by_cases hSame : other = attempt
    · rw [hSame, hRefused] at hMark
      cases hMark
    · rw [hSelect hSame]
      exact accounts.refusedUnsent other hMark
  · intro other settlement hSettlement
    by_cases hSame : other = attempt
    · rw [hSame, hUnsettled] at hSettlement
      cases hSettlement
    · rw [hSelect hSame]
      exact accounts.fits other settlement hSettlement

/-- What a change of one attempt's call makes of every attempt's. -/
theorem select_onCall {attempt : Nat} {change : ProviderCall → ProviderCall}
    (hAttempt : ∀ call, (change call).attempt = call.attempt) (other : Nat) :
    select ProviderCall.attempt other
      (updateWhere (fun call => call.attempt = attempt) change calls) =
      if other = attempt then (select ProviderCall.attempt other calls).map change
      else select ProviderCall.attempt other calls := by
  rw [select_updateWhere other calls fun call _ => hAttempt call]
  cases hSelect : select ProviderCall.attempt other calls with
  | none => simp
  | some call =>
      obtain ⟨-, rfl⟩ := select_mem hSelect
      by_cases hSame : call.attempt = attempt <;> simp [hSame]

/-- A change of one call that bills within its reservation, and only before its
settlement or while it is not final, keeps the accounts. -/
theorem Accounts.onCall (accounts : Accounts deployment ledger records calls) {attempt : Nat}
    {change : ProviderCall → ProviderCall}
    (hAttempt : ∀ call, (change call).attempt = call.attempt)
    (hReservation : ∀ call, (change call).reservation = call.reservation)
    (hBound : ∀ call ∈ calls, call.attempt = attempt → ∀ row ∈ ledger.tables.llmUsage,
      call.reservation = some row.id → ((change call).billed : Int) ≤ row.reservedTokens)
    (hOpen : settledBy ledger records attempt = none ∨
      ∀ call, select ProviderCall.attempt attempt calls = some call → call.final = false) :
    Accounts deployment ledger records
      (updateWhere (fun call => call.attempt = attempt) change calls) := by
  refine ⟨accounts.counters, accounts.heldRow, accounts.heldOnce,
    accounts.callsOnce.updateWhere fun call _ => hAttempt call, ?_, ?_, ?_, ?_,
    accounts.settledHeld⟩
  · intro call hCall
    obtain ⟨old, hOld, rfl⟩ := mem_updateWhere.mp hCall
    obtain ⟨id, hOldId, hHeld⟩ := accounts.callHeld old hOld
    by_cases hSame : old.attempt = attempt
    · rw [if_pos (by simpa using hSame), hReservation, hAttempt]
      exact ⟨id, hOldId, hHeld⟩
    · rw [if_neg (by simpa using hSame)]
      exact ⟨id, hOldId, hHeld⟩
  · intro call hCall row hRow hId
    obtain ⟨old, hOld, rfl⟩ := mem_updateWhere.mp hCall
    by_cases hSame : old.attempt = attempt
    · rw [if_pos (by simpa using hSame)] at hId ⊢
      exact hBound old hOld hSame row hRow ((hReservation old).symm.trans hId)
    · rw [if_neg (by simpa using hSame)] at hId ⊢
      exact accounts.callBound old hOld row hRow hId
  · intro other hRefused
    rw [select_onCall hAttempt, accounts.refusedUnsent other hRefused]
    simp
  · intro other settlement hSettlement
    have hFits := accounts.fits other settlement hSettlement
    refine hFits.grows ?_
    rw [select_onCall hAttempt]
    by_cases hSame : other = attempt
    · rw [if_pos hSame]
      rw [hSame] at hSettlement ⊢
      rcases hOpen with hNone | hNotFinal
      · rw [hNone] at hSettlement
        cases hSettlement
      · cases hSelect : select ProviderCall.attempt attempt calls with
        | none => rfl
        | some call =>
            refine ⟨change call, rfl, fun hFinal => ?_⟩
            rw [hNotFinal call hSelect] at hFinal
            cases hFinal
    · rw [if_neg hSame]
      exact Grows.refl _

/-- A step of one attempt that keeps the invariant and what the others rely on. -/
def Keeps (deployment : Deployment) (attempt : Nat) (state next : HostedState) : Prop :=
  HostedInvariant deployment next ∧
    ∀ other, other ≠ attempt → HostedRely deployment other state next

variable {state : HostedState} {attempt : Nat}

/-- A marked record, where the mark is no refusal or the attempt is idle. -/
theorem HostedInvariant.record (invariant : HostedInvariant deployment state)
    {change : AttemptRecord → AttemptRecord}
    (hSame : ∀ record, (change record).reservation = record.reservation)
    (hRefused : (∀ record, (change record).refused = record.refused) ∨ state.Idle attempt) :
    Keeps deployment attempt state (state.record attempt change) := by
  have hReservation (other : Nat) : ((state.record attempt change).records other).reservation =
      (state.records other).reservation := by
    by_cases hOther : other = attempt
    · rw [hOther, HostedState.record_self, hSame]
    · rw [HostedState.record_of_ne _ _ hOther]
  refine ⟨⟨invariant.accounts.mark hReservation fun other => ?_, invariant.slots⟩,
    fun other hOther => ⟨HostedState.record_of_ne _ _ hOther, ?_, Grows.refl _, fun _ h => h⟩⟩
  · by_cases hOther : other = attempt
    · rw [hOther, HostedState.record_self]
      rcases hRefused with hKept | hIdle
      · exact Or.inl (hKept _)
      · exact Or.inr hIdle
    · exact Or.inl (by rw [HostedState.record_of_ne _ _ hOther])
  · rw [settledBy, hReservation, settledBy]
    rfl

/-- A step of a process that keeps the slots and releases only the attempt's own. -/
theorem HostedInvariant.onProcess (invariant : HostedInvariant deployment state)
    {process : Nat} {change : ProcessState → ProcessState}
    (hSlots : (change (state.processes process)).free +
      (change (state.processes process)).holders.length = deployment.primary.concurrency)
    (hHolders : ∀ other, other ≠ attempt → other ∈ (state.processes process).holders →
      other ∈ (change (state.processes process)).holders) :
    Keeps deployment attempt state (state.onProcess process change) := by
  refine ⟨⟨invariant.accounts, fun other => ?_⟩,
    fun other hOther => ⟨rfl, rfl, Grows.refl _, fun place hHolds => ?_⟩⟩
  · by_cases hSame : other = process
    · rw [hSame, HostedState.onProcess_self]
      exact hSlots
    · rw [HostedState.onProcess_of_ne _ _ hSame]
      exact invariant.slots other
  · by_cases hSame : place = process
    · rw [hSame, HostedState.onProcess_self]
      exact hHolders other hOther (hSame ▸ hHolds)
    · rw [HostedState.onProcess_of_ne _ _ hSame]
      exact hHolds

theorem Keeps.trans {middle next : HostedState} (h : Keeps deployment attempt state middle)
    (h' : Keeps deployment attempt middle next) : Keeps deployment attempt state next := by
  refine ⟨h'.1, fun other hOther => ?_⟩
  have hFirst := h.2 other hOther
  have hSecond := h'.2 other hOther
  exact ⟨hSecond.record.trans hFirst.record, hSecond.settled.trans hFirst.settled,
    hFirst.call.trans hSecond.call,
    fun process hHolds => hSecond.slot process (hFirst.slot process hHolds)⟩

theorem Keeps.refl (invariant : HostedInvariant deployment state) :
    Keeps deployment attempt state state :=
  ⟨invariant, fun _ _ => ⟨rfl, rfl, Grows.refl _, fun _ h => h⟩⟩

theorem settledBy_of_settled {first second : LedgerSession}
    (h : second.settled = first.settled) (records : Nat → AttemptRecord) (attempt : Nat) :
    settledBy second records attempt = settledBy first records attempt := by
  rw [settledBy, h, settledBy]

/-- A reservation that is not answered to its attempt. -/
theorem HostedInvariant.reserve_lost (invariant : HostedInvariant deployment state)
    (today : Day) (identifier : UUID) (tenant : String) (tokens : Int) (model : String) :
    Keeps deployment attempt state
      { state with
        ledger := (state.ledger.reserve deployment.ledger today identifier tenant tokens model).2 } :=
  ⟨⟨invariant.accounts.reserve today identifier tenant tokens model, invariant.slots⟩,
    fun _ _ => ⟨rfl, settledBy_of_settled rfl _ _, Grows.refl _, fun _ h => h⟩⟩

/-- Reserving keeps the invariant however it ends. An answer is a reservation that
the attempt now holds, with nothing settled or sent for it. -/
theorem HostedInvariant.reserve (invariant : HostedInvariant deployment state) {tenant : String}
    {tokens : Int} {model : String}
    (guard : HostedGuard deployment attempt state (.reserve tenant tokens model)) (today : Day)
    (identifier : UUID) (ending : Ending) {answer : Except HostedError UUID} {next : HostedState}
    (h : state.reserve deployment.ledger attempt tenant tokens model today identifier ending =
      (answer, next)) :
    Keeps deployment attempt state next ∧
      ((∃ id, answer = .ok id ∧ next.records attempt = { reservation := some id } ∧
        next.Idle attempt) ∨
      (∃ error, answer = .error error ∧ next.records attempt = {})) := by
  obtain ⟨rfl, hEmpty, hNoCall⟩ := guard
  have hLost : Keeps deployment attempt state _ :=
    invariant.reserve_lost today identifier (deployment.attempts attempt).tenant tokens model
  cases ending with
  | failed =>
      cases h
      exact ⟨Keeps.refl invariant, Or.inr ⟨_, rfl, hEmpty⟩⟩
  | lost =>
      cases h
      exact ⟨hLost, Or.inr ⟨_, rfl, hEmpty⟩⟩
  | committed =>
      simp only [HostedState.reserve] at h
      rcases reserve_row with ⟨-, hRefused⟩ | ⟨row, after, hFresh, hId, hTenant, -, hUsage, hNext⟩
      · split at h
        · rename_i reservation ledger hReserve
          exact absurd (congrArg Prod.fst hReserve) (hRefused reservation)
        · rename_i hReserve
          rw [hReserve] at hLost
          cases h
          exact ⟨hLost, Or.inr ⟨_, rfl, hEmpty⟩⟩
        · rename_i hReserve
          rw [hReserve] at hLost
          cases h
          exact ⟨hLost, Or.inr ⟨_, rfl, hEmpty⟩⟩
      · rw [hNext] at h hLost
        cases h
        have hNoHolder (other : Nat) : (state.records other).reservation ≠ some identifier := by
          intro hHeld
          obtain ⟨old, hOld, hOldId, -⟩ := invariant.accounts.heldRow other identifier hHeld
          exact select_eq_none.mp hFresh old hOld hOldId
        have hUnsettled : select Settlement.reservation identifier state.ledger.settled = none := by
          refine select_eq_none.mpr fun settlement hSettlement hSame => ?_
          obtain ⟨other, hHeld⟩ := invariant.accounts.settledHeld settlement hSettlement
          exact hNoHolder other (hHeld.trans (congrArg some hSame))
        have hRecord : (fun record : AttemptRecord =>
            { record with reservation := some identifier }) (state.records attempt) =
            { reservation := some identifier } := by rw [hEmpty]
        have hRow : row ∈ after.llmUsage := by
          rw [hUsage]
          exact List.mem_append_right _ (List.mem_singleton.mpr rfl)
        refine ⟨⟨⟨?_, invariant.slots⟩, fun other hOther => ?_⟩, Or.inl ⟨identifier, rfl, ?_, ?_, ?_⟩⟩
        · refine hLost.1.accounts.hold hEmpty hNoCall hRow hId hTenant hNoHolder hUnsettled ?_
            fun other hOther => HostedState.record_of_ne _ _ hOther
          rw [HostedState.record_self]
          exact hRecord
        · have hRely := hLost.2 other hOther
          refine ⟨HostedState.record_of_ne _ _ hOther, ?_, Grows.refl _, fun _ h => h⟩
          rw [settledBy, HostedState.record_of_ne _ _ hOther]
          rfl
        · rw [HostedState.record_self]
          exact hRecord
        · rw [settledBy, HostedState.record_self]
          exact hUnsettled
        · exact hNoCall

/-- An unsettled reservation is one the ledger finds. -/
theorem Accounts.reservedRow_ne_none (accounts : Accounts deployment ledger records calls)
    {attempt : Nat} {id : UUID} (hHeld : (records attempt).reservation = some id)
    (hUnsettled : settledBy ledger records attempt = none) :
    PostgresUsageLedger.reservedRow (deployment.attempts attempt).tenant id ledger.tables ≠
      none := by
  obtain ⟨row, hRow, hId, hTenant⟩ := accounts.heldRow attempt id hHeld
  rw [settledBy, hHeld, Option.bind_some] at hUnsettled
  have hReserved : row.outcome = "reserved" := by
    by_contra hOutcome
    obtain ⟨settlement, hSettlement, hSame⟩ := accounts.counters.rowsSettled row hRow hOutcome
    exact select_eq_none.mp hUnsettled settlement hSettlement (hSame.trans hId)
  intro hNone
  have hSkipped := List.find?_eq_none.mp hNone row hRow
  simp [UsageRow.openFor, hId, hTenant, hReserved] at hSkipped

/-- The attempt's reservation is settled, or the ledger failed it. -/
def HostedState.Finished (state : HostedState) (attempt : Nat) : Prop :=
  ∀ id, (state.records attempt).reservation = some id →
    (settledBy state.ledger state.records attempt).isSome = true ∨
      (state.records attempt).settleFailed = true

/-- Settling keeps the invariant however it ends, and finishes the attempt. -/
theorem HostedInvariant.settle (invariant : HostedInvariant deployment state) {tenant : String}
    {reservation : UUID} {usage : Option TokenUsage} {outcome : String}
    (guard : HostedGuard deployment attempt state (.settle tenant reservation usage outcome))
    (ending : Ending) {answer : Except HostedError Unit} {next : HostedState}
    (h : state.settle attempt tenant reservation usage outcome ending = (answer, next)) :
    Keeps deployment attempt state next ∧ next.Finished attempt := by
  obtain ⟨rfl, hHeld, hUnsettled, fits⟩ := guard
  let session := state.ledger.settle (deployment.attempts attempt).tenant reservation usage outcome
  have hLedger : Keeps deployment attempt state { state with ledger := session.2 } :=
    ⟨⟨invariant.accounts.settle hHeld fits hUnsettled _, invariant.slots⟩, fun other hOther =>
      ⟨rfl, settledBy_settle invariant.accounts hHeld _ usage outcome hOther, Grows.refl _,
        fun _ h => h⟩⟩
  have hMark {before : HostedState} (hBefore : HostedInvariant deployment before) :
      Keeps deployment attempt before (before.record attempt ({ · with settleFailed := true })) :=
    hBefore.record (fun _ => rfl) (Or.inl fun _ => rfl)
  have hMarked (before : HostedState) :
      (before.record attempt ({ · with settleFailed := true })).Finished attempt :=
    fun _ _ => Or.inr (by rw [HostedState.record_self])
  cases ending with
  | failed =>
      cases h
      exact ⟨hMark invariant, hMarked state⟩
  | lost =>
      cases h
      exact ⟨hLedger.trans (hMark hLedger.1), hMarked _⟩
  | committed =>
      simp only [HostedState.settle] at h
      split at h
      · rename_i ledger hSettle
        have hNext : session.2 = ledger := congrArg Prod.snd hSettle
        rw [hNext] at hLedger
        cases h
        refine ⟨hLedger, fun id hId => Or.inl ?_⟩
        rcases LedgerSession.settle_cases state.ledger (deployment.attempts attempt).tenant
          reservation usage outcome with ⟨-, hNoRow⟩ | ⟨row, after, -, -, -, hEffect⟩
        · rw [hSettle] at hNoRow
          exact absurd (hNoRow rfl) (invariant.accounts.reservedRow_ne_none hHeld hUnsettled)
        · rw [hSettle] at hEffect
          change ledger = _ at hEffect
          rw [settledBy, hHeld, Option.bind_some, hEffect]
          simp [select]
      · rename_i ledger hSettle
        have hNext : session.2 = ledger := congrArg Prod.snd hSettle
        rw [hNext] at hLedger
        cases h
        exact ⟨hLedger.trans (hMark hLedger.1), hMarked _⟩

/-- The attempt is marked as refused; it stays idle and keeps its reservation. -/
theorem HostedInvariant.refuse (invariant : HostedInvariant deployment state)
    (hIdle : state.Idle attempt) :
    Keeps deployment attempt state (state.record attempt ({ · with refused := true })) ∧
      (state.record attempt ({ · with refused := true })).Idle attempt := by
  refine ⟨invariant.record (fun _ => rfl) (Or.inr hIdle), ?_, hIdle.2⟩
  rw [settledBy, HostedState.record_self]
  exact hIdle.1

/-- Taking a slot, or being refused for want of one. -/
theorem HostedInvariant.acquireSlot (invariant : HostedInvariant deployment state)
    (hIdle : state.Idle attempt) {process : Nat} {slot : Bool} {next : HostedState}
    (h : state.acquireSlot attempt process = (slot, next)) :
    Keeps deployment attempt state next ∧ next.Idle attempt ∧
      (slot = true ∧ next.records = state.records ∧
          attempt ∈ (next.processes process).holders ∨
        slot = false ∧
          next.records attempt = { state.records attempt with refused := true }) := by
  unfold HostedState.acquireSlot at h
  split_ifs at h with hFree <;> cases h
  · obtain ⟨hKeeps, hNext⟩ := invariant.refuse hIdle
    exact ⟨hKeeps, hNext, Or.inr ⟨rfl, HostedState.record_self ..⟩⟩
  · have hSlots := invariant.slots process
    have hKeeps : Keeps deployment attempt state (state.onProcess process fun before =>
        { before with free := before.free - 1, holders := attempt :: before.holders }) := by
      apply invariant.onProcess
      · show (state.processes process).free - 1 +
          (attempt :: (state.processes process).holders).length = _
        rw [List.length_cons]
        omega
      · intro other _ hHolds
        exact List.mem_cons_of_mem _ hHolds
    refine ⟨hKeeps, hIdle, Or.inl ⟨rfl, rfl, ?_⟩⟩
    rw [HostedState.onProcess_self]
    exact List.mem_cons_self ..

/-- The holder of a slot can always release it. -/
theorem HostedInvariant.releaseSlot (invariant : HostedInvariant deployment state)
    {process : Nat} (hHolds : attempt ∈ (state.processes process).holders)
    {answer : Except HostedError Unit} {next : HostedState}
    (h : state.releaseSlot deployment.primary.concurrency attempt process = (answer, next)) :
    Keeps deployment attempt state next ∧ answer = .ok () ∧ next.ledger = state.ledger ∧
      next.records = state.records ∧ next.calls = state.calls := by
  have hSlots := invariant.slots process
  have hLength := List.length_pos_of_mem hHolds
  have hErase := List.length_erase_of_mem hHolds
  have hFree : ¬ deployment.primary.concurrency ≤ (state.processes process).free := by omega
  have hKeeps : Keeps deployment attempt state (state.onProcess process fun before =>
      { before with free := before.free + 1, holders := before.holders.erase attempt }) := by
    apply invariant.onProcess
    · show (state.processes process).free + 1 +
        ((state.processes process).holders.erase attempt).length = _
      omega
    · intro other hOther hOtherHolds
      exact (List.mem_erase_of_ne hOther).mpr hOtherHolds
  rw [HostedState.releaseSlot, if_neg hFree] at h
  cases h
  exact ⟨hKeeps, rfl, rfl, rfl, rfl⟩

/-- Asking the breaker for a ticket moves no slot, and a rejection is a refusal. -/
theorem HostedInvariant.acquireTicket (invariant : HostedInvariant deployment state)
    (hIdle : state.Idle attempt) {process : Nat} {now : ℚ} {ticket : Option Nat}
    {next : HostedState} (h : state.acquireTicket attempt process now = (ticket, next)) :
    Keeps deployment attempt state next ∧ next.Idle attempt ∧
      (∀ place, (next.processes place).holders = (state.processes place).holders) ∧
      (ticket.isSome = true ∧ next.records = state.records ∨
        ticket = none ∧
          next.records attempt = { state.records attempt with refused := true }) := by
  let after := ((state.processes process).breaker.acquire now).2
  have hBreaker : Keeps deployment attempt state
      (state.onProcess process ({ · with breaker := after })) :=
    invariant.onProcess (invariant.slots process) fun _ _ h => h
  have hHolders (place : Nat) :
      ((state.onProcess process ({ · with breaker := after })).processes place).holders =
        (state.processes place).holders := by
    by_cases hSame : place = process
    · rw [hSame, HostedState.onProcess_self]
    · rw [HostedState.onProcess_of_ne _ _ hSame]
  rw [HostedState.acquireTicket] at h
  cases hTicket : (CircuitBreaker.acquire (state.processes process).breaker now).1 with
  | some issued =>
      simp only [hTicket] at h
      cases h
      exact ⟨hBreaker, hIdle, hHolders, Or.inl ⟨rfl, rfl⟩⟩
  | none =>
      simp only [hTicket] at h
      cases h
      obtain ⟨hKeeps, hNext⟩ := hBreaker.1.refuse hIdle
      exact ⟨hBreaker.trans hKeeps, hNext, hHolders, Or.inr ⟨rfl, HostedState.record_self ..⟩⟩

theorem HostedInvariant.finishTicket (invariant : HostedInvariant deployment state)
    (process ticket : Nat) (success : Bool) (now : ℚ) :
    Keeps deployment attempt state (state.finishTicket process ticket success now) :=
  invariant.onProcess (invariant.slots process) fun _ _ h => h

theorem HostedInvariant.send (invariant : HostedInvariant deployment state)
    (hIdle : state.Idle attempt) (hRefused : deployment.refused state.records attempt = false)
    {id : UUID} (hHeld : (state.records attempt).reservation = some id) :
    Keeps deployment attempt state (state.send attempt) := by
  refine ⟨⟨invariant.accounts.send hHeld hRefused hIdle.1 hIdle.2, invariant.slots⟩,
    fun other hOther => ⟨rfl, rfl, ?_, fun _ h => h⟩⟩
  have hSame : (state.send attempt).callOf other = state.callOf other :=
    select_append_of_ne state.calls (Ne.symm hOther)
  rw [hSame]
  exact Grows.refl _

/-- A change of one call is seen by no other attempt. -/
theorem HostedInvariant.onCall {change : ProviderCall → ProviderCall}
    (hAttempt : ∀ call, (change call).attempt = call.attempt)
    (accounts : Accounts deployment state.ledger state.records (state.onCall attempt change).calls)
    (invariant : HostedInvariant deployment state) :
    Keeps deployment attempt state (state.onCall attempt change) := by
  refine ⟨⟨accounts, invariant.slots⟩, fun other hOther => ⟨rfl, rfl, ?_, fun _ h => h⟩⟩
  have hSame : (state.onCall attempt change).callOf other = state.callOf other := by
    rw [HostedState.callOf, HostedState.onCall, select_onCall hAttempt, if_neg hOther,
      HostedState.callOf]
  rw [hSame]
  exact Grows.refl _

/-- A response leaves the call final with what it settles. -/
theorem HostedInvariant.receive (invariant : HostedInvariant deployment state)
    (hUnsettled : settledBy state.ledger state.records attempt = none) {pydantic : Pydantic}
    {response : HttpResponse} {next : HostedState}
    (h : state.receive pydantic attempt response = some next) :
    Keeps deployment attempt state next ∧ next.ledger = state.ledger ∧
      next.records = state.records ∧ next.processes = state.processes ∧
      (∃ call, next.callOf attempt = some call ∧
        ∀ billed, response.settles pydantic = some billed →
          call.final = true ∧ call.billed = billed) := by
  unfold HostedState.receive at h
  cases hCall : state.callOf attempt with
  | none => simp [hCall] at h
  | some call =>
      cases hSettles : response.settles pydantic with
      | none =>
          simp only [hCall, hSettles, Option.some.injEq] at h
          subst h
          refine ⟨Keeps.refl invariant, rfl, rfl, rfl, call, hCall, fun billed hBilled => ?_⟩
          cases hBilled
      | some billed =>
          simp only [hCall, hSettles] at h
          split_ifs at h with hBilled
          cases h
          have hChange (before : ProviderCall) :
              ({ before with final := true } : ProviderCall).attempt = before.attempt := rfl
          refine ⟨HostedInvariant.onCall hChange ?_ invariant, rfl, rfl, rfl,
            { call with final := true }, ?_, fun other hOther => ⟨rfl, ?_⟩⟩
          · exact invariant.accounts.onCall hChange (fun _ => rfl)
              (fun before hBefore _ row hRow hId =>
                invariant.accounts.callBound before hBefore row hRow hId)
              (Or.inl hUnsettled)
          · rw [HostedState.callOf, HostedState.onCall, select_onCall hChange, if_pos rfl]
            exact congrArg (Option.map _) hCall
          · exact hBilled.trans (Option.some.inj hOther)

/-- Billing stays within the reservation and never changes a final call. -/
theorem HostedInvariant.bill (invariant : HostedInvariant deployment state) {tokens : Nat}
    {next : HostedState} (h : state.bill attempt tokens = some next) :
    HostedInvariant deployment next ∧ ∀ other, HostedRely deployment other state next := by
  unfold HostedState.bill at h
  cases hCall : state.callOf attempt with
  | none => simp [hCall] at h
  | some call =>
      simp only [hCall] at h
      split_ifs at h with hStop
      cases h
      simp only [Bool.or_eq_true, not_or, Bool.not_eq_true] at hStop
      obtain ⟨hFinal, hWithin⟩ := hStop
      have hChange (before : ProviderCall) :
          ({ before with billed := before.billed + tokens } : ProviderCall).attempt =
            before.attempt := rfl
      obtain ⟨hMem, hAttempt⟩ := select_mem hCall
      have hAccounts : Accounts deployment state.ledger state.records
          (state.onCall attempt fun call => { call with billed := call.billed + tokens }).calls := by
        refine invariant.accounts.onCall hChange (fun _ => rfl) ?_ (Or.inr ?_)
        · intro before hBefore hSame row hRow hId
          obtain rfl := invariant.accounts.callsOnce.eq_of_key hBefore hMem
            (hSame.trans hAttempt.symm)
          have hSelect : select UsageRow.id row.id state.ledger.tables.llmUsage = some row :=
            invariant.accounts.counters.usage.select_eq_some.mpr ⟨hRow, rfl⟩
          simp only [HostedState.reservationOf, hId, Option.bind_some, hSelect, Option.any_some, decide_eq_false_iff_not,
            not_lt] at hWithin
          exact_mod_cast hWithin
        · intro before hBefore
          obtain rfl : call = before := Option.some.inj (hCall.symm.trans hBefore)
          exact hFinal
      have hKeeps := HostedInvariant.onCall hChange hAccounts invariant
      refine ⟨hKeeps.1, fun other => ?_⟩
      by_cases hOther : other = attempt
      · subst hOther
        refine ⟨rfl, rfl, ?_, fun _ h => h⟩
        rw [hCall]
        refine ⟨{ call with billed := call.billed + tokens }, ?_, fun h => ?_⟩
        · rw [HostedState.callOf, HostedState.onCall, select_onCall hChange, if_pos rfl]
          exact congrArg (Option.map _) hCall
        · rw [hFinal] at h
          cases h
      · exact hKeeps.2 other hOther

end DocInsight.Query
